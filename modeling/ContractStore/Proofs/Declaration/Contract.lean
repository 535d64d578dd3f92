import ContractStore.Declaration.Contract
import ContractStore.Proofs.Call.Dispatch
import ContractStore.Proofs.Declaration.Options

/-!
Which contract declarations are accepted, and how the contracts dispatch that those stand for. The
options are checked before the functions, and the functions marked as methods in the order of the
declaration: the first that does not fit is the one that is reported. Names and arms of an accepted
declaration come from the same functions in the same order, so a call either names one of them and
is its handler, or names none and runs nothing.
-/
namespace ContractStore

namespace FunctionDecl
variable {τ : Type}

def GivesNothing (f : FunctionDecl τ) : Prop :=
  f.result = none ∨ f.result = some (.tuple []) ∨
    ∃ qualifier others, f.result = some (.path qualifier "Result" (.tuple [] :: others))

def TakesShared (f : FunctionDecl τ) : Prop :=
  ∃ receiver, f.receiver = some receiver ∧ receiver.byReference = true ∧ receiver.exclusive = false

structure Fits (f : FunctionDecl τ) : Prop where
  result : f.GivesNothing
  receiver : f.TakesShared
  parameters : 2 ≤ f.params.length

/-- A condition that does not hold although all before it do. -/
inductive Refused (f : FunctionDecl τ) : DeclarationError → Prop where
  | result (violated : ¬ f.GivesNothing) : Refused f .methodResult
  | receiver (result : f.GivesNothing) (violated : ¬ f.TakesShared) : Refused f .methodReceiver
  | parameters (result : f.GivesNothing) (receiver : f.TakesShared)
    (violated : ¬ 2 ≤ f.params.length) : Refused f .methodParameters

def canFail (f : FunctionDecl τ) : Bool :=
  match f.result with
  | some (.path ..) => true
  | _ => false

def armOf (f : FunctionDecl τ) : ContractArm τ := ⟨f.name, f.params.drop 2, f.canFail⟩

theorem fallible_of_givesNothing {f : FunctionDecl τ} (result : f.GivesNothing) :
    f.fallible = .ok f.canFail := by
  unfold fallible canFail
  obtain none | unit | ⟨qualifier, others, result⟩ := result
  · rw [none]
  · rw [unit]
  · rw [result]
    rfl

theorem fallible_of_not_givesNothing {f : FunctionDecl τ} (violated : ¬ f.GivesNothing) :
    f.fallible = .error .methodResult := by
  unfold fallible
  split
  · rename_i none
    exact absurd (.inl none) violated
  · rename_i unit
    exact absurd (.inr (.inl unit)) violated
  · rename_i result
    exact absurd (.inr (.inr ⟨_, _, result⟩)) violated
  · rfl

theorem any_isShared_iff (f : FunctionDecl τ) :
    f.receiver.any Receiver.isShared = true ↔ f.TakesShared := by
  unfold TakesShared Receiver.isShared
  cases f.receiver <;> simp

theorem arm_of_fits {f : FunctionDecl τ} (fits : f.Fits) : f.arm = .ok f.armOf := by
  have enough : ¬ f.params.length < 2 := Nat.not_lt.2 fits.parameters
  unfold arm
  simp only [fallible_of_givesNothing fits.result, (any_isShared_iff f).2 fits.receiver, enough,
    bind, Except.bind]
  rfl

theorem arm_of_refused {f : FunctionDecl τ} {cause : DeclarationError} (refused : f.Refused cause) :
    f.arm = .error cause := by
  unfold arm
  cases refused with
  | result violated =>
    rw [fallible_of_not_givesNothing violated]
    rfl
  | receiver result violated =>
    have exclusive : f.receiver.any Receiver.isShared = false := by
      rw [← Bool.not_eq_true, any_isShared_iff]
      exact violated
    simp only [fallible_of_givesNothing result, exclusive, bind, Except.bind]
    rfl
  | parameters result receiver violated =>
    have short : f.params.length < 2 := Nat.not_le.1 violated
    simp only [fallible_of_givesNothing result, (any_isShared_iff f).2 receiver, short, bind,
      Except.bind]
    rfl

theorem fits_or_refused (f : FunctionDecl τ) : f.Fits ∨ ∃ cause, f.Refused cause := by
  by_cases result : f.GivesNothing
  case neg => exact .inr ⟨_, .result result⟩
  by_cases receiver : f.TakesShared
  case neg => exact .inr ⟨_, .receiver result receiver⟩
  by_cases parameters : 2 ≤ f.params.length
  case neg => exact .inr ⟨_, .parameters result receiver parameters⟩
  exact .inl ⟨result, receiver, parameters⟩

theorem settles_arm (f : FunctionDecl τ) : Settles f.arm f.Fits f.Refused where
  total := f.fits_or_refused
  passes fits := ⟨_, arm_of_fits fits⟩
  fails _ := arm_of_refused

end FunctionDecl

namespace ContractDecl
variable {τ : Type}

def methods (d : ContractDecl τ) : List (FunctionDecl τ) := d.functions.filter FunctionDecl.isMethod

structure Accepted (d : ContractDecl τ) : Prop where
  options : ∀ option ∈ d.options, option.NamesIt
  nonempty : d.methods ≠ []
  fit : ∀ f ∈ d.methods, f.Fits

/-- The first option or method that is refused, or that there is no method. -/
inductive Refused (d : ContractDecl τ) : DeclarationError → Prop where
  | notText {before after : List AttributeOption}
    (split : d.options = before ++ .literal "name" :: after)
    (first : ∀ option ∈ before, option.NamesIt) : Refused d .contractNameNotText
  | option {before after : List AttributeOption} {option : AttributeOption}
    (split : d.options = before ++ option :: after) (first : ∀ option ∈ before, option.NamesIt)
    (text : option ≠ .literal "name") (violated : ¬ option.NamesIt) : Refused d .contractOption
  | method {before after : List (FunctionDecl τ)} {f : FunctionDecl τ} {cause : DeclarationError}
    (options : ∀ option ∈ d.options, option.NamesIt) (split : d.methods = before ++ f :: after)
    (first : ∀ g ∈ before, g.Fits) (refused : f.Refused cause) : Refused d cause
  | noMethods (options : ∀ option ∈ d.options, option.NamesIt) (violated : d.methods = []) :
    Refused d .noMethods

def optionRefusal : AttributeOption → DeclarationError
  | .literal "name" => .contractNameNotText
  | _ => .contractOption

theorem typeName_eq_lastName (d : ContractDecl τ) :
    d.typeName = lastName (AttributeOption.nameOr optionRefusal) d.options d.selfType := by
  unfold typeName lastName
  rw [← foldlM_last]
  refine congrArg (fun step => d.options.foldlM step d.selfType) ?_
  funext _ option
  unfold AttributeOption.nameOr optionRefusal
  cases option with
  | word name => rfl
  | list name => rfl
  | text name value => split <;> simp_all
  | literal name => split <;> simp_all

theorem settles_typeName (d : ContractDecl τ) :
    Settles d.typeName (∀ option ∈ d.options, option.NamesIt) fun cause =>
      ∃ before option after, d.options = before ++ option :: after ∧
        (∀ o ∈ before, o.NamesIt) ∧ ¬ option.NamesIt ∧ cause = optionRefusal option := by
  rw [typeName_eq_lastName]
  exact settles_lastName (AttributeOption.settles_nameOr optionRefusal) _ _

theorem settles_arms (d : ContractDecl τ) :
    Settles (d.methods.mapM FunctionDecl.arm) (∀ f ∈ d.methods, f.Fits) fun cause =>
      ∃ before f after, d.methods = before ++ f :: after ∧ (∀ g ∈ before, g.Fits) ∧
        f.Refused cause :=
  Settles.mapM FunctionDecl.settles_arm d.methods

def expansion (d : ContractDecl τ) (typeName : String) : ContractExpansion τ :=
  ⟨d.selfType, typeName, d.methods.map FunctionDecl.armOf, d.functions.map FunctionDecl.remaining⟩

theorem expand_of_accepted {d : ContractDecl τ} (accepted : d.Accepted) :
    ∃ typeName, d.typeName = .ok typeName ∧ d.expand = .ok (d.expansion typeName) := by
  obtain ⟨typeName, named⟩ := d.settles_typeName.passes accepted.options
  have arms : (d.functions.filter FunctionDecl.isMethod).mapM FunctionDecl.arm =
      .ok (d.methods.map FunctionDecl.armOf) := by
    rw [mapM_eq_ok_iff, List.map_map]
    exact List.map_congr_left fun f mem => FunctionDecl.arm_of_fits (accepted.fit f mem)
  have nonempty : (d.methods.map FunctionDecl.armOf).isEmpty = false := by
    rw [List.isEmpty_map, List.isEmpty_eq_false_iff]
    exact accepted.nonempty
  refine ⟨typeName, named, ?_⟩
  unfold expand
  simp only [named, arms, nonempty, bind, Except.bind]
  rfl

theorem expand_of_refused {d : ContractDecl τ} {cause : DeclarationError}
    (refused : d.Refused cause) : d.expand = .error cause := by
  unfold expand
  cases refused with
  | notText split first =>
    have literal : ¬ (AttributeOption.literal "name").NamesIt := by
      rintro ⟨_, same⟩
      cases same
    rw [d.settles_typeName.fails _ ⟨_, _, _, split, first, literal, rfl⟩]
    rfl
  | @option _ _ option split first text violated =>
    have other : .contractOption = optionRefusal option := by
      unfold optionRefusal
      split
      · exact absurd rfl text
      · rfl
    rw [d.settles_typeName.fails _ ⟨_, _, _, split, first, violated, other⟩]
    rfl
  | method options split first refused =>
    obtain ⟨typeName, named⟩ := d.settles_typeName.passes options
    have arms := d.settles_arms.fails _ ⟨_, _, _, split, first, refused⟩
    unfold methods at arms
    rw [named, arms]
    rfl
  | noMethods options violated =>
    obtain ⟨typeName, named⟩ := d.settles_typeName.passes options
    unfold methods at violated
    rw [named, violated]
    rfl

theorem accepted_or_refused (d : ContractDecl τ) : d.Accepted ∨ ∃ cause, d.Refused cause := by
  cases d.settles_typeName.total with
  | inr refused =>
    obtain ⟨cause, before, option, after, split, first, violated, _⟩ := refused
    by_cases text : option = .literal "name"
    · rw [text] at split
      exact .inr ⟨_, .notText split first⟩
    · exact .inr ⟨_, .option split first text violated⟩
  | inl options =>
    cases d.settles_arms.total with
    | inr refused =>
      obtain ⟨cause, before, f, after, split, first, refused⟩ := refused
      exact .inr ⟨cause, .method options split first refused⟩
    | inl fit =>
      by_cases violated : d.methods = []
      · exact .inr ⟨_, .noMethods options violated⟩
      · exact .inl ⟨options, violated, fit⟩

theorem settles_expand (d : ContractDecl τ) : Settles d.expand d.Accepted d.Refused where
  total := d.accepted_or_refused
  passes accepted := by
    obtain ⟨typeName, _, expanded⟩ := expand_of_accepted accepted
    exact ⟨_, expanded⟩
  fails _ := expand_of_refused

theorem expand_eq_ok {d : ContractDecl τ} {e : ContractExpansion τ} (expanded : d.expand = .ok e) :
    d.Accepted ∧ ∃ typeName, e = d.expansion typeName := by
  have accepted := d.settles_expand.ok_iff.1 ⟨e, expanded⟩
  obtain ⟨typeName, _, whole⟩ := expand_of_accepted accepted
  cases expanded.symm.trans whole
  exact ⟨accepted, typeName, rfl⟩

end ContractDecl

namespace ContractExpansion

abbrev Handler : Type 1 := (arm : ContractArm WireType) → ContractHandler arm

theorem methodNames_expansion {τ : Type} (d : ContractDecl τ) (typeName : String) :
    (d.expansion typeName).methodNames = d.methods.map FunctionDecl.name :=
  List.map_map

theorem methodNames_contract (e : ContractExpansion WireType) (handler : Handler) :
    (e.contract handler).methodNames = e.methodNames :=
  List.map_map

theorem nodup_methods {τ : Type} {d : ContractDecl τ}
    (distinct : (d.functions.map FunctionDecl.name).Nodup) :
    (d.methods.map FunctionDecl.name).Nodup :=
  distinct.sublist (List.filter_sublist.map FunctionDecl.name)

/-- A declaration is accepted exactly if its options are names, it has methods and each fits, and
else refused for the first that does not. What an accepted one stands for lists its methods in
order, refuses every other name before anything runs, and a call of a method is its handler, run on
the arguments if they can be unpacked. -/
theorem contract_declarations_dispatch_their_methods :
    (∀ (τ : Type) (d : ContractDecl τ),
      ((∃ e, d.expand = .ok e) ↔ d.Accepted) ∧
        ∀ cause, d.expand = .error cause ↔ d.Refused cause) ∧
      ∀ (d : ContractDecl WireType) (e : ContractExpansion WireType), d.expand = .ok e →
        ∀ (handler : Handler) (ctx : CallContext),
          (e.contract handler).methodNames = d.methods.map FunctionDecl.name ∧
            (ctx.method ∉ d.methods.map FunctionDecl.name →
              (e.contract handler).dispatch ctx = throw (.unknownMethod ctx.method)) ∧
            ((d.functions.map FunctionDecl.name).Nodup →
              ∀ f ∈ d.methods, f.name = ctx.method →
                (∀ args, (WireType.tuple (.unlabelled (f.params.drop 2))).unpack ctx.args =
                    .ok args →
                    (e.contract handler).dispatch ctx = (handler f.armOf).call args ctx) ∧
                  ∀ cause, (WireType.tuple (.unlabelled (f.params.drop 2))).unpack ctx.args =
                    .error cause → (e.contract handler).dispatch ctx = throw (.codec cause)) := by
  constructor
  · exact fun τ d => ⟨d.settles_expand.ok_iff, d.settles_expand.error_iff⟩
  · intro d e expanded handler ctx
    obtain ⟨_, typeName, rfl⟩ := ContractDecl.expand_eq_ok expanded
    have names : ((d.expansion typeName).contract handler).methodNames =
        d.methods.map FunctionDecl.name := by
      rw [methodNames_contract, methodNames_expansion]
    refine ⟨names, fun unlisted => ?_, fun distinct f mem named => ?_⟩
    · rw [← names] at unlisted
      exact Contract.dispatch_of_unlisted unlisted
    · have listed : (⟨f.name, .unlabelled f.armOf.args, (handler f.armOf).call⟩ : Method) ∈
          ((d.expansion typeName).contract handler).methods :=
        List.mem_map_of_mem (List.mem_map_of_mem mem)
      have found := Contract.find?_method (names ▸ nodup_methods distinct) listed named
      exact ⟨fun _ => Contract.dispatch_of_unpacked found,
        fun _ => Contract.dispatch_of_garbled found⟩

/-- Of three functions two are methods. The one that can fail ends with its own failure as that of
the call, and does nothing without its argument; the function that is no method cannot be called. -/
theorem marked_functions_are_called :
    let shared : Receiver := ⟨true, false⟩
    let mark : PlainAttribute := ⟨"method", none, "method"⟩
    let set : FunctionDecl WireType := ⟨"set", [mark], some shared, [.unit, .unit, .int .u8],
      some (.path "" "Result" [.tuple [], .other "Refusal"])⟩
    let clear : FunctionDecl WireType := ⟨"clear", [mark], some shared, [.unit, .unit], none⟩
    let helper : FunctionDecl WireType := ⟨"helper", [], none, [.bool], some (.path "" "bool" [])⟩
    let d : ContractDecl WireType := ⟨[.text "name" "cell"], "Cell",
      [.other, .function helper, .function set, .function clear]⟩
    let e := d.expansion "cell"
    let handler : Handler := fun arm => {
      Failure := String
      into := .assertion
      body := fun _ _ host => .done (match arm.fallible with
        | false => ()
        | true => .error "no", host.print arm.method) }
    let call (method : String) (args : Bytes) : Call Unit :=
      (e.contract handler).dispatch ⟨method, args, ⟨"$cell@alice"⟩, ⟨"bob"⟩⟩
    d.expand = .ok e ∧ (e.contract handler).methodNames = ["set", "clear"] ∧
      call "set" [1, 7] = (do Call.print "set"; throw (.assertion "no")) ∧
      call "clear" [0] = Call.print "clear" ∧
      call "set" [] = throw (.codec (.outOfBounds "get" 1 0)) ∧
      call "helper" [1, 7] = throw (.unknownMethod "helper") := by
  intro shared mark set clear helper d e handler call
  have expanded : d.expand = .ok e := rfl
  have distinct : (d.functions.map FunctionDecl.name).Nodup := by decide
  have methods : d.methods = [set, clear] := rfl
  have setMarked : set ∈ d.methods := methods ▸ List.mem_cons_self
  have clearMarked : clear ∈ d.methods := methods ▸ List.mem_cons_of_mem _ List.mem_cons_self
  have dispatches (ctx : CallContext) :=
    contract_declarations_dispatch_their_methods.2 d e expanded handler ctx
  obtain ⟨names, _, called⟩ := dispatches ⟨"set", [1, 7], ⟨"$cell@alice"⟩, ⟨"bob"⟩⟩
  obtain ⟨_, _, cleared⟩ := dispatches ⟨"clear", [0], ⟨"$cell@alice"⟩, ⟨"bob"⟩⟩
  obtain ⟨_, _, short⟩ := dispatches ⟨"set", [], ⟨"$cell@alice"⟩, ⟨"bob"⟩⟩
  obtain ⟨_, refused, _⟩ := dispatches ⟨"helper", [1, 7], ⟨"$cell@alice"⟩, ⟨"bob"⟩⟩
  refine ⟨expanded, names, ?_, ?_, ?_, refused (by decide)⟩
  · exact (called distinct set setMarked rfl).1 (7#8, ()) rfl
  · exact (cleared distinct clear clearMarked rfl).1 () rfl
  · exact (short distinct set setMarked rfl).2 _ rfl

end ContractExpansion
end ContractStore
