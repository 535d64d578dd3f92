import ContractStore.Declaration.Schema
import ContractStore.Proofs.Declaration.Options
import ContractStore.Proofs.Wire.Fields

/-!
Which record declarations are accepted, and what those that are stand for. The checks are conditions
on a declaration, in order, and the cause of a refusal is that of the first condition that does not
hold. The passes that expand an accepted declaration agree: the count in front of its values is the
number of its fields, each is packed and unpacked once in the order of the declaration, and the base
is the first of them. So values of declarations with unequal numbers of fields are told apart.
-/
namespace ContractStore

namespace RecordOption

def NamesIt (option : RecordOption) : Prop := ∃ value, option = .named "name" (.text value)

inductive NameRefused : RecordOption → DeclarationError → Prop where
  | unread (cause : DeclarationError) : NameRefused (.unread cause) cause
  | unsupported {name : String} (tail : OptionTail) (other : name ≠ "name") :
    NameRefused (.named name tail) .recordOption
  | valueless : NameRefused (.named "name" .nothing) .missingEquals
  | stray (cause : DeclarationError) : NameRefused (.named "name" (.stray cause)) cause

theorem settles_typeName (option : RecordOption) :
    Settles option.typeName option.NamesIt option.NameRefused := by
  constructor
  · cases option with
    | unread cause => exact .inr ⟨_, .unread cause⟩
    | named name tail =>
      by_cases names : name = "name"
      · cases names
        cases tail with
        | nothing => exact .inr ⟨_, .valueless⟩
        | text value => exact .inl ⟨value, rfl⟩
        | stray cause => exact .inr ⟨_, .stray cause⟩
      · exact .inr ⟨_, .unsupported tail names⟩
  · rintro ⟨value, rfl⟩
    exact ⟨value, rfl⟩
  · intro cause refused
    cases refused with
    | unread => rfl
    | unsupported tail other =>
      unfold typeName
      split <;> simp_all
    | valueless => rfl
    | stray => rfl

def Marks (option : RecordOption) : Prop :=
  option = .named "base" .nothing ∨ option = .named "primary_key" .nothing

def markNames : List String := ["base", "primary_key"]

theorem mem_markNames {name : String} :
    name ∈ markNames ↔ name = "base" ∨ name = "primary_key" := by
  simp only [markNames, List.mem_cons, List.not_mem_nil, or_false]

inductive MarkRefused : RecordOption → DeclarationError → Prop where
  | unread (cause : DeclarationError) : MarkRefused (.unread cause) cause
  | unsupported {name : String} (tail : OptionTail) (other : name ∉ markNames) :
    MarkRefused (.named name tail) .fieldOption
  | followed {name : String} {tail : OptionTail} (mark : name ∈ markNames)
    (something : tail ≠ .nothing) : MarkRefused (.named name tail) .missingComma

theorem settles_checkMark (option : RecordOption) :
    Settles option.checkMark option.Marks option.MarkRefused := by
  constructor
  · cases option with
    | unread cause => exact .inr ⟨_, .unread cause⟩
    | named name tail =>
      by_cases mark : name ∈ markNames
      · by_cases nothing : tail = .nothing
        · cases nothing
          obtain rfl | rfl := mem_markNames.1 mark
          · exact .inl (.inl rfl)
          · exact .inl (.inr rfl)
        · exact .inr ⟨_, .followed mark nothing⟩
      · exact .inr ⟨_, .unsupported tail mark⟩
  · rintro (rfl | rfl)
    · exact ⟨(), rfl⟩
    · exact ⟨(), rfl⟩
  · intro cause refused
    cases refused with
    | unread => rfl
    | unsupported tail other =>
      unfold checkMark
      split <;> simp_all [markNames]
    | @followed _ tail mark something =>
      obtain rfl | rfl := mem_markNames.1 mark
      · cases tail with
        | nothing => exact absurd rfl something
        | text => rfl
        | stray => rfl
      · cases tail with
        | nothing => exact absurd rfl something
        | text => rfl
        | stray => rfl

end RecordOption

namespace FieldDecl
variable {τ : Type}

def OptionsMark (f : FieldDecl τ) : Prop :=
  ∀ option ∈ Attribute.allOptions f.attributes, option.Marks

def Refused (f : FieldDecl τ) (cause : DeclarationError) : Prop :=
  ∃ before option after, Attribute.allOptions f.attributes = before ++ option :: after ∧
    (∀ o ∈ before, o.Marks) ∧ option.MarkRefused cause

theorem settles_checkOptions (f : FieldDecl τ) :
    Settles f.checkOptions f.OptionsMark f.Refused := by
  unfold checkOptions
  rw [forM_eq_mapM]
  exact (Settles.mapM RecordOption.settles_checkMark _).map _

end FieldDecl

namespace RecordDecl
variable {τ : Type}

def OptionsName (d : RecordDecl τ) : Prop :=
  ∀ option ∈ Attribute.allOptions d.attributes, option.NamesIt

def OptionsMark (d : RecordDecl τ) : Prop :=
  ∀ f ∈ d.fields, f.OptionsMark

def BaseIsFirst (d : RecordDecl τ) : Prop :=
  ∀ i f, d.fields[i]? = some f → f.isBase = true → i = 0

def OneKey (d : RecordDecl τ) : Prop := (d.fields.filter FieldDecl.isKey).length ≤ 1

structure Accepted (d : RecordDecl τ) : Prop where
  options : d.OptionsName
  named : d.kind = .named
  marks : d.OptionsMark
  base : d.BaseIsFirst
  key : d.OneKey

/-- A condition that does not hold although all before it do. Of the options it is the first that
is refused, and of the fields the first that has one. -/
inductive Refused (d : RecordDecl τ) : DeclarationError → Prop where
  | options {before after : List RecordOption} {option : RecordOption} {cause : DeclarationError}
    (split : Attribute.allOptions d.attributes = before ++ option :: after)
    (first : ∀ o ∈ before, o.NamesIt) (refused : option.NameRefused cause) : Refused d cause
  | notStruct (options : d.OptionsName) (violated : d.kind = .enum ∨ d.kind = .union) :
    Refused d .recordNotStruct
  | unnamed (options : d.OptionsName) (violated : d.kind = .tuple ∨ d.kind = .unit) :
    Refused d .recordUnnamedFields
  | marks {before after : List (FieldDecl τ)} {f : FieldDecl τ} {cause : DeclarationError}
    (options : d.OptionsName) (named : d.kind = .named) (split : d.fields = before ++ f :: after)
    (first : ∀ g ∈ before, g.OptionsMark) (refused : f.Refused cause) : Refused d cause
  | base (options : d.OptionsName) (named : d.kind = .named) (marks : d.OptionsMark)
    (violated : ¬ d.BaseIsFirst) : Refused d .baseNotFirst
  | keys (options : d.OptionsName) (named : d.kind = .named) (marks : d.OptionsMark)
    (base : d.BaseIsFirst) (violated : ¬ d.OneKey) : Refused d .severalKeys

/-! Each check decides its condition. -/

theorem settles_typeName (d : RecordDecl τ) :
    Settles d.typeName d.OptionsName fun cause =>
      ∃ before option after, Attribute.allOptions d.attributes = before ++ option :: after ∧
        (∀ o ∈ before, o.NamesIt) ∧ option.NameRefused cause := by
  have last : d.typeName =
      lastName RecordOption.typeName (Attribute.allOptions d.attributes) d.name := by
    unfold typeName lastName
    rw [← foldlM_last]
  rw [last]
  exact settles_lastName RecordOption.settles_typeName _ _

theorem settles_checkFields (d : RecordDecl τ) :
    Settles (d.fields.forM FieldDecl.checkOptions) d.OptionsMark fun cause =>
      ∃ before f after, d.fields = before ++ f :: after ∧ (∀ g ∈ before, g.OptionsMark) ∧
        f.Refused cause := by
  rw [forM_eq_mapM]
  exact (Settles.mapM FieldDecl.settles_checkOptions d.fields).map _

theorem checkFields_of_optionsMark {d : RecordDecl τ} (marks : d.OptionsMark) :
    d.fields.forM FieldDecl.checkOptions = .ok () := by
  obtain ⟨_, passed⟩ := d.settles_checkFields.passes marks
  exact passed

theorem accepted_or_refused (d : RecordDecl τ) : d.Accepted ∨ ∃ cause, d.Refused cause := by
  cases d.settles_typeName.total with
  | inr refused =>
    obtain ⟨cause, before, option, after, split, first, refused⟩ := refused
    exact .inr ⟨cause, .options split first refused⟩
  | inl options =>
    cases kind : d.kind with
    | enum => exact .inr ⟨_, .notStruct options (.inl kind)⟩
    | union => exact .inr ⟨_, .notStruct options (.inr kind)⟩
    | tuple => exact .inr ⟨_, .unnamed options (.inl kind)⟩
    | unit => exact .inr ⟨_, .unnamed options (.inr kind)⟩
    | named =>
      cases d.settles_checkFields.total with
      | inr refused =>
        obtain ⟨cause, before, f, after, split, first, refused⟩ := refused
        exact .inr ⟨cause, .marks options kind split first refused⟩
      | inl marks =>
        by_cases base : d.BaseIsFirst
        case neg => exact .inr ⟨_, .base options kind marks base⟩
        by_cases key : d.OneKey
        case neg => exact .inr ⟨_, .keys options kind marks base key⟩
        exact .inl ⟨options, kind, marks, base, key⟩

theorem any_isBase_eq_false_iff (d : RecordDecl τ) :
    (d.fields.drop 1).any FieldDecl.isBase = false ↔ d.BaseIsFirst := by
  rw [List.any_eq_false]
  constructor
  · intro none i f found based
    cases i with
    | zero => rfl
    | succ i =>
      have mem : f ∈ d.fields.drop 1 := by
        apply List.mem_of_getElem? (i := i)
        rw [List.getElem?_drop, Nat.add_comm, found]
      exact absurd based (none f mem)
  · intro first f mem based
    obtain ⟨i, found⟩ := List.getElem?_of_mem mem
    rw [List.getElem?_drop] at found
    have zero := first (1 + i) f found based
    omega

def expansion (d : RecordDecl τ) (typeName : String) : RecordExpansion τ where
  target := d.name ++ d.generics.arguments
  typeName
  fields := d.fields.map FieldDecl.labelled
  base := (d.fields.find? FieldDecl.isBase).map FieldDecl.labelled
  key := (d.fields.find? FieldDecl.isKey).map FieldDecl.labelled

theorem checkKind_of_named {d : RecordDecl τ} (named : d.kind = .named) : d.checkKind = .ok () := by
  unfold checkKind
  rw [named]

theorem expand_of_accepted {d : RecordDecl τ} (accepted : d.Accepted) :
    ∃ typeName, d.typeName = .ok typeName ∧ d.expand = .ok (d.expansion typeName) := by
  obtain ⟨typeName, named⟩ := d.settles_typeName.passes accepted.options
  have kind := checkKind_of_named accepted.named
  have marked := checkFields_of_optionsMark accepted.marks
  have based := (any_isBase_eq_false_iff d).2 accepted.base
  have keyed : ¬ 1 < (d.fields.filter FieldDecl.isKey).length := Nat.not_lt.2 accepted.key
  refine ⟨typeName, named, ?_⟩
  unfold expand
  simp only [named, kind, marked, based, keyed, bind, Except.bind]
  rfl

theorem expand_of_refused {d : RecordDecl τ} {cause : DeclarationError}
    (refused : d.Refused cause) : d.expand = .error cause := by
  unfold expand
  cases refused with
  | options split first refused =>
    rw [d.settles_typeName.fails _ ⟨_, _, _, split, first, refused⟩]
    rfl
  | notStruct options violated =>
    obtain ⟨typeName, named⟩ := d.settles_typeName.passes options
    have kind : d.checkKind = .error .recordNotStruct := by
      unfold checkKind
      cases violated with
      | inl enum => rw [enum]
      | inr union => rw [union]
    rw [named, kind]
    rfl
  | unnamed options violated =>
    obtain ⟨typeName, named⟩ := d.settles_typeName.passes options
    have kind : d.checkKind = .error .recordUnnamedFields := by
      unfold checkKind
      cases violated with
      | inl tuple => rw [tuple]
      | inr unit => rw [unit]
    rw [named, kind]
    rfl
  | marks options kind split first refused =>
    obtain ⟨typeName, named⟩ := d.settles_typeName.passes options
    have stopped := d.settles_checkFields.fails _ ⟨_, _, _, split, first, refused⟩
    rw [named, checkKind_of_named kind, stopped]
    rfl
  | base options kind marks violated =>
    obtain ⟨typeName, named⟩ := d.settles_typeName.passes options
    have based : (d.fields.drop 1).any FieldDecl.isBase = true := by
      rw [← Bool.not_eq_false, any_isBase_eq_false_iff]
      exact violated
    rw [named, checkKind_of_named kind, checkFields_of_optionsMark marks, based]
    rfl
  | keys options kind marks base violated =>
    obtain ⟨typeName, named⟩ := d.settles_typeName.passes options
    have based := (any_isBase_eq_false_iff d).2 base
    have keyed : 1 < (d.fields.filter FieldDecl.isKey).length := Nat.not_le.1 violated
    simp only [named, checkKind_of_named kind, checkFields_of_optionsMark marks, based, keyed, bind,
      Except.bind]
    rfl

theorem settles_expand (d : RecordDecl τ) : Settles d.expand d.Accepted d.Refused where
  total := d.accepted_or_refused
  passes accepted := by
    obtain ⟨typeName, _, expanded⟩ := expand_of_accepted accepted
    exact ⟨_, expanded⟩
  fails _ := expand_of_refused

theorem expand_eq_ok {d : RecordDecl τ} {e : RecordExpansion τ} (expanded : d.expand = .ok e) :
    d.Accepted ∧ ∃ typeName, e = d.expansion typeName := by
  have accepted := d.settles_expand.ok_iff.1 ⟨e, expanded⟩
  obtain ⟨typeName, _, whole⟩ := expand_of_accepted accepted
  cases expanded.symm.trans whole
  exact ⟨accepted, typeName, rfl⟩

/-- The base, if there is one, stands in front of all other fields. -/
theorem split_of_baseIsFirst {d : RecordDecl τ} (first : d.BaseIsFirst) :
    ∃ (base : Option (FieldDecl τ)) (own : List (FieldDecl τ)), d.fields = base.toList ++ own ∧
      (∀ f ∈ base, f.isBase = true) ∧ ∀ f ∈ own, f.isBase = false := by
  have later := (any_isBase_eq_false_iff d).2 first
  cases fields : d.fields with
  | nil => exact ⟨none, [], rfl, fun _ mem => (nomatch mem), fun _ mem => (nomatch mem)⟩
  | cons f rest =>
    rw [fields, List.drop_one, List.tail_cons] at later
    have plain : ∀ f ∈ rest, f.isBase = false := fun f mem =>
      Bool.eq_false_iff.2 (List.any_eq_false.1 later f mem)
    cases based : f.isBase with
    | true =>
      refine ⟨some f, rest, rfl, fun _ mem => ?_, plain⟩
      cases mem
      exact based
    | false =>
      refine ⟨none, f :: rest, rfl, fun _ mem => (nomatch mem), ?_⟩
      exact List.forall_mem_cons.2 ⟨based, plain⟩

end RecordDecl

namespace RecordExpansion

structure Agrees (d : RecordDecl WireType) (e : RecordExpansion WireType) : Prop where
  count : e.row.wireCount e.hasBase = d.fields.length
  names : e.ownNames = (d.fields.filter fun f => !f.isBase).map FieldDecl.name
  labels : e.row.ownLabels e.hasBase = e.ownNames
  based : e.hasBase = true → ∃ base rest, d.fields = base :: rest ∧ base.isBase = true ∧
    e.base = some (base.name, base.type) ∧
    ∃ member : Member e.row base.type,
      Member.ofLabel? e.row base.name = some ⟨base.type, member⟩ ∧
        ∀ x, (e.row.values x).head? = some ⟨base.type, member.get x⟩
  baseless : e.hasBase = false → e.base = none ∧ ∀ f ∈ d.fields, f.isBase = false
  whole : ∀ x y, e.row.values x = e.row.values y → x = y
  types : ∀ x, (e.row.values x).map Sigma.fst = d.fields.map FieldDecl.type
  packs : ∀ x, e.wireType.pack x =
    (TypedValue.packAll (e.row.values x)).map (Varint.encode d.fields.length ++ ·)
  unpacks : (do let x ← e.wireType.decode; return e.row.values x) = (do
    Reader.expectSize e.typeName d.fields.length
    (d.fields.map FieldDecl.type).mapM Reader.typed)

theorem ownLabels_row (e : RecordExpansion WireType) :
    e.row.ownLabels e.hasBase = e.ownNames := by
  unfold row WireRow.ownLabels ownNames
  rw [WireRow.labels_ofList]
  cases e.hasBase with
  | true => exact List.map_drop.symm
  | false => rfl

section
variable {d : RecordDecl WireType} {base : Option (FieldDecl WireType)}
  {own : List (FieldDecl WireType)}

theorem base_expansion (typeName : String) (fields : d.fields = base.toList ++ own)
    (based : ∀ f ∈ base, f.isBase = true) (plain : ∀ f ∈ own, f.isBase = false) :
    (d.expansion typeName).base = base.map FieldDecl.labelled := by
  unfold RecordDecl.expansion
  rw [fields]
  cases base with
  | none => rw [Option.toList_none, List.nil_append, List.find?_eq_none.2 (by simpa using plain)]
  | some f => rw [Option.toList_some, List.singleton_append, List.find?_cons_of_pos (based f rfl)]

theorem ownNames_expansion (typeName : String) (fields : d.fields = base.toList ++ own)
    (found : (d.expansion typeName).base = base.map FieldDecl.labelled) :
    (d.expansion typeName).ownNames = own.map FieldDecl.name := by
  unfold ownNames hasBase
  rw [found]
  unfold RecordDecl.expansion
  rw [fields]
  cases base with
  | none => exact List.map_map
  | some f => exact List.map_map

theorem filter_own (fields : d.fields = base.toList ++ own)
    (based : ∀ f ∈ base, f.isBase = true) (plain : ∀ f ∈ own, f.isBase = false) :
    (d.fields.filter fun f => !f.isBase) = own := by
  have all : (own.filter fun f => !f.isBase) = own :=
    List.filter_eq_self.2 fun f mem => by rw [plain f mem, Bool.not_false]
  rw [fields, List.filter_append, all]
  cases base with
  | none => rfl
  | some f => simp [based f rfl]

theorem agrees_of_baseIsFirst (typeName : String) (first : d.BaseIsFirst)
    (small : d.fields.length < Varint.bound) : Agrees d (d.expansion typeName) := by
  obtain ⟨base, own, fields, based, plain⟩ := RecordDecl.split_of_baseIsFirst first
  have found := base_expansion typeName fields based plain
  have names := ownNames_expansion typeName fields found
  have count : (d.expansion typeName).row.wireCount (d.expansion typeName).hasBase =
      d.fields.length := by
    unfold WireRow.wireCount
    rw [ownLabels_row, names, List.length_map, fields]
    unfold hasBase
    rw [found]
    cases base <;> simp
  have types : (d.expansion typeName).row.types = d.fields.map FieldDecl.type :=
    (WireRow.types_ofList _).trans List.map_map
  constructor
  case count => exact count
  case names => rw [names, filter_own fields based plain]
  case labels => exact ownLabels_row _
  case based =>
    intro flag
    unfold hasBase at flag
    rw [found] at flag
    cases base with
    | none => cases flag
    | some f =>
      refine ⟨f, own, fields, based f rfl, found, ?_⟩
      have shape : (d.expansion typeName).row =
          .cons f.name f.type (.ofList (own.map FieldDecl.labelled)) := by
        unfold row RecordDecl.expansion
        rw [fields]
        rfl
      rw [shape]
      exact Member.head?_values _ _ _
  case baseless =>
    intro flag
    unfold hasBase at flag
    rw [found] at flag ⊢
    cases base with
    | none => exact ⟨rfl, by rwa [fields]⟩
    | some f => cases flag
  case whole => exact fun x y => WireRow.values_injective _
  case types => exact fun x => (WireRow.types_of_values _ x).trans types
  case packs =>
    intro x
    have packed := WireType.pack_record (d.expansion typeName).typeName
      (d.expansion typeName).hasBase (d.expansion typeName).row x (count.symm ▸ small)
    rw [count] at packed
    exact packed
  case unpacks =>
    have unpacked := WireType.decode_record_values (d.expansion typeName).typeName
      (d.expansion typeName).hasBase (d.expansion typeName).row
    rw [count, types] at unpacked
    exact unpacked

end

theorem refuses_other_count {d d' : RecordDecl WireType} {e e' : RecordExpansion WireType}
    (agrees : Agrees d e) (agrees' : Agrees d' e') (small : d'.fields.length < Varint.bound)
    (ne : d.fields.length ≠ d'.fields.length) {x : e.wireType.Carrier} {bytes : Bytes}
    (packed : e.wireType.pack x = .ok bytes) (rest : Bytes) :
    ∃ unread, e'.wireType.decode (bytes ++ rest) =
      .error (.schemaMismatch e'.typeName d'.fields.length d.fields.length) unread := by
  rw [← agrees.count, ← agrees'.count] at ne ⊢
  rw [← agrees'.count] at small
  exact WireType.decode_record_of_other_count small ne packed rest

/-- A declaration is accepted exactly if all conditions hold, and else refused for the first that
does not. What an accepted one stands for agrees with it, and no other number of fields decodes. -/
theorem record_declarations_and_counts_agree :
    (∀ (τ : Type) (d : RecordDecl τ),
      ((∃ e, d.expand = .ok e) ↔ d.Accepted) ∧
        ∀ cause, d.expand = .error cause ↔ d.Refused cause) ∧
      ∀ (d : RecordDecl WireType) (e : RecordExpansion WireType), d.expand = .ok e →
        d.fields.length < Varint.bound →
          Agrees d e ∧
            ∀ (d' : RecordDecl WireType) (e' : RecordExpansion WireType), d'.expand = .ok e' →
              d'.fields.length < Varint.bound → d.fields.length ≠ d'.fields.length →
                ∀ (x : e.wireType.Carrier) (bytes rest : Bytes), e.wireType.pack x = .ok bytes →
                  ∃ unread, e'.wireType.decode (bytes ++ rest) =
                    .error (.schemaMismatch e'.typeName d'.fields.length d.fields.length)
                      unread := by
  have agrees {d : RecordDecl WireType} {e : RecordExpansion WireType} (expanded : d.expand = .ok e)
      (small : d.fields.length < Varint.bound) : Agrees d e := by
    obtain ⟨accepted, typeName, rfl⟩ := RecordDecl.expand_eq_ok expanded
    exact agrees_of_baseIsFirst typeName accepted.base small
  constructor
  · exact fun τ d => ⟨d.settles_expand.ok_iff, d.settles_expand.error_iff⟩
  · intro d e expanded small
    refine ⟨agrees expanded small, ?_⟩
    intro d' e' expanded' small' ne x bytes rest packed
    exact refuses_other_count (agrees expanded small) (agrees expanded' small') small' ne packed
      rest

/-- The base of the one is its key as well; the other has no base, and a name of its own. -/
theorem based_record_is_not_its_field :
    let base : WireType := .record "Base" false (.cons "id" (.int .u16) .nil)
    let row : RecordDecl WireType := ⟨.named, "Row", .none, [],
      [⟨"base", base, [.options [.word "base", .word "primary_key"]]⟩, ⟨"v", .int .u8, []⟩]⟩
    let field : RecordDecl WireType := ⟨.named, "Field", .none,
      [.options [.text "name" "field"]], [⟨"v", .int .u8, []⟩]⟩
    let e := row.expansion "Row"
    let e' := field.expansion "field"
    let x : e.wireType.Carrier := ((258#16, ()), 7#8, ())
    row.expand = .ok e ∧ field.expand = .ok e' ∧ Agrees row e ∧
      e.wireType.pack x = .ok [2, 1, 2, 1, 7] ∧
        ∃ unread, e'.wireType.decode [2, 1, 2, 1, 7] = .error (.schemaMismatch "field" 1 2)
          unread := by
  intro base row field e e' x
  have expanded : row.expand = .ok e := rfl
  have expanded' : field.expand = .ok e' := rfl
  have packed : e.wireType.pack x = .ok [2, 1, 2, 1, 7] := (e.wireType.pack_eq_encode x).trans rfl
  obtain ⟨agrees, refuses⟩ :=
    record_declarations_and_counts_agree.2 row e expanded (by decide)
  exact ⟨expanded, expanded', agrees, packed,
    refuses field e' expanded' (by decide) (by decide) x _ [] packed⟩

end RecordExpansion
end ContractStore
