import ContractStore.Call.Contract
import ContractStore.Declaration.Attribute
import ContractStore.Declaration.Error
import ContractStore.Declaration.TypeExpr

/-!
Contract declarations: a block of items, of which the functions marked as methods become the methods
of a contract. As with records, the types of the parameters are a parameter.
-/
namespace ContractStore

def Receiver.isShared (r : Receiver) : Bool := r.byReference && !r.exclusive

structure FunctionDecl (τ : Type) where
  name : String
  attributes : List PlainAttribute
  receiver : Option Receiver
  params : List τ
  result : Option TypeExpr

inductive ContractItem (τ : Type) where
  | function (decl : FunctionDecl τ)
  | other

structure ContractDecl (τ : Type) where
  options : List AttributeOption
  selfType : String
  items : List (ContractItem τ)

structure ContractArm (τ : Type) where
  method : String
  args : List τ
  fallible : Bool
  deriving DecidableEq, Repr

structure ContractExpansion (τ : Type) where
  target : String
  typeName : String
  arms : List (ContractArm τ)
  functions : List (String × List String)
  deriving DecidableEq, Repr

namespace FunctionDecl
variable {τ : Type}

def isMethod (f : FunctionDecl τ) : Bool := f.attributes.any fun a => a.path == "method"

/-- Whether the function can fail: it gives nothing, or a `Result` whose value is nothing. -/
def fallible (f : FunctionDecl τ) : Except DeclarationError Bool :=
  match f.result with
  | none => .ok false
  | some (.tuple []) => .ok false
  | some (.path _ "Result" (.tuple [] :: _)) => .ok true
  | some _ => .error .methodResult

def arm (f : FunctionDecl τ) : Except DeclarationError (ContractArm τ) := do
  let fallible ← f.fallible
  if !f.receiver.any Receiver.isShared then throw .methodReceiver
  if f.params.length < 2 then throw .methodParameters
  return ⟨f.name, f.params.drop 2, fallible⟩

def remaining (f : FunctionDecl τ) : String × List String :=
  (f.name, (f.attributes.filter fun a => a.path != "method").map PlainAttribute.text)

end FunctionDecl

namespace ContractDecl
variable {τ : Type}

def typeName (d : ContractDecl τ) : Except DeclarationError String :=
  d.options.foldlM (fun _ option =>
    match option with
    | .text "name" value => .ok value
    | .literal "name" => .error .contractNameNotText
    | _ => .error .contractOption) d.selfType

def functions (d : ContractDecl τ) : List (FunctionDecl τ) :=
  d.items.filterMap fun
    | .function decl => some decl
    | .other => none

def expand (d : ContractDecl τ) : Except DeclarationError (ContractExpansion τ) := do
  let typeName ← d.typeName
  let arms ← (d.functions.filter FunctionDecl.isMethod).mapM FunctionDecl.arm
  if arms.isEmpty then throw .noMethods
  return ⟨d.selfType, typeName, arms, d.functions.map FunctionDecl.remaining⟩

end ContractDecl

/-- What a function answers behind an arm: nothing, or a result with a failure of its own kind. -/
abbrev HandlerAnswer (φ : Type) : (fallible : Bool) → Type
  | false => Unit
  | true => Except φ Unit

/-- The tail of an arm: it goes through, or it is what the function answers, with the failure of a
call for that of the function. -/
def HandlerAnswer.result {φ : Type} (into : φ → ContractError) :
    {fallible : Bool} → HandlerAnswer φ fallible → Except ContractError Unit
  | false, () => .ok ()
  | true, answer => answer.mapError into

/-- The function behind an arm. What it does to the store and the host cannot be aborted. -/
structure ContractHandler (arm : ContractArm WireType) where
  Failure : Type
  into : Failure → ContractError
  body : (WireRow.unlabelled arm.args).Carrier → CallContext →
    StateT Host Program (HandlerAnswer Failure arm.fallible)

def ContractHandler.call {arm : ContractArm WireType} (handler : ContractHandler arm)
    (args : (WireRow.unlabelled arm.args).Carrier) (ctx : CallContext) : Call Unit :=
  ExceptT.mk do
    let answer ← handler.body args ctx
    return HandlerAnswer.result handler.into answer

namespace ContractExpansion

def methodNames {τ : Type} (e : ContractExpansion τ) : List String := e.arms.map ContractArm.method

def contract (e : ContractExpansion WireType)
    (handler : (arm : ContractArm WireType) → ContractHandler arm) : Contract where
  typeName := e.typeName
  methods := e.arms.map fun arm => ⟨arm.method, .unlabelled arm.args, (handler arm).call⟩

end ContractExpansion
end ContractStore
