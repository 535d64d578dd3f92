import ContractStore.Declaration.Record
import ContractStore.Declaration.TypeExpr

/-!
What the types in declarations stand for. A scope gives names a meaning, which may depend on
arguments; with it, a type's text becomes a wire type and a declared record becomes a record on the
wire. A record can be used in the declarations after its own.
-/
namespace ContractStore

inductive Meaning where
  | type (t : WireType)
  | record (e : RecordExpansion WireType)

namespace Meaning

def wireType : Meaning → WireType
  | type t => t
  | record e => e.wireType

end Meaning

/-- Names with their meanings, given arguments. The first entry of a name counts. -/
abbrev Scope : Type := List (String × (List WireType → Option Meaning))

namespace Scope

def find? (scope : Scope) (name : String) (args : List WireType) : Option Meaning := do
  let meaning ← scope.lookup name
  meaning args

def addType (scope : Scope) (name : String) (t : WireType) : Scope :=
  (name, fun args => if args.isEmpty then some (.type t) else none) :: scope

end Scope

namespace TypeExpr

mutual

def resolve (scope : Scope) : TypeExpr → Option WireType
  | tuple items => do
    let types ← resolveAll scope items
    return .tuple (.unlabelled types)
  | array item size => do
    let type ← resolve scope item
    return .array type (← size.toNat?)
  | path "" name args => do
    let types ← resolveAll scope args
    let meaning ← scope.find? name types
    return meaning.wireType
  | path .. => none
  | other _ => none

def resolveAll (scope : Scope) : List TypeExpr → Option (List WireType)
  | [] => some []
  | t :: rest => do return (← resolve scope t) :: (← resolveAll scope rest)

end

def record? (scope : Scope) : TypeExpr → Option (RecordExpansion WireType)
  | path "" name args => do
    let types ← resolveAll scope args
    match ← scope.find? name types with
    | .record e => return e
    | .type _ => none
  | _ => none

end TypeExpr

namespace RecordDecl

def resolve (scope : Scope) (d : RecordDecl TypeExpr) : Option (RecordDecl WireType) := do
  let fields ← d.fields.mapM fun f => do
    let type ← f.type.resolve scope
    return { name := f.name, type, attributes := f.attributes : FieldDecl WireType }
  return { d with fields }

def instantiate (scope : Scope) (d : RecordDecl TypeExpr) (args : List WireType) :
    Option (RecordExpansion WireType) := do
  if args.length ≠ d.generics.params.length then none
  let params := d.generics.params.map GenericParam.name
  let inner := (params.zip args).foldl (fun s (name, t) => s.addType name t) scope
  let resolved ← d.resolve inner
  resolved.expand.toOption

end RecordDecl

namespace Scope

def addRecord (scope : Scope) (d : RecordDecl TypeExpr) : Scope :=
  (d.name, fun args => (d.instantiate scope args).map .record) :: scope

end Scope
end ContractStore
