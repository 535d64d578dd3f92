import ContractStore.Declaration.Attribute
import ContractStore.Declaration.Error
import ContractStore.Declaration.Generics
import ContractStore.Wire.WireType

/-!
Record declarations and what they expand to. The types of the fields are a parameter: a declaration
over wire types expands to a record on the wire, one over source text to the text of the expansion.
-/
namespace ContractStore

inductive DeclaredKind where
  | named | tuple | unit | enum | union
  deriving DecidableEq, Repr

structure FieldDecl (τ : Type) where
  name : String
  type : τ
  attributes : List Attribute
  deriving Repr

structure RecordDecl (τ : Type) where
  kind : DeclaredKind
  name : String
  generics : Generics
  attributes : List Attribute
  fields : List (FieldDecl τ)
  deriving Repr

structure RecordExpansion (τ : Type) where
  target : String
  typeName : String
  fields : List (String × τ)
  base : Option (String × τ)
  key : Option (String × τ)
  deriving Repr

namespace RecordOption

def typeName : RecordOption → Except DeclarationError String
  | named "name" (.text value) => .ok value
  | named "name" .nothing => .error .missingEquals
  | named "name" (.stray cause) => .error cause
  | named _ _ => .error .recordOption
  | unread cause => .error cause

/-- An option of a field is one of two marks, and nothing follows it. -/
def checkMark : RecordOption → Except DeclarationError Unit
  | named "base" .nothing => .ok ()
  | named "primary_key" .nothing => .ok ()
  | named "base" _ => .error .missingComma
  | named "primary_key" _ => .error .missingComma
  | named _ _ => .error .fieldOption
  | unread cause => .error cause

end RecordOption

namespace RecordDecl
variable {τ : Type}

def typeName (d : RecordDecl τ) : Except DeclarationError String :=
  (Attribute.allOptions d.attributes).foldlM (fun _ option => option.typeName) d.name

def checkKind (d : RecordDecl τ) : Except DeclarationError Unit :=
  match d.kind with
  | .named => .ok ()
  | .tuple | .unit => .error .recordUnnamedFields
  | .enum | .union => .error .recordNotStruct

end RecordDecl

namespace FieldDecl
variable {τ : Type}

def nameOfSource (source : String) : String :=
  match (Token.ofSource? source).bind List.getLast? with
  | some (.word name) => name
  | _ => source

def checkOptions (f : FieldDecl τ) : Except DeclarationError Unit :=
  (Attribute.allOptions f.attributes).forM RecordOption.checkMark

def isBase (f : FieldDecl τ) : Bool :=
  (Attribute.allOptions f.attributes).contains (.named "base" .nothing)

def isKey (f : FieldDecl τ) : Bool :=
  (Attribute.allOptions f.attributes).contains (.named "primary_key" .nothing)

def labelled (f : FieldDecl τ) : String × τ := (f.name, f.type)

end FieldDecl

namespace RecordDecl
variable {τ : Type}

/-- The checks in the order in which they are made, and the expansion if all hold. -/
def expand (d : RecordDecl τ) : Except DeclarationError (RecordExpansion τ) := do
  let typeName ← d.typeName
  d.checkKind
  d.fields.forM FieldDecl.checkOptions
  if (d.fields.drop 1).any FieldDecl.isBase then throw .baseNotFirst
  if 1 < (d.fields.filter FieldDecl.isKey).length then throw .severalKeys
  return {
    target := d.name ++ d.generics.arguments
    typeName
    fields := d.fields.map FieldDecl.labelled
    base := (d.fields.find? FieldDecl.isBase).map FieldDecl.labelled
    key := (d.fields.find? FieldDecl.isKey).map FieldDecl.labelled }

end RecordDecl

namespace RecordExpansion
variable {τ : Type}

def hasBase (e : RecordExpansion τ) : Bool := e.base.isSome

def ownNames (e : RecordExpansion τ) : List String :=
  (if e.hasBase then e.fields.drop 1 else e.fields).map Prod.fst

def wireType (e : RecordExpansion WireType) : WireType :=
  .record e.typeName e.hasBase (.ofList e.fields)

end RecordExpansion
end ContractStore
