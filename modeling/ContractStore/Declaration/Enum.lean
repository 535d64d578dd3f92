import ContractStore.Declaration.Attribute
import ContractStore.Declaration.Error
import ContractStore.Wire.WireType

/-!
Enumeration declarations. The representation is the last integer type among the `repr` attributes;
it is looked for before anything else is checked.
-/
namespace ContractStore

structure VariantDecl where
  name : String
  carriesFields : Bool
  deriving DecidableEq, Repr

structure EnumDeclaration where
  isEnum : Bool
  name : String
  attributes : List PlainAttribute
  variants : List VariantDecl
  deriving Repr

structure EnumExpansion where
  name : String
  repr : IntKind
  variants : List String
  deriving DecidableEq, Repr

namespace EnumDeclaration

def reprs : List IntKind := [.u8, .u16, .u32, .u64, .i8, .i16, .i32, .i64]

def reprOf? (name : String) : Option IntKind := reprs.find? fun kind => kind.name == name

def repr? (d : EnumDeclaration) : Option IntKind :=
  (d.attributes.filterMap fun a =>
    if a.path == "repr" then a.argument.bind reprOf? else none).getLast?

def expand (d : EnumDeclaration) : Except DeclarationError EnumExpansion :=
  match d.repr? with
  | none => .error .enumRepr
  | some repr =>
    if !d.isEnum then .error .enumNotEnum
    else if d.variants.any VariantDecl.carriesFields then .error .variantFields
    else .ok ⟨d.name, repr, d.variants.map VariantDecl.name⟩

end EnumDeclaration
end ContractStore
