import ContractStore.Declaration.Scope
import ContractStore.Wire.Initial

/-!
The types that every declaration can use: numbers, texts, checksums and containers, and the header
that singleton records extend.
-/
namespace ContractStore.Scope

def integers : List IntKind := [.u8, .u16, .u32, .u64, .u128, .i8, .i16, .i32, .i64, .i128]

def simple : List (String × WireType) :=
  integers.map (fun kind => (kind.name, .int kind)) ++
    [("f32", .float .single), ("f64", .float .double), ("bool", .bool), ("UnsignedInt", .varint),
      ("String", .string), ("Name", .name)] ++
    [ChecksumKind.bits160, .bits256, .bits512].map fun kind => (kind.name, .checksum kind)

def unary (make : WireType → WireType) : List WireType → Option Meaning
  | [t] => some (.type (make t))
  | _ => none

def binary (make : WireType → WireType → WireType) : List WireType → Option Meaning
  | [k, v] => some (.type (make k v))
  | _ => none

def containers : Scope :=
  [("Vec", unary .vec), ("BTreeSet", unary (.set .byValue)), ("HashSet", unary (.set .byBytes)),
    ("BTreeMap", binary (.map .byValue)), ("HashMap", binary (.map .byBytes))]

def headerDecl : RecordDecl TypeExpr where
  kind := .named
  name := "SingletonRecord"
  generics := .none
  attributes := [.options [.text "name" singletonHeaderName]]
  fields := [⟨"id", .path "" IntKind.i32.name [], []⟩]

def standard : Scope :=
  (simple.foldl (fun scope (name, t) => scope.addType name t) containers).addRecord headerDecl

/-- The scope with an enumeration; its variants have to stand for different numbers. -/
def addEnum (scope : Scope) (name : String) (repr : IntKind) (variants : List (String × Int)) :
    Option Scope := do
  let patterns ← variants.mapM fun (label, value) => do return (label, ← repr.ofInt? value)
  let decl ← EnumDecl.ofList? name repr patterns
  return scope.addType name (.enum decl)

end ContractStore.Scope
