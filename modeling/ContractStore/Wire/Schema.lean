import ContractStore.Wire.Pack

/-!
Records as tables see them. A schema is a record type together with the field that keys its rows; a
member is a field's place in a row, with the field's type. `get_set` and `set_get` are the laws of
reading and writing a field.
-/
namespace ContractStore

inductive Member : WireRow → WireType → Type where
  | here {label : String} {type : WireType} {rest : WireRow} : Member (.cons label type rest) type
  | there {label : String} {type found : WireType} {rest : WireRow} :
    Member rest found → Member (.cons label type rest) found

namespace Member

def ofLabel? : (row : WireRow) → (label : String) → Option ((type : WireType) × Member row type)
  | .nil, _ => none
  | .cons label type rest, wanted =>
    if label = wanted then some ⟨type, here⟩
    else (ofLabel? rest wanted).map fun ⟨found, member⟩ => ⟨found, there member⟩

def get : {row : WireRow} → {type : WireType} → Member row type → row.Carrier → type.Carrier
  | _, _, here, (x, _) => x
  | _, _, there m, (_, more) => m.get more

def set : {row : WireRow} → {type : WireType} → Member row type → type.Carrier → row.Carrier →
    row.Carrier
  | _, _, here, x, (_, more) => (x, more)
  | _, _, there m, x, (y, more) => (y, m.set x more)

theorem get_set {row : WireRow} {type : WireType} (m : Member row type) (x : type.Carrier)
    (values : row.Carrier) : m.get (m.set x values) = x := by
  induction m with
  | here => rfl
  | there m ih => exact ih x values.2

theorem set_get {row : WireRow} {type : WireType} (m : Member row type) (values : row.Carrier) :
    m.set (m.get values) values = values := by
  induction m with
  | here => rfl
  | there m ih => exact Prod.ext rfl (ih values.2)

end Member

structure Schema where
  typeName : String
  hasBase : Bool
  fields : WireRow
  keyType : WireType
  key : Member fields keyType

namespace Schema

abbrev type (s : Schema) : WireType := .record s.typeName s.hasBase s.fields

abbrev Record (s : Schema) : Type := s.type.Carrier

abbrev Key (s : Schema) : Type := s.keyType.Carrier

def keyOf (s : Schema) (record : s.Record) : s.Key := s.key.get record

end Schema
end ContractStore
