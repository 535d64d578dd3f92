import ContractStore.Text.Hex
import ContractStore.Wire.Initial
import ContractStore.Wire.Pack

/-!
Values as plain data, for tools that do not know their types. Integers of more than 32 bits are
decimal texts, because not every tool can hold them as numbers; floats are their bit patterns, and
floats and checksums are hexadecimal texts. Entries that are packed in the order of their bytes are
shown in that order too.
-/
namespace ContractStore

inductive Datum where
  | bool (b : Bool)
  | number (n : Int)
  | text (s : String)
  | list (items : List Datum)
  | fields (entries : List (String × Datum))
  deriving Inhabited

namespace Datum

def items? : Datum → Option (List Datum)
  | list items => some items
  | _ => none

def text? : Datum → Option String
  | text s => some s
  | _ => none

def bool? : Datum → Option Bool
  | bool b => some b
  | _ => none

def int? : Datum → Option Int
  | number n => some n
  | text s => s.toInt?
  | _ => none

def hex? (d : Datum) : Option Bytes := d.text?.bind Bytes.ofHex?

def field? (label : String) : Datum → Option Datum
  | fields entries => entries.lookup label
  | _ => none

def ofInt (kind : IntKind) (n : Int) : Datum :=
  if kind.bytes ≤ 4 then number n else text (toString n)

def ofFloat (kind : FloatKind) (pattern : BitVec kind.bits) : Datum :=
  text ("0x" ++ Bytes.toHex (Bytes.ofNatLE kind.bytes pattern.toNat).reverse)

def float? (kind : FloatKind) (d : Datum) : Option (BitVec kind.bits) := do
  match (← d.text?).toList with
  | '0' :: 'x' :: digits =>
    let bytes ← Bytes.readHex [] digits
    return BitVec.ofNat kind.bits (Bytes.toNatLE bytes.reverse)
  | _ => none

/-- The data in ascending order of the bytes they come with. -/
def sorted (entries : List (Except CodecError Bytes × Datum)) : Datum :=
  let keyed := entries.map fun (packed, d) => (packed.toOption.getD [], d)
  list ((keyed.mergeSort fun a b => (compare a.1 b.1).isLE).map Prod.snd)

def sized? {α : Type} (n : Nat) (xs : List α) : Option { xs : List α // xs.length = n } :=
  if h : xs.length = n then some ⟨xs, h⟩ else none

end Datum

mutual

def WireType.toDatum : (t : WireType) → t.Carrier → Datum
  | .int kind, pattern => .ofInt kind (kind.value pattern)
  | .float kind, pattern => .ofFloat kind pattern
  | .bool, (b : Bool) => .bool b
  | .varint, n => .number n.toNat
  | .string, s => .text s
  | .name, n => .text n.text
  | .checksum _, bytes => .text (Bytes.toHex bytes.1)
  | .vec item, xs => .list (List.map item.toDatum xs)
  | .array item _, xs => .list (xs.1.map item.toDatum)
  | .set .byValue item, xs => .list (xs.keys.map item.toDatum)
  | .set .byBytes item, xs => .sorted (xs.keys.map fun x => (item.pack x, item.toDatum x))
  | .map .byValue key value, pairs =>
    .list (pairs.entries.map fun (k, v) => .list [key.toDatum k, value.toDatum v])
  | .map .byBytes key value, pairs =>
    .sorted (pairs.entries.map fun (k, v) =>
      (key.pack k, .list [key.toDatum k, value.toDatum v]))
  | .tuple row, xs => .list ((row.toData xs).map Prod.snd)
  | .enum decl, v => .text (decl.label v)
  | .record _ _ fields, xs => .fields (fields.toData xs)

def WireRow.toData : (r : WireRow) → r.Carrier → List (String × Datum)
  | .nil, () => []
  | .cons label type rest, (x, more) => (label, type.toDatum x) :: rest.toData more

end

mutual

def WireType.ofDatum? : (t : WireType) → Datum → Option t.Carrier
  | .int kind, d => do kind.ofInt? (← d.int?)
  | .float kind, d => d.float? kind
  | .bool, d => d.bool?
  | .varint, d => do IntKind.u32.ofInt? (← d.int?)
  | .string, d => d.text?
  | .name, d => do return Name.mk (← d.text?)
  | .checksum kind, d => do Datum.sized? kind.bytes (← d.hex?)
  | .vec item, d => do (← d.items?).mapM item.ofDatum?
  | .array item size, d => do Datum.sized? size (← (← d.items?).mapM item.ofDatum?)
  | .set _ item, d => do
    let xs ← (← d.items?).mapM item.ofDatum?
    return SortedMap.ofList (xs.map fun x => (x, ()))
  | .map _ key value, d => do
    let pairs ← (← d.items?).mapM fun pair => do
      match ← pair.items? with
      | [k, v] => return (← key.ofDatum? k, ← value.ofDatum? v)
      | _ => none
    return SortedMap.ofList pairs
  | .tuple row, d => do row.ofData? (← d.items?)
  | .enum decl, d => do decl.ofLabel? (← d.text?)
  | .record typeName hasBase fields, d =>
    fields.update? d (WireType.initial (.record typeName hasBase fields))

def WireRow.ofData? : (r : WireRow) → List Datum → Option r.Carrier
  | .nil, [] => some ()
  | .cons _ type rest, d :: more => do return (← type.ofDatum? d, ← rest.ofData? more)
  | _, _ => none

def WireRow.update? : (r : WireRow) → (d : Datum) → r.Carrier → Option r.Carrier
  | .nil, _, () => some ()
  | .cons label type rest, d, (current, more) => do
    let value ← match d.field? label with
      | some given => type.ofDatum? given
      | none => some current
    return (value, ← rest.update? d more)

end

def WireType.update? : (t : WireType) → (d : Datum) → t.Carrier → Option t.Carrier
  | .record _ _ fields, d, values => fields.update? d values
  | _, _, _ => none

end ContractStore
