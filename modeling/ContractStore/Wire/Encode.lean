import ContractStore.Wire.Domain
import ContractStore.Wire.Varint

/-!
Encoding. `WireType.script` lists the write operations of a value. Fixed-width numbers are raw
little-endian bytes; texts and containers carry a count; map pairs, tuples, arrays, checksums and
records carry the count that their type fixes.

A container with hashed entries is visited in an order that the type does not determine. The order
is a parameter, free at each place in the value, and the entries are packed apart and sorted, so the
bytes do not depend on it.
-/
namespace ContractStore

/-- The order in which the entries at a place are visited; the place is the path of indices to it,
innermost first. -/
structure Visit where
  arrange : List Nat → {α : Type} → List α → List α
  perm : ∀ (place : List Nat) {α : Type} (entries : List α), (arrange place entries).Perm entries

namespace Visit

def stored : Visit := ⟨fun _ _ entries => entries, fun _ _ _ => .refl _⟩

end Visit

namespace Script

def ofText (s : String) : Script :=
  let utf8 := Bytes.ofString s
  Varint.countScript utf8.length ++ if utf8.isEmpty then [] else write utf8

def counted {α : Type} (items : List α) (script : Nat → α → Script) : Script :=
  Varint.countScript items.length ++ items.zipIdx.flatMap fun (item, index) => script index item

def bytesLE (a b : Bytes) : Bool := (compare a b).isLE

/-- The number of items, then each packed apart and written in ascending order of its bytes. A
failure to pack an item comes before the count. -/
def sorted {α : Type} (items : List α) (script : Nat → α → Script) : Script :=
  match items.zipIdx.mapM fun (item, index) => (script index item).bytes with
  | .ok packed => Varint.countScript packed.length ++ (packed.mergeSort bytesLE).flatMap write
  | .error cause => fail cause

end Script

def mapPairArity : Nat := 2

mutual

def WireType.scriptAt (visit : Visit) (place : List Nat) : (t : WireType) → t.Carrier → Script
  | .int kind, pattern => Script.write (Bytes.ofNatLE kind.bytes pattern.toNat)
  | .float kind, pattern => Script.write (Bytes.ofNatLE kind.bytes pattern.toNat)
  | .bool, (b : Bool) => Script.put (if b then 1 else 0)
  | .varint, n => Varint.script n.toNat
  | .string, s => Script.ofText s
  | .name, n => Script.ofText n.text
  | .checksum kind, bytes => Varint.script kind.bytes ++ Script.write bytes.1
  | .vec item, items =>
    Script.counted items fun i x => item.scriptAt visit (i :: place) x
  | .array item _, items =>
    Script.counted items.1 fun i x => item.scriptAt visit (i :: place) x
  | .set .byValue item, items =>
    Script.counted items.keys fun i x => item.scriptAt visit (i :: place) x
  | .set .byBytes item, items =>
    Script.sorted (visit.arrange place items.keys) fun i x => item.scriptAt visit (i :: place) x
  | .map .byValue key value, pairs =>
    Script.counted pairs.entries fun i (k, v) =>
      Varint.script mapPairArity ++
        (key.scriptAt visit (0 :: i :: place) k ++ value.scriptAt visit (1 :: i :: place) v)
  | .map .byBytes key value, pairs =>
    Script.sorted (visit.arrange place pairs.entries) fun i (k, v) =>
      Varint.script mapPairArity ++
        (key.scriptAt visit (0 :: i :: place) k ++ value.scriptAt visit (1 :: i :: place) v)
  | .tuple row, items => Varint.countScript row.length ++ row.scriptAt visit place 0 items
  | .enum decl, v => Script.write (Bytes.ofNatLE decl.repr.bytes (decl.pattern v).toNat)
  | .record _ hasBase fields, values =>
    Varint.countScript (fields.wireCount hasBase) ++ fields.scriptAt visit place 0 values

def WireRow.scriptAt (visit : Visit) (place : List Nat) (index : Nat) :
    (r : WireRow) → r.Carrier → Script
  | .nil, () => []
  | .cons _ type rest, (x, more) =>
    type.scriptAt visit (index :: place) x ++ rest.scriptAt visit place (index + 1) more

end

def WireType.script (t : WireType) (value : t.Carrier) : Script := t.scriptAt Visit.stored [] value

end ContractStore
