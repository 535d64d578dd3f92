import ContractStore.Wire.Domain
import ContractStore.Wire.Varint

/-!
Decoding. The count that a type fixes is checked before anything behind it is read. Sets and maps
take their entries in any order and with repetitions: an element counts once, and of the pairs with
one key the last wins.
-/
namespace ContractStore

namespace Reader

def text : Reader String := do
  let length ← Varint.read
  let utf8 ← read length
  match Bytes.toString? utf8 with
  | some s => return s
  | none => throw .invalidUtf8

def bits (bytes : Nat) : Reader (BitVec (8 * bytes)) := do
  let raw ← read bytes
  return BitVec.ofNat (8 * bytes) raw.toNatLE

def counted (item : Reader α) : Reader (List α) := do
  let count ← Varint.read
  repeated item count

end Reader

mutual

def WireType.decode : (t : WireType) → Reader t.Carrier
  | .int kind => Reader.bits kind.bytes
  | .float kind => Reader.bits kind.bytes
  | .bool => do
    let byte ← Reader.get
    return byte != 0
  | .varint => do
    let n ← Varint.read
    return BitVec.ofNat 32 n
  | .string => Reader.text
  | .name => do
    let s ← Reader.text
    return ⟨s⟩
  | .checksum kind => do
    Reader.expectCount kind.name kind.bytes
    Reader.raw kind.bytes
  | .vec item => Reader.counted item.decode
  | .array item size => do
    Reader.expectSize "fixed array" size
    Reader.replicated item.decode size
  | .set _ item => do
    let items ← Reader.counted item.decode
    return SortedMap.ofList (items.map fun x => (x, ()))
  | .map _ key value => do
    let pairs ← Reader.counted do
      Reader.expectCount "map pair" 2
      let k ← key.decode
      let v ← value.decode
      return (k, v)
    return SortedMap.ofList pairs
  | .tuple row => do
    Reader.expectSize "tuple" row.length
    row.decode
  | .enum decl => do
    let pattern ← Reader.bits decl.repr.bytes
    match decl.ofPattern? pattern with
    | some v => return v
    | none => throw (.invalidDiscriminant decl.name (decl.repr.value pattern))
  | .record typeName hasBase fields => do
    Reader.expectSize typeName (fields.wireCount hasBase)
    fields.decode

def WireRow.decode : (r : WireRow) → Reader r.Carrier
  | .nil => return ()
  | .cons _ type rest => do
    let x ← type.decode
    let more ← rest.decode
    return (x, more)

end

end ContractStore
