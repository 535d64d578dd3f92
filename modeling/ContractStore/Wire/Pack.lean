import ContractStore.Wire.Decode
import ContractStore.Wire.Encode

/-!
Packing a value into bytes of its own, into a given buffer, and back. Packing runs the value's
script twice, first on a counter and then on a buffer, and refuses if the two runs disagree.
-/
namespace ContractStore

/-- Measures with the first script, writes the second, and fails unless both have one size. -/
def packTwice (measured written : Script) : Except CodecError Bytes := do
  let size ← measured.measure
  match written.run (GrowableBuffer.withCapacity size) with
  | (.error cause, _) => .error cause
  | (.ok (), buffer) =>
    let got := WriteTarget.tell buffer
    if got = size then return buffer.bytes
    let expected ← Varint.countOf size
    let got ← Varint.countOf got
    throw (.schemaMismatch "pack size" expected got)

namespace FloatKind

def magnitude (k : FloatKind) (pattern : BitVec k.bits) : BitVec k.bits :=
  pattern &&& BitVec.intMax k.bits

def infinity (k : FloatKind) : BitVec k.bits :=
  BitVec.intMax k.bits >>> k.fractionBits <<< k.fractionBits

/-- Equality of the numbers: zero has two patterns, and not-a-number equals nothing. -/
def agree (k : FloatKind) (a b : BitVec k.bits) : Bool :=
  k.magnitude a ≤ k.infinity && k.magnitude b ≤ k.infinity &&
    (a == b || k.magnitude a == 0 && k.magnitude b == 0)

end FloatKind

mutual

/-- Equality of values as the program that holds them sees it: floats are compared as numbers. -/
def WireType.agree : (t : WireType) → t.Carrier → t.Carrier → Bool
  | .float kind, a, b => kind.agree a b
  | .vec item, xs, ys =>
    List.length xs == List.length ys && (List.zip xs ys).all fun (x, y) => item.agree x y
  | .array item _, xs, ys => (xs.1.zip ys.1).all fun (x, y) => item.agree x y
  | .map _ key value, xs, ys =>
    xs.size == ys.size && (xs.entries.zip ys.entries).all fun (x, y) =>
      key.cmp x.1 y.1 == .eq && value.agree x.2 y.2
  | .tuple row, xs, ys => row.agree xs ys
  | .record _ _ fields, xs, ys => fields.agree xs ys
  | .int kind, a, b => (WireType.int kind).cmp a b == .eq
  | .bool, a, b => WireType.bool.cmp a b == .eq
  | .varint, a, b => WireType.varint.cmp a b == .eq
  | .string, a, b => WireType.string.cmp a b == .eq
  | .name, a, b => WireType.name.cmp a b == .eq
  | .checksum kind, a, b => (WireType.checksum kind).cmp a b == .eq
  | .set order item, a, b => (WireType.set order item).cmp a b == .eq
  | .enum decl, a, b => (WireType.enum decl).cmp a b == .eq

def WireRow.agree : (r : WireRow) → r.Carrier → r.Carrier → Bool
  | .nil, _, _ => true
  | .cons _ type rest, (x, more), (y, more') => type.agree x y && rest.agree more more'

end

namespace WireType

def packSize (t : WireType) (value : t.Carrier) : Except CodecError Nat := (t.script value).measure

def pack (t : WireType) (value : t.Carrier) : Except CodecError Bytes :=
  let script := t.script value
  packTwice script script

/-- Packs into `out` from its start; gives the number of bytes written, and `out` as it then is,
also where there was too little room. -/
def packInto (t : WireType) (value : t.Carrier) (out : Bytes) : Except CodecError Nat × Bytes :=
  match (t.script value).run (BoundedBuffer.ofBytes out) with
  | (.ok (), buffer) => (.ok (WriteTarget.tell buffer), buffer.bytes)
  | (.error cause, buffer) => (.error cause, buffer.bytes)

def unpack (t : WireType) (bytes : Bytes) : Except CodecError t.Carrier := t.decode.whole bytes

end WireType

inductive RoundTripError where
  | codec (cause : CodecError)
  | missized (size length : Nat)
  | changed
  deriving DecidableEq, Repr

/-- The packed form of a value that comes back unchanged from it. -/
def WireType.roundTrip (t : WireType) (value : t.Carrier) : Except RoundTripError Bytes := do
  let bytes ← (t.pack value).mapError .codec
  let size ← (t.packSize value).mapError .codec
  if size ≠ bytes.length then throw (.missized size bytes.length)
  let back ← (t.unpack bytes).mapError .codec
  if t.agree back value then return bytes else throw .changed

end ContractStore
