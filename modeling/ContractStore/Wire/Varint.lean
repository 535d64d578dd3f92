import ContractStore.Stream.Reader
import ContractStore.Stream.Script

/-!
Counts on the wire: 32-bit numbers in groups of seven bits, lowest group first, every byte but the
last with its high bit set. Writing never spends a group that it does not need; reading accepts
longer forms of up to five bytes, as long as the value fits.
-/
namespace ContractStore.Varint

def bound : Nat := 0x100000000

def maxGroups : Nat := 5

def groups : (more n : Nat) → Bytes
  | 0, n => [UInt8.ofNat n]
  | more + 1, n =>
    if n < 128 then [UInt8.ofNat n] else UInt8.ofNat (n % 128 + 128) :: groups more (n / 128)

def encode (n : Nat) : Bytes := groups (maxGroups - 1) n

def encodedLen (n : Nat) : Nat :=
  if n < 0x80 then 1
  else if n < 0x4000 then 2
  else if n < 0x200000 then 3
  else if n < 0x10000000 then 4
  else 5

/-- Reads up to `left` further groups on top of `value`; the next group is worth `weight`. The value
is checked before the high bit, so a value that is too large is reported even if a byte follows. -/
def readGroups : (left weight value : Nat) → Reader Nat
  | 0, _, _ => throw .varintOverflow
  | left + 1, weight, value => do
    let byte ← Reader.get
    let value := value + byte.toNat % 128 * weight
    if bound ≤ value then throw .varintOverflow
    else if byte.toNat < 128 then return value
    else readGroups left (weight * 128) value

def read : Reader Nat := readGroups maxGroups 1 0

def decode (bytes : Bytes) : Except CodecError (Nat × Nat) :=
  match read bytes with
  | .ok value rest => .ok (value, bytes.length - rest.length)
  | .error cause _ => .error cause

def countOf (length : Nat) : Except CodecError Nat :=
  if length < bound then .ok length else .error .varintOverflow

def script (n : Nat) : Script := (encode n).map fun byte => .ok (.put byte)

def countScript (length : Nat) : Script :=
  match countOf length with
  | .ok count => script count
  | .error cause => Script.fail cause

end ContractStore.Varint

namespace ContractStore.Reader

def expectCount (what : String) (expected : Nat) : Reader Unit := do
  let got ← Varint.read
  if got = expected then return () else throw (.schemaMismatch what expected got)

/-- Reads the count of a shape of fixed size; no count can agree with a size past 32 bits. -/
def expectSize (what : String) (size : Nat) : Reader Unit := do
  let expected ← ofExcept (Varint.countOf size)
  expectCount what expected

end ContractStore.Reader
