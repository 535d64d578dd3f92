import ContractStore.Bytes

/-!
Byte strings as hexadecimal text: two lowercase digits for each byte, the high half first.
-/
namespace ContractStore

namespace Text

def digitValue? (c : Char) : Option Nat :=
  if '0' ≤ c ∧ c ≤ '9' then some (c.toNat - '0'.toNat)
  else if 'a' ≤ c ∧ c ≤ 'f' then some (c.toNat - 'a'.toNat + 10)
  else none

end Text

namespace Bytes

def hexPair (b : UInt8) : List Char :=
  [Nat.digitChar (b.toNat / 16), Nat.digitChar (b.toNat % 16)]

def toHex (bs : Bytes) : String := String.ofList (bs.flatMap hexPair)

def readHex : (bytes : Bytes) → List Char → Option Bytes
  | bytes, [] => some bytes.reverse
  | bytes, high :: low :: rest => do
    let value := 16 * (← Text.digitValue? high) + (← Text.digitValue? low)
    readHex (UInt8.ofNat value :: bytes) rest
  | _, [_] => none

def ofHex? (s : String) : Option Bytes := readHex [] s.toList

end Bytes
end ContractStore
