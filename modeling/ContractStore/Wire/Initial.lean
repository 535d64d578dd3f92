import ContractStore.Wire.Schema

/-!
The value that a type starts from: zero, nothing, or the first variant. The one record that starts
from something else is the header of singletons, whose identifier is fixed.
-/
namespace ContractStore

def singletonId : BitVec 32 := 1

def singletonHeaderName : String := "singleton_record"

abbrev singletonHeader : WireType :=
  .record singletonHeaderName false (.cons "id" (.int .i32) .nil)

def freshRecord (typeName : String) : (fields : WireRow) → fields.Carrier → fields.Carrier
  | .cons _ (.int .i32) .nil, (id, ()) =>
    (if typeName = singletonHeaderName then singletonId else id, ())
  | _, values => values

mutual

def WireType.initial : (t : WireType) → t.Carrier
  | .int kind => (0 : BitVec kind.bits)
  | .float kind => (0 : BitVec kind.bits)
  | .bool => false
  | .varint => (0 : BitVec 32)
  | .string => ""
  | .name => (⟨""⟩ : Name)
  | .checksum kind => ⟨List.replicate kind.bytes (0 : UInt8), List.length_replicate⟩
  | .vec _ => []
  | .array item size => ⟨List.replicate size item.initial, List.length_replicate⟩
  | .set _ _ => SortedMap.empty
  | .map _ _ _ => SortedMap.empty
  | .tuple row => row.initial
  | .enum decl => decl.first
  | .record typeName _ fields => freshRecord typeName fields fields.initial

def WireRow.initial : (r : WireRow) → r.Carrier
  | .nil => ()
  | .cons _ type rest => (type.initial, rest.initial)

end

end ContractStore
