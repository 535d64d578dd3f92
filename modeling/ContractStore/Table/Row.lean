import ContractStore.Program.Basic
import ContractStore.Wire.Pack

/-!
Rows of a table under the bytes of their keys. What is read is unpacked, and a row that is written
is packed before the store is asked.
-/
namespace ContractStore.Row

/-- The value that stored bytes hold, nothing if nothing is stored. -/
def ofStored (type : WireType) : Option Bytes → Action (Option type.Carrier)
  | some bytes => some <$> Action.ofCodec (type.unpack bytes)
  | none => return none

def required {α : Type} (place : String) : Option α → Action α
  | some value => return value
  | none => throw (.state (.keyNotFound place))

def find (record : WireType) (table : String) (key : Bytes) : Action (Option record.Carrier) := do
  ofStored record (← Action.query table key)

def get (record : WireType) (table : String) (key : Bytes) : Action record.Carrier := do
  required table (← find record table key)

def insert (record : WireType) (table : String) (key : Bytes) (row : record.Carrier) :
    Action Unit := do
  let bytes ← Action.ofCodec (record.pack row)
  Action.insert table key bytes

def update (record : WireType) (table : String) (key : Bytes) (row : record.Carrier) :
    Action Unit := do
  let bytes ← Action.ofCodec (record.pack row)
  Action.update table key bytes

end ContractStore.Row
