import ContractStore.Table.Row

/-!
Storage slots: single values under a name, beside a contract's tables. Which type a slot holds is
for its reader to know.
-/
namespace ContractStore

structure Slot where
  name : String
  deriving DecidableEq, Repr

namespace Slot

def put (s : Slot) (type : WireType) (value : type.Carrier) : Action Unit := do
  let bytes ← Action.ofCodec (type.pack value)
  Action.save s.name bytes

/-- Whether anything is stored; it need not be a value that can be unpacked. -/
def exists? (s : Slot) : Action Bool := do
  let bytes ← Action.load s.name
  return bytes.isSome

def find (s : Slot) (type : WireType) : Action (Option type.Carrier) := do
  Row.ofStored type (← Action.load s.name)

def get (s : Slot) (type : WireType) : Action type.Carrier := do
  Row.required s.name (← s.find type)

def getOrDefault (s : Slot) (type : WireType) (fallback : type.Carrier) : Action type.Carrier := do
  let value ← s.find type
  return value.getD fallback

end Slot
end ContractStore
