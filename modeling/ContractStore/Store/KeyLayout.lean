import ContractStore.Wire.Encode

/-!
Where a contract's data lies in the flat key space. A raw key is one byte for the kind of data, then
the owner's, the contract's and the table's or slot's name as packed texts; a row key follows
unframed. A name too long to be packed has no raw key.
-/
namespace ContractStore

inductive KeySpace where
  | table | storage
  deriving DecidableEq, Repr

namespace KeySpace

def marker : KeySpace → UInt8
  | table => 1
  | storage => 2

def place (space : KeySpace) (owner contract name : String) : Except StateError Bytes :=
  let script := Script.write [space.marker] ++
    (Script.ofText owner ++ (Script.ofText contract ++ Script.ofText name))
  script.bytes.mapError fun cause => .backend cause.message

end KeySpace

def tableKey (owner contract table : String) (key : Bytes) : Except StateError Bytes := do
  let place ← KeySpace.table.place owner contract table
  return place ++ key

def storageKey (owner contract slot : String) : Except StateError Bytes :=
  KeySpace.storage.place owner contract slot

end ContractStore
