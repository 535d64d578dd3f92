import ContractStore.Name
import ContractStore.Program.Basic
import ContractStore.Store.Basic
import ContractStore.Store.KeyLayout

/-!
A contract's own part of a store. Its calls reach the rows and slots under its owner and name, and
no others, apart from reads of other contracts' tables. A value longer than the record limit is
refused before anything else is looked at.
-/
namespace ContractStore

def defaultRecordLimit : Nat := 256 * 1024

structure Namespace where
  owner : String
  contract : String
  recordLimit : Nat
  deriving DecidableEq, Repr

namespace Namespace
variable {σ : Type}

def ofName (contract : Name) (recordLimit : Nat) : Except StateError Namespace :=
  if contract.isContract then .ok ⟨contract.account, contract.contract, recordLimit⟩
  else .error (.notAContract contract.text)

def checkSize (n : Namespace) (value : Bytes) : Except StateError Unit :=
  if n.recordLimit < value.length then .error (.valueTooLarge n.recordLimit value.length)
  else .ok ()

def rowKey (n : Namespace) (table : String) (key : Bytes) : Except StateError Bytes :=
  tableKey n.owner n.contract table key

def slotKey (n : Namespace) (slot : String) : Except StateError Bytes :=
  storageKey n.owner n.contract slot

/-- A change whose result is the new store; where it fails the store stays. -/
def change (result : Except StateError σ) (store : σ) : Except StateError Unit × σ :=
  match result with
  | .ok store => (.ok (), store)
  | .error cause => (.error cause, store)

def putRow [Store σ] (n : Namespace) (table : String) (key record : Bytes) (store : σ) :
    Except StateError σ := do
  n.checkSize record
  let raw ← n.rowKey table key
  Store.insert store raw record

def answer [Store σ] (n : Namespace) : (request : StoreCall) → σ → request.Reply × σ
  | .query table key, store => (n.rowKey table key >>= Store.get store, store)
  | .insert table key record, store => change (n.putRow table key record store) store
  | .update table key record, store => change (n.putRow table key record store) store
  | .delete table key, store => change (n.rowKey table key >>= Store.delete store) store
  | .queryExternal owner contract table key, store =>
    (tableKey owner contract table key >>= Store.get store, store)
  | .load slot, store => (n.slotKey slot >>= Store.get store, store)
  | .save slot value, store =>
    let result := do
      n.checkSize value
      let raw ← n.slotKey slot
      Store.insert store raw value
    change result store

def run [Store σ] {α : Type} (n : Namespace) (program : Program α) (store : σ) : α × σ :=
  program.run n.answer store

end Namespace
end ContractStore
