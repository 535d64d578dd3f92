import ContractStore.Program.Namespace
import ContractStore.Proofs.Store.KeyLayout
import ContractStore.Table.Row

/-!
Actions as a contract performs them. An action runs its steps in order and stops at the first that
fails (`perform_bind`); on a memory store each store call reads or writes at one raw key, and fails
only where the names have none or where a value is too long.
-/
namespace ContractStore

def Name.home (contract : Name) (limit : Nat) : Namespace :=
  ⟨contract.account, contract.contract, limit⟩

namespace Namespace
variable {α β : Type}

theorem ofName_eq_ok {name : Name} {limit : Nat} {n : Namespace} (h : ofName name limit = .ok n) :
    name.isContract = true ∧ n = name.home limit := by
  unfold ofName at h
  split at h
  · rename_i contract
    cases h
    exact ⟨contract, rfl⟩
  · cases h

def perform {σ : Type} [Store σ] (n : Namespace) (action : Action α) (store : σ) :
    Except ContractError α × σ :=
  n.run action.run store

section Steps
variable {σ : Type} [Store σ] (n : Namespace) (store : σ)

theorem perform_ofCodec (result : Except CodecError α) :
    n.perform (Action.ofCodec result) store = (result.mapError .codec, store) := rfl

theorem perform_bind (action : Action α) (next : α → Action β) :
    n.perform (action >>= next) store =
      match n.perform action store with
      | (.ok x, after) => n.perform (next x) after
      | (.error cause, after) => (.error cause, after) := by
  unfold perform run
  change (Program.bind action.run _).run n.answer store = _
  rw [Program.run_bind]
  cases action.run.run n.answer store with
  | mk result after => cases result <;> rfl

/-- Two contracts that get the same from a first step, and go on alike, get the same in the end. -/
theorem perform_bind_congr {n n' : Namespace} {first first' : Action α} {next next' : α → Action β}
    (same : n.perform first store = n'.perform first' store)
    (later : ∀ x (after : σ), n.perform (next x) after = n'.perform (next' x) after) :
    n.perform (first >>= next) store = n'.perform (first' >>= next') store := by
  rw [perform_bind, perform_bind, same]
  cases n'.perform first' store with
  | mk result after =>
    cases result with
    | error cause => rfl
    | ok x => exact later x after

theorem perform_bind_eq_ok {n : Namespace} {store after : σ} {action : Action α}
    {next : α → Action β} {y : β} (h : n.perform (action >>= next) store = (.ok y, after)) :
    ∃ x between, n.perform action store = (.ok x, between) ∧
      n.perform (next x) between = (.ok y, after) := by
  rw [perform_bind] at h
  generalize n.perform action store = first at h
  obtain ⟨result, between⟩ := first
  cases result with
  | error cause => cases h
  | ok x => exact ⟨x, between, rfl, h⟩

theorem perform_ofCodec_eq_ok {n : Namespace} {store after : σ} {result : Except CodecError α}
    {x : α} (h : n.perform (Action.ofCodec result) store = (.ok x, after)) :
    result = .ok x ∧ after = store := by
  rw [perform_ofCodec] at h
  cases result with
  | error cause => cases h
  | ok y =>
    cases h
    exact ⟨rfl, rfl⟩

end Steps

section Memory
variable (n : Namespace) (store : MemoryStore) (table slot : String) (key record : Bytes)

def write (place : Except StateError Bytes) (value : Bytes) :
    Except ContractError Unit × MemoryStore :=
  if n.recordLimit < value.length then
    (.error (.state (.valueTooLarge n.recordLimit value.length)), store)
  else
    match place with
    | .ok raw => (.ok (), store.insert raw value)
    | .error cause => (.error (.state cause), store)

theorem perform_query :
    n.perform (Action.query table key) store =
      (((n.rowKey table key).map store.find?).mapError .state, store) := by
  change ((n.rowKey table key >>= Store.get store).mapError ContractError.state, store) = _
  cases n.rowKey table key <;> rfl

theorem perform_load :
    n.perform (Action.load slot) store =
      (((n.slotKey slot).map store.find?).mapError .state, store) := by
  change ((n.slotKey slot >>= Store.get store).mapError ContractError.state, store) = _
  cases n.slotKey slot <;> rfl

theorem mapError_change (place : Except StateError Bytes) (value : Bytes) :
    Prod.map (Except.mapError ContractError.state) id (change (do
      n.checkSize value
      let raw ← place
      Store.insert store raw value) store) = n.write store place value := by
  unfold write checkSize
  split
  · rfl
  · cases place <;> rfl

theorem perform_insert :
    n.perform (Action.insert table key record) store =
      n.write store (n.rowKey table key) record :=
  n.mapError_change store (n.rowKey table key) record

theorem perform_update :
    n.perform (Action.update table key record) store =
      n.write store (n.rowKey table key) record :=
  n.mapError_change store (n.rowKey table key) record

theorem perform_save :
    n.perform (Action.save slot record) store = n.write store (n.slotKey slot) record :=
  n.mapError_change store (n.slotKey slot) record

theorem perform_delete :
    n.perform (Action.delete table key) store =
      match n.rowKey table key with
      | .ok raw => (.ok (), store.erase raw)
      | .error cause => (.error (.state cause), store) := by
  change Prod.map (Except.mapError ContractError.state) id
    (change (n.rowKey table key >>= Store.delete store) store) = _
  cases n.rowKey table key <;> rfl

variable {n store table slot key record} {after : MemoryStore} {found : Option Bytes}

theorem perform_query_eq_ok (h : n.perform (Action.query table key) store = (.ok found, after)) :
    after = store ∧ ∃ raw, n.rowKey table key = .ok raw ∧ found = store.find? raw := by
  rw [perform_query] at h
  cases lies : n.rowKey table key with
  | error cause =>
    rw [lies] at h
    cases h
  | ok raw =>
    rw [lies] at h
    cases h
    exact ⟨rfl, raw, rfl, rfl⟩

theorem write_eq_ok {place : Except StateError Bytes} {value : Bytes}
    (h : n.write store place value = (.ok (), after)) :
    value.length ≤ n.recordLimit ∧ ∃ raw, place = .ok raw ∧ after = store.insert raw value := by
  unfold write at h
  split at h
  · cases h
  · rename_i fits
    cases place with
    | error cause => cases h
    | ok raw =>
      cases h
      exact ⟨by omega, raw, rfl, rfl⟩

theorem perform_delete_eq_ok (h : n.perform (Action.delete table key) store = (.ok (), after)) :
    ∃ raw, n.rowKey table key = .ok raw ∧ after = store.erase raw := by
  rw [perform_delete] at h
  split at h
  · rename_i raw lies
    cases h
    exact ⟨raw, lies, rfl⟩
  · cases h

end Memory

end Namespace
end ContractStore
