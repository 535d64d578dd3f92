import ContractStore.Proofs.Store.Snapshots

/-!
What an overlay hands on. Of all that was done to a key the last operation counts, and the batch says
what that was: for each key once, in ascending order, as an insert or as a delete. One operation on
an overlay puts what it leaves under a key over what was pending there (`find?_pending_perform`), so
a run of them leaves what the last one that names the key left (`lastWrites_of_run`). Such a batch
can be applied in either order.
-/
namespace ContractStore

inductive WriteOp where
  | insert (key value : Bytes)
  | delete (key : Bytes)
  | applyBatch (batch : Batch)
  deriving DecidableEq, Repr

namespace WriteOp

def perform {σ : Type} [Store σ] (store : σ) : WriteOp → Except StateError σ
  | insert key value => Store.insert store key value
  | delete key => Store.delete store key
  | applyBatch batch => Store.applyBatch store batch

/-- What the operation leaves under a key that it names: a value, or none where it deletes. -/
def leaves (key : Bytes) : WriteOp → Option (Option Bytes)
  | insert k value => if k = key then some (some value) else none
  | delete k => if k = key then some none else none
  | applyBatch batch =>
    match SortedMap.lastListed compare batch.inserts key with
    | some value => some (some value)
    | none => if key ∈ batch.deletes then some none else none

def last (ops : List WriteOp) (key : Bytes) : Option (Option Bytes) :=
  (ops.filterMap (leaves key)).getLast?

theorem last_cons (op : WriteOp) (rest : List WriteOp) (key : Bytes) :
    last (op :: rest) key = (last rest key).or (op.leaves key) := by
  unfold last
  rw [List.filterMap_cons]
  cases op.leaves key with
  | none => simp
  | some write =>
    simp only [List.getLast?_cons]
    cases (rest.filterMap (leaves key)).getLast? <;> rfl

end WriteOp

namespace Overlay
variable {σ : Type}

theorem find?_foldl_delete (pending : ByteMap (Option Bytes)) (keys : List Bytes) (key : Bytes) :
    (keys.foldl (fun pending key => pending.insert key none) pending).find? key =
      if key ∈ keys then some none else pending.find? key := by
  induction keys generalizing pending with
  | nil => simp
  | cons k rest ih =>
    rw [List.foldl_cons, ih]
    by_cases later : key ∈ rest
    · simp [later]
    · by_cases here : key = k
      · subst here
        simp [SortedMap.find?_insert_self]
      · simp [later, here, SortedMap.find?_insert_of_ne]

theorem find?_withBatch (pending : ByteMap (Option Bytes)) (batch : Batch) (key : Bytes) :
    (withBatch pending batch).find? key =
      ((WriteOp.applyBatch batch).leaves key).or (pending.find? key) := by
  have inserted (m : ByteMap (Option Bytes)) :
      (batch.inserts.foldl (fun m entry => m.insert entry.1 (some entry.2)) m).find? key =
        ((SortedMap.lastListed compare batch.inserts key).map some).or (m.find? key) := by
    have all := SortedMap.find?_foldl_insert m
      (batch.inserts.map fun entry => (entry.1, some entry.2)) key
    rw [List.foldl_map, SortedMap.lastListed_map] at all
    exact all
  unfold withBatch
  rw [inserted, find?_foldl_delete]
  simp only [WriteOp.leaves]
  cases SortedMap.lastListed compare batch.inserts key with
  | some value => rfl
  | none => split <;> rfl

theorem find?_pending_perform [Store σ] (o : Overlay σ) (op : WriteOp) :
    ∃ after, op.perform o = .ok after ∧ after.base = o.base ∧
      ∀ key, after.pending.find? key = (op.leaves key).or (o.pending.find? key) := by
  have put (k : Bytes) (write : Option Bytes) (key : Bytes) :
      (o.pending.insert k write).find? key =
        (if k = key then some write else none).or (o.pending.find? key) := by
    by_cases here : k = key
    · subst here
      simp [SortedMap.find?_insert_self]
    · simp [here, SortedMap.find?_insert_of_ne _ _ (Ne.symm here)]
  cases op with
  | insert k value => exact ⟨o.insert k value, rfl, rfl, put k (some value)⟩
  | delete k => exact ⟨o.delete k, rfl, rfl, put k none⟩
  | applyBatch batch =>
    refine ⟨⟨o.base, withBatch o.pending batch⟩, ?_, rfl, find?_withBatch o.pending batch⟩
    exact congrArg Except.ok (applyBatch_mk o.base o.pending batch)

theorem find?_pending_run [Store σ] (ops : List WriteOp) (o : Overlay σ) :
    ∃ after, ops.foldlM WriteOp.perform o = .ok after ∧ after.base = o.base ∧
      ∀ key, after.pending.find? key = (WriteOp.last ops key).or (o.pending.find? key) := by
  induction ops generalizing o with
  | nil => exact ⟨o, rfl, rfl, fun key => rfl⟩
  | cons op rest ih =>
    obtain ⟨next, done, base, step⟩ := find?_pending_perform o op
    obtain ⟨after, ran, base', later⟩ := ih next
    refine ⟨after, ?_, base'.trans base, ?_⟩
    · rw [List.foldlM_cons, done]
      exact ran
    · intro key
      rw [later, step, WriteOp.last_cons, Option.or_assoc]

end Overlay

/-- The batch is what the operations come to: one entry for each key that they name. -/
structure Batch.LastWrites (ops : List WriteOp) (batch : Batch) : Prop where
  inserts_ascend : batch.inserts.Pairwise fun a b => compare a.1 b.1 = .lt
  deletes_ascend : batch.deletes.Pairwise fun a b => compare a b = .lt
  apart : ∀ key ∈ batch.deletes, key ∉ batch.inserts.map Prod.fst
  mem_inserts : ∀ key value, (key, value) ∈ batch.inserts ↔ WriteOp.last ops key = some (some value)
  mem_deletes : ∀ key, key ∈ batch.deletes ↔ WriteOp.last ops key = some none

namespace Overlay

theorem lastWrites_of_run {σ : Type} [Store σ] {ops : List WriteOp} {store : σ} {o : Overlay σ}
    (ran : ops.foldlM WriteOp.perform (new store) = .ok o) : o.batch.LastWrites ops := by
  obtain ⟨after, ran', _, holds⟩ := find?_pending_run ops (new store)
  cases ran.symm.trans ran'
  have pending (key : Bytes) : o.pending.find? key = WriteOp.last ops key := by
    rw [holds]
    exact Option.or_none
  have ascend := SortedMap.pairwise_keys o.pending
  constructor
  · exact List.pairwise_map.1 (ascend.sublist o.inserts_batch_sublist)
  · exact ascend.sublist o.deletes_batch_sublist
  · intro key deleted inserted
    obtain ⟨⟨_, value⟩, mem, rfl⟩ := List.mem_map.1 inserted
    cases (mem_deletes_batch.1 deleted).symm.trans (mem_inserts_batch.1 mem)
  · intro key value
    rw [mem_inserts_batch, pending]
  · intro key
    rw [mem_deletes_batch, pending]

end Overlay

namespace MemoryStore

def applyInsertsFirst (store : MemoryStore) (batch : Batch) : MemoryStore :=
  let extended := batch.inserts.foldl (fun s entry => s.insert entry.1 entry.2) store
  batch.deletes.foldl (fun s key => s.erase key) extended

theorem applyInsertsFirst_eq (store : MemoryStore) {batch : Batch}
    (apart : ∀ key ∈ batch.deletes, key ∉ batch.inserts.map Prod.fst) :
    applyInsertsFirst store batch = applyBatch store batch := by
  apply SortedMap.ext_find?
  intro key
  unfold applyInsertsFirst
  by_cases deleted : key ∈ batch.deletes
  · rw [SortedMap.find?_foldl_erase_of_mem deleted,
      find?_applyBatch_of_delete (apart key deleted) deleted]
  · unfold applyBatch
    rw [SortedMap.find?_foldl_erase_of_not_mem deleted, SortedMap.find?_foldl_insert,
      SortedMap.find?_foldl_insert, SortedMap.find?_foldl_erase_of_not_mem deleted]

end MemoryStore
end ContractStore
