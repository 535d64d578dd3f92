import ContractStore.Proofs.SortedMap
import ContractStore.Store.Overlay

/-!
An overlay over a store in memory stands for one store: the one below with the pending writes done.
`Overlay.Shows` relates the two, each operation keeps it, and committing turns the store below into
the store that was shown (`commit_of_shows`).
-/
namespace ContractStore

namespace MemoryStore

theorem find?_applyBatch_of_insert {store : MemoryStore} {batch : Batch} {key value : Bytes}
    (distinct : (batch.inserts.map Prod.fst).Nodup) (mem : (key, value) ∈ batch.inserts) :
    (applyBatch store batch).find? key = some value :=
  SortedMap.find?_foldl_insert_of_mem distinct mem

theorem find?_applyBatch_of_delete {store : MemoryStore} {batch : Batch} {key : Bytes}
    (absent : key ∉ batch.inserts.map Prod.fst) (mem : key ∈ batch.deletes) :
    (applyBatch store batch).find? key = none := by
  rw [applyBatch, SortedMap.find?_foldl_insert_of_not_mem absent,
    SortedMap.find?_foldl_erase_of_mem mem]

theorem find?_applyBatch_of_absent {store : MemoryStore} {batch : Batch} {key : Bytes}
    (absent : key ∉ batch.inserts.map Prod.fst) (kept : key ∉ batch.deletes) :
    (applyBatch store batch).find? key = store.find? key := by
  rw [applyBatch, SortedMap.find?_foldl_insert_of_not_mem absent,
    SortedMap.find?_foldl_erase_of_not_mem kept]

end MemoryStore

theorem filterMap_sublist_map {α β : Type} {pick : α → Option β} {f : α → β}
    (agrees : ∀ x y, pick x = some y → y = f x) (xs : List α) :
    (xs.filterMap pick).Sublist (xs.map f) := by
  induction xs with
  | nil => exact .slnil
  | cons x rest ih =>
    rw [List.filterMap_cons, List.map_cons]
    cases picked : pick x with
    | none => exact .cons _ ih
    | some y =>
      rw [agrees x y picked]
      exact .cons_cons _ ih

namespace Overlay
variable {σ : Type}

theorem mem_inserts_batch {o : Overlay σ} {key value : Bytes} :
    (key, value) ∈ o.batch.inserts ↔ o.pending.find? key = some (some value) := by
  rw [SortedMap.find?_eq_some_iff, batch]
  constructor
  · intro mem
    obtain ⟨⟨k, write⟩, entry, kept⟩ := List.mem_filterMap.1 mem
    obtain ⟨v, rfl, same⟩ := Option.map_eq_some_iff.1 kept
    cases same
    exact entry
  · intro entry
    exact List.mem_filterMap.2 ⟨(key, some value), entry, rfl⟩

theorem mem_deletes_batch {o : Overlay σ} {key : Bytes} :
    key ∈ o.batch.deletes ↔ o.pending.find? key = some none := by
  rw [SortedMap.find?_eq_some_iff, batch]
  constructor
  · intro mem
    obtain ⟨⟨k, write⟩, entry, kept⟩ := List.mem_filterMap.1 mem
    cases write with
    | none => cases kept; exact entry
    | some v => cases kept
  · intro entry
    exact List.mem_filterMap.2 ⟨(key, none), entry, rfl⟩

theorem inserts_batch_sublist (o : Overlay σ) :
    (o.batch.inserts.map Prod.fst).Sublist (o.pending.entries.map Prod.fst) := by
  rw [batch, List.map_filterMap]
  apply filterMap_sublist_map
  rintro ⟨key, write⟩ found picked
  cases write <;> cases picked
  rfl

theorem deletes_batch_sublist (o : Overlay σ) :
    o.batch.deletes.Sublist (o.pending.entries.map Prod.fst) := by
  rw [batch]
  apply filterMap_sublist_map
  rintro ⟨key, write⟩ found picked
  cases write <;> cases picked
  rfl

theorem nodup_inserts_batch (o : Overlay σ) : (o.batch.inserts.map Prod.fst).Nodup :=
  (SortedMap.nodup_keys o.pending).sublist o.inserts_batch_sublist

def lookup (o : Overlay MemoryStore) (key : Bytes) : Option Bytes :=
  (o.pending.find? key).getD (o.base.find? key)

/-- Every reader finds in the overlay what it finds in `store`. -/
def Shows (o : Overlay MemoryStore) (store : MemoryStore) : Prop :=
  ∀ key, o.lookup key = store.find? key

theorem get_eq_lookup (o : Overlay MemoryStore) (key : Bytes) :
    Store.get o key = .ok (o.lookup key) := by
  change o.read key (.ok (o.base.find? key)) = _
  unfold read lookup
  cases o.pending.find? key <;> rfl

theorem shows_new (store : MemoryStore) : (new store).Shows store := fun _ => rfl

theorem shows_insert {o : Overlay MemoryStore} {store : MemoryStore} (h : o.Shows store)
    (key value : Bytes) : (o.insert key value).Shows (store.insert key value) := by
  intro x
  have hx := h x
  simp only [lookup, insert, SortedMap.find?_insert] at hx ⊢
  split
  · rfl
  · exact hx

theorem shows_delete {o : Overlay MemoryStore} {store : MemoryStore} (h : o.Shows store)
    (key : Bytes) : (o.delete key).Shows (store.erase key) := by
  intro x
  have hx := h x
  simp only [lookup, delete, SortedMap.find?_insert, SortedMap.find?_erase] at hx ⊢
  split
  · rfl
  · exact hx

/-- Doing the pending writes on the store below gives the store that the overlay stands for. -/
theorem find?_applyBatch_batch (o : Overlay MemoryStore) (key : Bytes) :
    (MemoryStore.applyBatch o.base o.batch).find? key = o.lookup key := by
  cases write : o.pending.find? key with
  | none =>
    have kept : key ∉ o.batch.deletes := by simp [mem_deletes_batch, write]
    rw [MemoryStore.find?_applyBatch_of_absent _ kept]
    · simp [lookup, write]
    · simp [mem_inserts_batch, write]
  | some change =>
    cases change with
    | none =>
      rw [MemoryStore.find?_applyBatch_of_delete _ (mem_deletes_batch.2 write)]
      · simp [lookup, write]
      · simp [mem_inserts_batch, write]
    | some value =>
      rw [MemoryStore.find?_applyBatch_of_insert o.nodup_inserts_batch (mem_inserts_batch.2 write)]
      simp [lookup, write]

theorem commit_of_shows {o : Overlay MemoryStore} {store : MemoryStore} (h : o.Shows store) :
    o.commit = (.ok o.batch, store) := by
  have same : MemoryStore.applyBatch o.base o.batch = store :=
    SortedMap.ext_find? fun key => (find?_applyBatch_batch o key).trans (h key)
  rw [← same]
  rfl

theorem base_of_commit_error [Store σ] {o : Overlay σ} {cause : StateError}
    (refused : o.commit.1 = .error cause) : o.commit.2 = o.base := by
  unfold commit at refused ⊢
  split
  · rename_i applied
    simp [applied] at refused
  · rfl

end Overlay
end ContractStore
