import ContractStore.Bytes
import ContractStore.Error
import ContractStore.SortedMap

/-!
Flat key/value stores. A store may refuse an operation; then it is as it was, so an operation that
changes the store returns the new store only on success. `MemoryStore` refuses nothing.
-/
namespace ContractStore

abbrev ByteMap (ν : Type) : Type := SortedMap (compare : Bytes → Bytes → Ordering) ν

/-- Changes that are applied together, the deletes before the inserts. -/
structure Batch where
  inserts : List (Bytes × Bytes)
  deletes : List Bytes
  deriving DecidableEq, Repr

class Store (σ : Type) where
  get : σ → Bytes → Except StateError (Option Bytes)
  insert : σ → Bytes → Bytes → Except StateError σ
  delete : σ → Bytes → Except StateError σ
  applyBatch : σ → Batch → Except StateError σ

abbrev MemoryStore : Type := ByteMap Bytes

namespace MemoryStore

def applyBatch (store : MemoryStore) (batch : Batch) : MemoryStore :=
  let remaining := batch.deletes.foldl (fun s key => s.erase key) store
  batch.inserts.foldl (fun s entry => s.insert entry.1 entry.2) remaining

instance : Store MemoryStore where
  get store key := .ok (store.find? key)
  insert store key value := .ok (store.insert key value)
  delete store key := .ok (store.erase key)
  applyBatch store batch := .ok (MemoryStore.applyBatch store batch)

end MemoryStore
end ContractStore
