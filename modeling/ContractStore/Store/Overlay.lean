import ContractStore.Store.Basic

/-!
Writes that are held back. An overlay answers from its own writes first and from the store below
where it has none; the store below does not change until the overlay's batch is applied to it.
-/
namespace ContractStore

structure Overlay (σ : Type) where
  base : σ
  /-- The last write to each key: the value, or none for a delete. -/
  pending : ByteMap (Option Bytes)

namespace Overlay
variable {σ : Type}

def new (base : σ) : Overlay σ := ⟨base, .empty⟩

def size (o : Overlay σ) : Nat := o.pending.size

def read (o : Overlay σ) (key : Bytes) (below : Except StateError (Option Bytes)) :
    Except StateError (Option Bytes) :=
  match o.pending.find? key with
  | some write => .ok write
  | none => below

def insert (o : Overlay σ) (key value : Bytes) : Overlay σ :=
  { o with pending := o.pending.insert key (some value) }

def delete (o : Overlay σ) (key : Bytes) : Overlay σ :=
  { o with pending := o.pending.insert key none }

def applyBatch (o : Overlay σ) (batch : Batch) : Overlay σ :=
  let deleted := batch.deletes.foldl (fun o key => o.delete key) o
  batch.inserts.foldl (fun o entry => o.insert entry.1 entry.2) deleted

def batch (o : Overlay σ) : Batch where
  inserts := o.pending.entries.filterMap fun (key, write) => write.map fun value => (key, value)
  deletes := o.pending.entries.filterMap fun (key, write) =>
    if write.isNone then some key else none

instance [Store σ] : Store (Overlay σ) where
  get o key := o.read key (Store.get o.base key)
  insert o key value := .ok (o.insert key value)
  delete o key := .ok (o.delete key)
  applyBatch o batch := .ok (o.applyBatch batch)

/-- Applies the pending writes to the store below. If it refuses them, they are lost and it is as it
was. -/
def commit [Store σ] (o : Overlay σ) : Except StateError Batch × σ :=
  match Store.applyBatch o.base o.batch with
  | .ok base => (.ok o.batch, base)
  | .error cause => (.error cause, o.base)

end Overlay
end ContractStore
