import ContractStore.Store.Basic

/-!
A store that refuses chosen kinds of operation and is otherwise the store inside it.
-/
namespace ContractStore

inductive StoreOp where
  | get | insert | delete | batch
  deriving DecidableEq, Repr

namespace StoreOp

def name : StoreOp → String
  | get => "get"
  | insert => "insert"
  | delete => "delete"
  | batch => "batch"

def ofName? (name : String) : Option StoreOp :=
  [get, insert, delete, batch].find? fun op => op.name == name

end StoreOp

structure RefusingStore (σ : Type) where
  inner : σ
  refused : List StoreOp

namespace RefusingStore
variable {σ : Type}

def permit (store : RefusingStore σ) (op : StoreOp) : Except StateError Unit :=
  if op ∈ store.refused then .error (.backend s!"{op.name} refused") else .ok ()

instance [Store σ] : Store (RefusingStore σ) where
  get store key := do
    store.permit .get
    Store.get store.inner key
  insert store key value := do
    store.permit .insert
    let inner ← Store.insert store.inner key value
    return { store with inner }
  delete store key := do
    store.permit .delete
    let inner ← Store.delete store.inner key
    return { store with inner }
  applyBatch store batch := do
    store.permit .batch
    let inner ← Store.applyBatch store.inner batch
    return { store with inner }

end RefusingStore
end ContractStore
