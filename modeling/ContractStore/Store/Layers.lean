import ContractStore.Store.Overlay

/-!
Overlays on overlays, to any depth over one store.
-/
namespace ContractStore

inductive Layers (σ : Type) where
  | ground (store : σ)
  | overlay (top : Overlay (Layers σ))

namespace Layers
variable {σ : Type}

def get [Store σ] (key : Bytes) : Layers σ → Except StateError (Option Bytes)
  | ground store => Store.get store key
  | overlay ⟨base, pending⟩ => Overlay.read ⟨base, pending⟩ key (base.get key)

def insert [Store σ] (key value : Bytes) : Layers σ → Except StateError (Layers σ)
  | ground store => ground <$> Store.insert store key value
  | overlay top => .ok (overlay (top.insert key value))

def delete [Store σ] (key : Bytes) : Layers σ → Except StateError (Layers σ)
  | ground store => ground <$> Store.delete store key
  | overlay top => .ok (overlay (top.delete key))

def applyBatch [Store σ] (batch : Batch) : Layers σ → Except StateError (Layers σ)
  | ground store => ground <$> Store.applyBatch store batch
  | overlay top => .ok (overlay (top.applyBatch batch))

instance [Store σ] : Store (Layers σ) where
  get layers key := layers.get key
  insert layers key value := layers.insert key value
  delete layers key := layers.delete key
  applyBatch layers batch := layers.applyBatch batch

def bottom : Layers σ → σ
  | ground store => store
  | overlay ⟨base, _⟩ => base.bottom

def begin (layers : Layers σ) : Layers σ := overlay (Overlay.new layers)

def commit [Store σ] : Layers σ → Option (Except StateError Batch × Layers σ)
  | ground _ => none
  | overlay top => some top.commit

def discard : Layers σ → Option (Layers σ)
  | ground _ => none
  | overlay top => some top.base

end Layers
end ContractStore
