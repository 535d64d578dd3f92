import ContractStore.Call.Executor
import ContractStore.Store.Layers
import ContractStore.Store.Refusing
import ContractStore.Table.External

/-!
A place to try contracts: a store in memory that can be told to refuse operations, overlays on top
of it, a host, and views of other contracts' tables under handles. The host is not part of the
state, so what happened to it outlives a discarded overlay.
-/
namespace ContractStore

abbrev SandboxStore : Type := Layers (RefusingStore MemoryStore)

structure Sandbox where
  layers : SandboxStore
  host : Host
  views : List (String × Option Location)

namespace Sandbox

def new : Sandbox := ⟨.ground ⟨.empty, []⟩, Host.new, []⟩

def stored (s : Sandbox) : MemoryStore := s.layers.bottom.inner

/-- From now on the store refuses these operations. A store under overlays cannot be told. -/
def refuse (s : Sandbox) (ops : List StoreOp) : Option Sandbox :=
  match s.layers with
  | .ground store => some { s with layers := .ground { store with refused := ops } }
  | .overlay _ => none

def begin (s : Sandbox) : Sandbox := { s with layers := s.layers.begin }

def commit (s : Sandbox) : Option (Except StateError Batch × Sandbox) :=
  s.layers.commit.map fun (result, layers) => (result, { s with layers })

def discard (s : Sandbox) : Option Sandbox := s.layers.discard.map fun layers => { s with layers }

/-- Changes the top of the store; a refused change leaves it. -/
def change (s : Sandbox) (f : SandboxStore → Except StateError SandboxStore) :
    Except StateError Unit × Sandbox :=
  match f s.layers with
  | .ok layers => (.ok (), { s with layers })
  | .error cause => (.error cause, s)

def run {α : Type} (s : Sandbox) (place : Namespace) (program : Program α) : α × Sandbox :=
  let (result, layers) := place.run program s.layers
  (result, { s with layers })

def call (s : Sandbox) (limits : Limits) (contract : Contract) (ctx : CallContext) :
    Except ContractError Receipt × Sandbox :=
  let (result, host, layers) := limits.call contract ctx s.host s.layers
  (result, { s with host, layers })

/-- Runs a method in the open, so that what it wrote before an abort stays. -/
def dispatch (s : Sandbox) (place : Namespace) (contract : Contract) (ctx : CallContext) :
    Except ContractError Unit × Sandbox :=
  let ((result, host), s) := s.run place ((contract.dispatch ctx).run s.host)
  (result, { s with host })

def view (s : Sandbox) (record : WireType) (handle : String) : View record :=
  ⟨(s.views.lookup handle).getD none⟩

def putView {record : WireType} (s : Sandbox) (handle : String) (v : View record) : Sandbox :=
  { s with views := (handle, v.location) :: s.views }

end Sandbox
end ContractStore
