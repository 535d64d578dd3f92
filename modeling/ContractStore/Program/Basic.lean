import ContractStore.Bytes
import ContractStore.Error

/-!
What a contract does to stored state, as data. A program makes one store call after another; what
it does next may depend on every reply so far. `Program.run` gives it meaning over any handler of
calls.
-/
namespace ContractStore

/-- The calls that a contract can make. All but `queryExternal` are about its own data. -/
inductive StoreCall where
  | query (table : String) (key : Bytes)
  | insert (table : String) (key record : Bytes)
  | update (table : String) (key record : Bytes)
  | delete (table : String) (key : Bytes)
  | queryExternal (owner contract table : String) (key : Bytes)
  | load (slot : String)
  | save (slot : String) (value : Bytes)
  deriving DecidableEq, Repr

/-- What a call answers: a read what is stored, if anything is, and a write whether it was done. -/
abbrev StoreCall.Reply : StoreCall → Type
  | .query .. | .queryExternal .. | .load .. => Except StateError (Option Bytes)
  | .insert .. | .update .. | .delete .. | .save .. => Except StateError Unit

inductive Program (α : Type) where
  | done (result : α)
  | call (request : StoreCall) (next : request.Reply → Program α)

namespace Program
variable {α β σ : Type}

def bind : Program α → (α → Program β) → Program β
  | done result, f => f result
  | call request next, f => call request fun reply => (next reply).bind f

instance : Monad Program where
  pure := done
  bind := bind

def ask (request : StoreCall) : Program request.Reply := call request done

def run (answer : (request : StoreCall) → σ → request.Reply × σ) : Program α → σ → α × σ
  | done result, state => (result, state)
  | call request next, state =>
    let (reply, state) := answer request state
    (next reply).run answer state

theorem run_bind (answer : (request : StoreCall) → σ → request.Reply × σ) (p : Program α)
    (f : α → Program β) (state : σ) :
    (p.bind f).run answer state =
      (f (p.run answer state).1).run answer (p.run answer state).2 := by
  induction p generalizing state with
  | done result => rfl
  | call request next ih => exact ih _ _

end Program

/-- A program that can be aborted. What it wrote before stays written. -/
abbrev Action := ExceptT ContractError Program

namespace Action

def ofCodec {α : Type} (result : Except CodecError α) : Action α :=
  ExceptT.mk (pure (result.mapError .codec))

def ofState {α : Type} (result : Except StateError α) : Action α :=
  ExceptT.mk (pure (result.mapError .state))

def query (table : String) (key : Bytes) : Action (Option Bytes) :=
  ExceptT.mk (.call (.query table key) fun reply => .done (reply.mapError .state))

def insert (table : String) (key record : Bytes) : Action Unit :=
  ExceptT.mk (.call (.insert table key record) fun reply => .done (reply.mapError .state))

def update (table : String) (key record : Bytes) : Action Unit :=
  ExceptT.mk (.call (.update table key record) fun reply => .done (reply.mapError .state))

def delete (table : String) (key : Bytes) : Action Unit :=
  ExceptT.mk (.call (.delete table key) fun reply => .done (reply.mapError .state))

def queryExternal (owner contract table : String) (key : Bytes) : Action (Option Bytes) :=
  ExceptT.mk (.call (.queryExternal owner contract table key) fun reply =>
    .done (reply.mapError .state))

def load (slot : String) : Action (Option Bytes) :=
  ExceptT.mk (.call (.load slot) fun reply => .done (reply.mapError .state))

def save (slot : String) (value : Bytes) : Action Unit :=
  ExceptT.mk (.call (.save slot value) fun reply => .done (reply.mapError .state))

end Action
end ContractStore
