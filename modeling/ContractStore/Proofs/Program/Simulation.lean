import ContractStore.Proofs.Program.Namespace

/-!
One program run on two stores. If related stores answer alike wherever the program may look, and a
change made to both leaves them related, then the program gets the same replies from both and ends
the same way: `Simulates.answer` for one call, `Simulates.run` for a program.
-/
namespace ContractStore

/-- The program makes allowed calls only, whatever replies it gets. -/
def Program.Only {α : Type} (allowed : StoreCall → Prop) : Program α → Prop
  | .done _ => True
  | .call request next => allowed request ∧ ∀ reply, (next reply).Only allowed

theorem Program.only_of_forall {α : Type} {allowed : StoreCall → Prop}
    (all : ∀ request, allowed request) (program : Program α) : program.Only allowed := by
  induction program with
  | done result => trivial
  | call request next ih => exact ⟨all request, ih⟩

theorem Program.only_bind {α β : Type} {allowed : StoreCall → Prop} {program : Program α}
    {next : α → Program β} (first : program.Only allowed) (later : ∀ x, (next x).Only allowed) :
    (program.bind next).Only allowed := by
  induction program with
  | done result => exact later result
  | call request rest ih => exact ⟨first.1, fun reply => ih reply (first.2 reply)⟩

namespace Namespace
variable {α β σ τ : Type} {related : σ → τ → Prop} {left : σ} {right : τ}

theorem look_congr {place : Except StateError α} {look look' : α → Except StateError β}
    (same : ∀ raw, place = .ok raw → look raw = look' raw) :
    (place >>= look) = (place >>= look') := by
  cases place with
  | error cause => rfl
  | ok raw => exact same raw rfl

inductive Matched (related : σ → τ → Prop) : Except StateError σ → Except StateError τ → Prop where
  | error (cause : StateError) : Matched related (.error cause) (.error cause)
  | ok {left : σ} {right : τ} (both : related left right) : Matched related (.ok left) (.ok right)

theorem matched_bind (step : Except StateError α) {put : α → Except StateError σ}
    {put' : α → Except StateError τ}
    (matched : ∀ a, step = .ok a → Matched related (put a) (put' a)) :
    Matched related (step >>= put) (step >>= put') := by
  cases step with
  | error cause => exact .error cause
  | ok a => exact matched a rfl

theorem Matched.change {result : Except StateError σ} {result' : Except StateError τ}
    (matched : Matched related result result') (before : related left right) :
    (change result left).1 = (change result' right).1 ∧
      related (change result left).2 (change result' right).2 := by
  cases matched with
  | error cause => exact ⟨rfl, before⟩
  | ok after => exact ⟨rfl, after⟩

/-- What the contract's allowed calls cannot tell apart. -/
structure Simulates [Store σ] [Store τ] (n : Namespace) (allowed : StoreCall → Prop)
    (related : σ → τ → Prop) : Prop where
  get {left : σ} {right : τ} {raw : Bytes} (h : related left right) (own : n.Owns raw) :
    Store.get left raw = Store.get right raw
  getExternal {left : σ} {right : τ} {owner contract table : String} {key : Bytes}
    (h : related left right) (may : allowed (.queryExternal owner contract table key)) (raw : Bytes)
    (lies : tableKey owner contract table key = .ok raw) :
    Store.get left raw = Store.get right raw
  insert {left : σ} {right : τ} {raw : Bytes} (h : related left right) (own : n.Owns raw)
    (value : Bytes) : Matched related (Store.insert left raw value) (Store.insert right raw value)
  delete {left : σ} {right : τ} {raw : Bytes} (h : related left right) (own : n.Owns raw) :
    Matched related (Store.delete left raw) (Store.delete right raw)

variable [Store σ] [Store τ] {n : Namespace} {allowed : StoreCall → Prop}

theorem Simulates.answer (sim : Simulates n allowed related) {request : StoreCall}
    (may : allowed request) (h : related left right) :
    (n.answer request left).1 = (n.answer request right).1 ∧
      related (n.answer request left).2 (n.answer request right).2 := by
  have row (table : String) (key raw : Bytes) (lies : n.rowKey table key = .ok raw) :
      n.Owns raw := .inl ⟨table, key, lies⟩
  have slotted (slot : String) (raw : Bytes) (lies : n.slotKey slot = .ok raw) :
      n.Owns raw := .inr ⟨slot, lies⟩
  -- the size of a value is checked before its place, so it decides first in both stores
  have writes (place : Except StateError Bytes) (value : Bytes)
      (own : ∀ raw, place = .ok raw → n.Owns raw) :
      Matched related
        (n.checkSize value >>= fun _ => place >>= fun raw => Store.insert left raw value)
        (n.checkSize value >>= fun _ => place >>= fun raw => Store.insert right raw value) :=
    matched_bind _ fun _ _ => matched_bind _ fun raw lies => sim.insert h (own raw lies) value
  cases request with
  | query table key => exact ⟨look_congr fun raw lies => sim.get h (row table key raw lies), h⟩
  | insert table key record => exact (writes _ record (row table key)).change h
  | update table key record => exact (writes _ record (row table key)).change h
  | delete table key =>
    exact (matched_bind _ fun raw lies => sim.delete h (row table key raw lies)).change h
  | queryExternal owner contract table key => exact ⟨look_congr (sim.getExternal h may), h⟩
  | load slot => exact ⟨look_congr fun raw lies => sim.get h (slotted slot raw lies), h⟩
  | save slot value => exact (writes _ value (slotted slot)).change h

theorem Simulates.run (sim : Simulates n allowed related) {program : Program α}
    (only : program.Only allowed) (h : related left right) :
    (n.run program left).1 = (n.run program right).1 ∧
      related (n.run program left).2 (n.run program right).2 := by
  induction program generalizing left right with
  | done result => exact ⟨rfl, h⟩
  | call request next ih =>
    obtain ⟨may, onlyNext⟩ := only
    obtain ⟨sameReply, after⟩ := sim.answer may h
    have later := ih (n.answer request left).1 (onlyNext _) after
    simp only [Namespace.run, Program.run] at later ⊢
    rw [← sameReply]
    exact later

end Namespace
end ContractStore
