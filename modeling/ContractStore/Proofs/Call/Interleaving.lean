import ContractStore.Proofs.Call.Confinement
import ContractStore.Proofs.InTurn

/-!
Calls of different contracts do not see one another, unless they read each other's tables on
purpose. A program without external reads gets the same replies on two overlays that differ only in
other contracts' data (`run_of_alike`), so its call ends the same way (`run_of_agree`); and a call
changes no other contract's data. What a contract sees of a run is thus the run of its own calls
(`agree_alone`), and neighbouring calls of two contracts can change places (`run_swap`).
-/
namespace ContractStore

def StoreCall.External : StoreCall → Prop
  | .queryExternal .. => True
  | _ => False

/-- The program makes no external read. -/
def Program.Local {α : Type} (program : Program α) : Prop :=
  program.Only fun request => ¬ request.External

/-- The overlays have the same writes pending, over stores that a contract cannot tell apart. -/
structure Overlay.Alike (name : Name) (o o' : Overlay MemoryStore) : Prop where
  pending : o.pending = o'.pending
  base : name.Agree o.base o'.base

namespace Overlay
variable {name : Name} {o o' : Overlay MemoryStore}

theorem alike_new {left right : MemoryStore} (agree : name.Agree left right) :
    Alike name (new left) (new right) := ⟨rfl, agree⟩

theorem Alike.get (alike : Alike name o o') {raw : Bytes} (own : name.Owns raw) :
    Store.get o raw = Store.get o' raw := by
  rw [get_eq_lookup, get_eq_lookup, lookup, lookup, alike.pending, alike.base raw own]

theorem Alike.insert (alike : Alike name o o') (raw value : Bytes) :
    Alike name (o.insert raw value) (o'.insert raw value) :=
  ⟨congrArg (fun pending => pending.insert raw (some value)) alike.pending, alike.base⟩

theorem Alike.delete (alike : Alike name o o') (raw : Bytes) :
    Alike name (o.delete raw) (o'.delete raw) :=
  ⟨congrArg (fun pending => pending.insert raw none) alike.pending, alike.base⟩

theorem Alike.batch (alike : Alike name o o') : o.batch = o'.batch := by
  unfold Overlay.batch
  rw [alike.pending]

theorem Alike.commit (alike : Alike name o o') :
    ∃ batch written written', o.commit = (.ok batch, written) ∧
      o'.commit = (.ok batch, written') ∧ name.Agree written written' := by
  refine ⟨o.batch, MemoryStore.applyBatch o.base o.batch, MemoryStore.applyBatch o'.base o'.batch,
    rfl, ?_, ?_⟩
  · rw [alike.batch]
    rfl
  · intro raw own
    rw [find?_applyBatch_batch, find?_applyBatch_batch, lookup, lookup, alike.pending,
      alike.base raw own]

end Overlay

namespace Namespace
variable {name : Name} {o o' : Overlay MemoryStore}

theorem simulates_alike (limit : Nat) (contract : name.isContract = true) :
    Simulates ⟨name.account, name.contract, limit⟩ (fun request => ¬ request.External)
      (Overlay.Alike name) where
  get h own := h.get ⟨contract, own⟩
  getExternal _ may := absurd trivial may
  insert {_ _ raw} h _ value := .ok (h.insert raw value)
  delete {_ _ raw} h _ := .ok (h.delete raw)

theorem run_of_alike {α : Type} (limit : Nat) (contract : name.isContract = true)
    {program : Program α} (own : program.Local) (alike : Overlay.Alike name o o') :
    let n : Namespace := ⟨name.account, name.contract, limit⟩
    (n.run program o).1 = (n.run program o').1 ∧
      Overlay.Alike name (n.run program o).2 (n.run program o').2 :=
  (simulates_alike limit contract).run own alike

end Namespace

structure Execution where
  limits : Limits
  ctx : CallContext
  program : Call Unit
  host : Host

namespace Execution

abbrev Outcome : Type := Except ContractError Receipt × Host

def run (e : Execution) (store : MemoryStore) : Outcome × MemoryStore :=
  let (ending, host, after) := e.limits.execute e.ctx e.program e.host store
  ((ending, host), after)

def Local (e : Execution) : Prop := (e.program.run e.host).Local

def outcomesOf (contract : Name) (executions : List Execution) (store : MemoryStore) :
    List Outcome :=
  ((executions.zip (inTurn run executions store).1).filter fun entry =>
    entry.1.ctx.contract = contract).map Prod.snd

theorem run_of_agree {e : Execution} (own : e.Local) {left right : MemoryStore}
    (agree : e.ctx.contract.Agree left right) :
    (e.run left).1 = (e.run right).1 ∧ e.ctx.contract.Agree (e.run left).2 (e.run right).2 := by
  obtain ⟨limits, ctx, program, host⟩ := e
  unfold run
  by_cases fits : ctx.args.length ≤ limits.maxArgsBytes
  · cases contract : ctx.contract.isContract with
    | false =>
      simp only [Limits.execute_of_account program host _ fits contract]
      exact ⟨trivial, agree⟩
    | true =>
      simp only [Limits.execute_of_contract program host _ fits contract, Limits.direct]
      obtain ⟨same, alike⟩ := Namespace.run_of_alike limits.maxRecordBytes contract own
        (Overlay.alike_new agree)
      generalize Namespace.run _ _ (Overlay.new left) = first at same alike ⊢
      generalize Namespace.run _ _ (Overlay.new right) = second at same alike ⊢
      obtain ⟨⟨ending, after⟩, o⟩ := first
      obtain ⟨_, o'⟩ := second
      cases same
      cases ending with
      | error cause => exact ⟨rfl, agree⟩
      | ok u =>
        obtain ⟨batch, written, written', done, done', agreeAfter⟩ := alike.commit
        dsimp only at done done' ⊢
        rw [done, done']
        exact ⟨rfl, agreeAfter⟩
  · simp only [Limits.execute_of_long_args program host _ (Nat.not_le.1 fits)]
    exact ⟨trivial, agree⟩

theorem agree_of_other (e : Execution) (store : MemoryStore) {name : Name}
    (other : name ≠ e.ctx.contract) : name.Agree (e.run store).2 store :=
  Limits.agree_of_execute e.limits e.ctx e.program e.host store other

theorem find?_run_of_not_owned (e : Execution) (store : MemoryStore) {raw : Bytes}
    (elsewhere : ¬ e.ctx.contract.Owns raw) : (e.run store).2.find? raw = store.find? raw :=
  Limits.find?_execute_of_not_owned e.limits e.program e.host store elsewhere

theorem agree_alone (contract : Name) {executions : List Execution}
    (own : ∀ e ∈ executions, e.Local) {left right : MemoryStore}
    (agree : contract.Agree left right) :
    let alone := executions.filter fun e => e.ctx.contract = contract
    outcomesOf contract executions left = (inTurn run alone right).1 ∧
      contract.Agree (inTurn run executions left).2 (inTurn run alone right).2 := by
  induction executions generalizing left right with
  | nil => exact ⟨rfl, agree⟩
  | cons e rest ih =>
    rw [List.forall_mem_cons] at own
    obtain ⟨ownFirst, ownRest⟩ := own
    unfold outcomesOf at ih ⊢
    rw [inTurn_cons, List.zip_cons_cons]
    -- another contract's call drops out on the right, and on the left it leaves what agrees
    by_cases mine : e.ctx.contract = contract
    · subst mine
      obtain ⟨same, agreeAfter⟩ := run_of_agree ownFirst agree
      obtain ⟨outcomes, agreeLast⟩ := ih ownRest agreeAfter
      simp only [List.filter_cons, decide_true, if_true, List.map_cons, inTurn_cons]
      exact ⟨congr (congrArg List.cons same) outcomes, agreeLast⟩
    · have agreeAfter := (e.agree_of_other left fun same => mine same.symm).trans agree
      obtain ⟨outcomes, agreeLast⟩ := ih ownRest agreeAfter
      simp only [List.filter_cons, decide_false, mine]
      exact ⟨outcomes, agreeLast⟩

theorem run_swap {first second : Execution} (own : first.Local) (own' : second.Local)
    (differ : first.ctx.contract ≠ second.ctx.contract) (store : MemoryStore) :
    (second.run (first.run store).2).1 = (second.run store).1 ∧
      (first.run (second.run store).2).1 = (first.run store).1 ∧
        (second.run (first.run store).2).2 = (first.run (second.run store).2).2 := by
  obtain ⟨same, agree⟩ := run_of_agree own (second.agree_of_other store differ)
  obtain ⟨same', agree'⟩ := run_of_agree own' (first.agree_of_other store differ.symm)
  refine ⟨same', same, SortedMap.ext_find? fun raw => ?_⟩
  -- a raw key is the first contract's, the second's, or neither's
  by_cases mine : first.ctx.contract.Owns raw
  · rw [second.agree_of_other _ differ raw mine, agree raw mine]
  · rw [first.find?_run_of_not_owned _ mine]
    by_cases yours : second.ctx.contract.Owns raw
    · exact agree' raw yours
    · rw [second.find?_run_of_not_owned _ yours, second.find?_run_of_not_owned _ yours,
        first.find?_run_of_not_owned _ mine]

/-- Calls without external reads are independent of calls of other contracts: in any run of calls,
those of one contract end as they do without the others, and leave the contract's rows and slots as
they do without the others; and neighbouring calls of two contracts can change places. -/
theorem calls_independent_of_interleaving (executions : List Execution) (store : MemoryStore)
    (own : ∀ e ∈ executions, e.Local) :
    (∀ contract : Name,
      let alone := executions.filter fun e => e.ctx.contract = contract
      outcomesOf contract executions store = (inTurn run alone store).1 ∧
        contract.Agree (inTurn run executions store).2 (inTurn run alone store).2) ∧
      ∀ earlier first second later, executions = earlier ++ first :: second :: later →
        first.ctx.contract ≠ second.ctx.contract →
        ∃ before a b behind final, before.length = earlier.length ∧
          inTurn run executions store = (before ++ a :: b :: behind, final) ∧
            inTurn run (earlier ++ second :: first :: later) store =
              (before ++ b :: a :: behind, final) := by
  refine ⟨fun contract => agree_alone contract own (contract.agree_refl store), ?_⟩
  rintro earlier first second later rfl differ
  have ownFirst := own first (by simp)
  have ownSecond := own second (by simp)
  let reached := (inTurn run earlier store).2
  obtain ⟨endsSecond, endsFirst, stores⟩ := run_swap ownFirst ownSecond differ reached
  refine ⟨(inTurn run earlier store).1, (first.run reached).1, (second.run reached).1,
    (inTurn run later (second.run (first.run reached).2).2).1,
    (inTurn run later (second.run (first.run reached).2).2).2, length_inTurn run earlier store,
    ?_, ?_⟩
  · rw [inTurn_append, inTurn_cons, inTurn_cons, endsSecond]
  · rw [inTurn_append, inTurn_cons, inTurn_cons, endsFirst, ← stores]

/-- A contract saves a value and finds it again, with another contract's save in between: the call
that looks for it ends well, and would have failed on any other value. -/
theorem save_is_found_past_other_contract :
    let call (contract : Name) (program : Call Unit) : Execution :=
      ⟨.default, ⟨"m", [], contract, ⟨"o"⟩⟩, program, Host.new⟩
    let a : Name := ⟨"$a@o"⟩
    let b : Name := ⟨"$b@o"⟩
    let saved := call a (liftM (Action.save "s" [1]))
    let other := call b (liftM (Action.save "s" [2]))
    let found := call a (do
      let value ← liftM (Action.load "s")
      Call.ensure (value == some [1]) "not found")
    let executions := [saved, other, found]
    let store : MemoryStore := SortedMap.empty
    let alone := executions.filter fun e => e.ctx.contract = a
    (∀ e ∈ executions, e.Local) ∧ a ≠ b ∧
      (outcomesOf a executions store).map (fun outcome => outcome.1.toOption) =
        [some ⟨"m", 1, 0⟩, some ⟨"m", 0, 0⟩] ∧
      outcomesOf a executions store = (inTurn run alone store).1 ∧
        a.Agree (inTurn run executions store).2 (inTurn run alone store).2 ∧
          ∃ before x y behind final, before.length = 0 ∧
            inTurn run executions store = (before ++ x :: y :: behind, final) ∧
              inTurn run [other, saved, found] store = (before ++ y :: x :: behind, final) := by
  intro call a b saved other found executions store alone
  have own : ∀ e ∈ executions, e.Local := by
    intro e mem
    simp only [executions, List.mem_cons, List.not_mem_nil, or_false] at mem
    rcases mem with rfl | rfl | rfl
    · exact ⟨id, fun _ => trivial⟩
    · exact ⟨id, fun _ => trivial⟩
    · refine ⟨id, fun reply => ?_⟩
      cases reply <;> trivial
  have differ : a ≠ b := by decide
  obtain ⟨projected, swapped⟩ := calls_independent_of_interleaving executions store own
  obtain ⟨outcomes, agree⟩ := projected a
  have ended : (outcomesOf a executions store).map (fun outcome => outcome.1.toOption) =
      [some ⟨"m", 1, 0⟩, some ⟨"m", 0, 0⟩] := by decide +kernel
  exact ⟨own, differ, ended, outcomes, agree, swapped [] saved other [found] rfl differ⟩

end Execution
end ContractStore
