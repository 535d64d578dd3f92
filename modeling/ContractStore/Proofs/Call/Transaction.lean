import ContractStore.Call.Executor
import ContractStore.Proofs.Program.Simulation
import ContractStore.Proofs.Store.Overlay

/-!
Running a call on an overlay and committing it is running it on the store itself, with what it
wrote taken back if it fails. An overlay and the store it stands for cannot be told apart by a
program (`Namespace.simulates_shows`), and the base of the overlay never moves.
-/
namespace ContractStore

namespace Namespace
variable {σ α : Type}

theorem simulates_shows (n : Namespace) : Simulates n (fun _ => True) Overlay.Shows where
  get {o _ raw} h _ := (o.get_eq_lookup raw).trans (congrArg Except.ok (h raw))
  getExternal {o _ _ _ _ _} h _ raw _ := (o.get_eq_lookup raw).trans (congrArg Except.ok (h raw))
  insert {_ _ raw} h _ value := .ok (Overlay.shows_insert h raw value)
  delete {_ _ raw} h _ := .ok (Overlay.shows_delete h raw)

theorem run_of_shows (n : Namespace) (program : Program α) {o : Overlay MemoryStore}
    {store : MemoryStore} (h : o.Shows store) :
    (n.run program o).1 = (n.run program store).1 ∧
      (n.run program o).2.Shows (n.run program store).2 :=
  n.simulates_shows.run (program.only_of_forall fun _ => trivial) h

theorem base_of_run [Store σ] (n : Namespace) (program : Program α) (o : Overlay σ) :
    (n.run program o).2.base = o.base := by
  refine n.run_induction (fun after => after.base = o.base) ?_ program o rfl
  intro before after effect kept
  cases effect with
  | none => exact kept
  | inserted own fits done => cases done; exact kept
  | deleted own done => cases done; exact kept

end Namespace

namespace Limits
variable {σ : Type}

/-- Runs a call's program as its contract on the store itself: what it writes is written at once,
and stays written if it fails. -/
def direct [Store σ] (limits : Limits) (ctx : CallContext) (program : Call Unit) (host : Host)
    (store : σ) : (Except ContractError Unit × Host) × σ :=
  Namespace.run ⟨ctx.contract.account, ctx.contract.contract, limits.maxRecordBytes⟩
    (program.run host) store

theorem execute_of_long_args [Store σ] {limits : Limits} {ctx : CallContext} (program : Call Unit)
    (host : Host) (store : σ) (long : limits.maxArgsBytes < ctx.args.length) :
    limits.execute ctx program host store =
      (.error (.argsTooLarge limits.maxArgsBytes ctx.args.length), host, store) := by
  simp [execute, checkArgsLen, long]

theorem execute_of_account [Store σ] {limits : Limits} {ctx : CallContext} (program : Call Unit)
    (host : Host) (store : σ) (fits : ctx.args.length ≤ limits.maxArgsBytes)
    (account : ctx.contract.isContract = false) :
    limits.execute ctx program host store =
      (.error (.state (.notAContract ctx.contract.text)), host, store) := by
  simp [execute, checkArgsLen, Nat.not_lt.2 fits, Namespace.ofName, account]

theorem execute_of_contract [Store σ] {limits : Limits} {ctx : CallContext} (program : Call Unit)
    (host : Host) (store : σ) (fits : ctx.args.length ≤ limits.maxArgsBytes)
    (contract : ctx.contract.isContract = true) :
    limits.execute ctx program host store =
      match limits.direct ctx program host (Overlay.new store) with
      | ((.error cause, after), _) => (.error cause, after, store)
      | ((.ok (), after), overlay) =>
        match overlay.commit with
        | (.ok batch, written) =>
          (.ok ⟨ctx.method, batch.inserts.length, batch.deletes.length⟩, after, written)
        | (.error cause, kept) => (.error (.state cause), after, kept) := by
  have short : limits.checkArgsLen ctx.args.length = .ok () := if_neg (Nat.not_lt.2 fits)
  have place : Namespace.ofName ctx.contract limits.maxRecordBytes =
      .ok ⟨ctx.contract.account, ctx.contract.contract, limits.maxRecordBytes⟩ := if_pos contract
  unfold execute
  rw [short, place]
  rfl

theorem direct_base [Store σ] (limits : Limits) (ctx : CallContext) (program : Call Unit)
    (host : Host) (store : σ) :
    (limits.direct ctx program host (Overlay.new store)).2.base = store :=
  Namespace.base_of_run _ _ _

/-- On a store in memory the overlay is out of the picture: a call that ends well leaves the store
that the direct run leaves. -/
theorem execute_eq_direct {limits : Limits} {ctx : CallContext} (program : Call Unit) (host : Host)
    (store : MemoryStore) (fits : ctx.args.length ≤ limits.maxArgsBytes)
    (contract : ctx.contract.isContract = true) :
    match limits.direct ctx program host store with
    | ((.ok (), after), written) =>
      ∃ receipt, limits.execute ctx program host store = (.ok receipt, after, written)
    | ((.error cause, after), _) =>
      limits.execute ctx program host store = (.error cause, after, store) := by
  rw [execute_of_contract program host store fits contract]
  obtain ⟨same, shows⟩ := Namespace.run_of_shows
    ⟨ctx.contract.account, ctx.contract.contract, limits.maxRecordBytes⟩ (program.run host)
    (Overlay.shows_new store)
  -- only what the two runs have in common is used from here on
  revert same shows
  unfold direct
  generalize Namespace.run _ (program.run host) (Overlay.new store) = onOverlay
  generalize Namespace.run _ (program.run host) store = onStore
  intro same shows
  obtain ⟨⟨outcome, after⟩, overlay⟩ := onOverlay
  obtain ⟨_, written⟩ := onStore
  cases same
  cases outcome with
  | error cause => rfl
  | ok u =>
    dsimp only
    rw [Overlay.commit_of_shows shows]
    exact ⟨_, rfl⟩

theorem store_of_execute_error [Store σ] {limits : Limits} {ctx : CallContext}
    (program : Call Unit) (host : Host) (store : σ) {cause : ContractError}
    (failed : (limits.execute ctx program host store).1 = .error cause) :
    (limits.execute ctx program host store).2.2 = store := by
  by_cases fits : ctx.args.length ≤ limits.maxArgsBytes
  · cases contract : ctx.contract.isContract with
    | false => rw [execute_of_account program host store fits contract]
    | true =>
      have base := limits.direct_base ctx program host store
      rw [execute_of_contract program host store fits contract] at failed ⊢
      revert failed base
      generalize limits.direct ctx program host (Overlay.new store) = run
      obtain ⟨⟨outcome, after⟩, overlay⟩ := run
      intro failed base
      cases outcome with
      | error cause => rfl
      | ok u =>
        dsimp only at failed ⊢
        cases commit : overlay.commit with
        | mk result committed =>
          cases result with
          | ok batch => simp [commit] at failed
          | error refusal =>
            have refused : overlay.commit.1 = .error refusal := by rw [commit]
            have kept := Overlay.base_of_commit_error refused
            rw [commit] at kept
            exact kept.trans base
  · rw [execute_of_long_args program host store (by omega)]

theorem execute_of_refused_batch [Store σ] {limits : Limits} {ctx : CallContext}
    (program : Call Unit) (host : Host) (store : σ) (fits : ctx.args.length ≤ limits.maxArgsBytes)
    (contract : ctx.contract.isContract = true) {after : Host} {overlay : Overlay σ}
    (ended : limits.direct ctx program host (Overlay.new store) = ((.ok (), after), overlay))
    {cause : StateError} (refused : Store.applyBatch store overlay.batch = .error cause) :
    limits.execute ctx program host store = (.error (.state cause), after, store) := by
  have base : overlay.base = store := by
    have := limits.direct_base ctx program host store
    rwa [ended] at this
  rw [execute_of_contract program host store fits contract, ended]
  simp [Overlay.commit, base, refused]

/-- Calls are transactions. A call that is let through ends well exactly when its direct run on the
store does, and then leaves what that run leaves; otherwise, be it rejected, aborted or refused by
the store at its commit, the call leaves the store as it was. -/
theorem execute_refines_direct_run (limits : Limits) (ctx : CallContext) (program : Call Unit)
    (host : Host) :
    (ctx.args.length ≤ limits.maxArgsBytes → ctx.contract.isContract = true →
      ∀ store : MemoryStore,
        match limits.direct ctx program host store with
        | ((.ok (), after), written) =>
          ∃ receipt, limits.execute ctx program host store = (.ok receipt, after, written)
        | ((.error cause, after), _) =>
          limits.execute ctx program host store = (.error cause, after, store)) ∧
    (∀ {σ : Type} [Store σ] (store : σ),
      (limits.maxArgsBytes < ctx.args.length →
        limits.execute ctx program host store =
          (.error (.argsTooLarge limits.maxArgsBytes ctx.args.length), host, store)) ∧
      (ctx.args.length ≤ limits.maxArgsBytes → ctx.contract.isContract = false →
        limits.execute ctx program host store =
          (.error (.state (.notAContract ctx.contract.text)), host, store)) ∧
      (ctx.args.length ≤ limits.maxArgsBytes → ctx.contract.isContract = true →
        ∀ after overlay cause,
          limits.direct ctx program host (Overlay.new store) = ((.ok (), after), overlay) →
          Store.applyBatch store overlay.batch = .error cause →
          limits.execute ctx program host store = (.error (.state cause), after, store)) ∧
      ∀ cause, (limits.execute ctx program host store).1 = .error cause →
        (limits.execute ctx program host store).2.2 = store) := by
  refine ⟨fun fits contract store => execute_eq_direct program host store fits contract, ?_⟩
  intro σ _ store
  refine ⟨execute_of_long_args program host store, execute_of_account program host store, ?_, ?_⟩
  · intro fits contract after overlay cause ended refused
    exact execute_of_refused_batch program host store fits contract ended refused
  · intro cause failed
    exact store_of_execute_error program host store failed

theorem saved_slot_is_committed :
    ∃ receipt, Limits.default.execute ⟨"m", [], ⟨"$c@o"⟩, ⟨"o"⟩⟩ (liftM (Action.save "s" [7]))
      Host.new (SortedMap.empty : MemoryStore) =
      (.ok receipt, Host.new, SortedMap.empty.insert [2, 1, 111, 1, 99, 1, 115] [7]) :=
  (execute_refines_direct_run Limits.default ⟨"m", [], ⟨"$c@o"⟩, ⟨"o"⟩⟩
    (liftM (Action.save "s" [7])) Host.new).1 (by decide) (by decide) SortedMap.empty

end Limits
end ContractStore
