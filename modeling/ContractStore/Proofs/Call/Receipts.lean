import Mathlib
import ContractStore.Proofs.Call.Transaction
import ContractStore.Proofs.Store.LastWrites

/-!
What a receipt counts. A recorded store writes down each operation that changes it and is otherwise
the store inside, so a program runs on it as it does without the record (`run_recorded`). What a call
did to its overlay is thus a list of operations, the batch of the overlay is what they come to, and a
committed call's receipt counts the keys that were last written and those that were last deleted.
-/
namespace ContractStore

structure Recorded (σ : Type) where
  inner : σ
  ops : List WriteOp

namespace Recorded
variable {σ : Type} [Store σ]

def start (store : σ) : Recorded σ := ⟨store, []⟩

def record (store : Recorded σ) (op : WriteOp) : Except StateError (Recorded σ) :=
  (op.perform store.inner).map fun after => ⟨after, store.ops ++ [op]⟩

instance : Store (Recorded σ) where
  get store key := Store.get store.inner key
  insert store key value := store.record (.insert key value)
  delete store key := store.record (.delete key)
  applyBatch store batch := store.record (.applyBatch batch)

theorem record_eq_ok {store after : Recorded σ} {op : WriteOp}
    (done : store.record op = .ok after) :
    op.perform store.inner = .ok after.inner ∧ after.ops = store.ops ++ [op] := by
  unfold record at done
  cases performed : op.perform store.inner with
  | error cause =>
    rw [performed] at done
    cases done
  | ok inner =>
    rw [performed] at done
    cases done
    exact ⟨rfl, rfl⟩

/-- The record is of all that was done since `first`. -/
def Since (first : σ) (store : Recorded σ) : Prop :=
  store.ops.foldlM WriteOp.perform first = .ok store.inner

theorem Since.record {first : σ} {store after : Recorded σ} {op : WriteOp}
    (since : Since first store) (done : store.record op = .ok after) : Since first after := by
  obtain ⟨performed, ops⟩ := record_eq_ok done
  unfold Since at since ⊢
  rw [ops, List.foldlM_append, since]
  change (op.perform store.inner >>= fun next => pure next) = Except.ok after.inner
  rw [performed]
  rfl

end Recorded

namespace Namespace
variable {σ α : Type} [Store σ]

theorem matched_record (store : Recorded σ) (op : WriteOp) :
    Matched (fun (recorded : Recorded σ) plain => recorded.inner = plain) (store.record op)
      (op.perform store.inner) := by
  unfold Recorded.record
  cases op.perform store.inner with
  | error cause => exact .error cause
  | ok after => exact .ok rfl

theorem simulates_recorded (n : Namespace) :
    Simulates n (fun _ => True) fun (recorded : Recorded σ) plain => recorded.inner = plain where
  get h _ := by cases h; rfl
  getExternal h _ _ _ := by cases h; rfl
  insert {recorded _ raw} h _ value := by
    cases h
    exact matched_record recorded (.insert raw value)
  delete {recorded _ raw} h _ := by
    cases h
    exact matched_record recorded (.delete raw)

theorem run_recorded (n : Namespace) (program : Program α) (store : σ) :
    let recorded := n.run program (Recorded.start store)
    (recorded.1, recorded.2.inner) = n.run program store ∧ Recorded.Since store recorded.2 := by
  intro recorded
  constructor
  · have same : (Recorded.start store).inner = store := rfl
    have alike := n.simulates_recorded.run (program.only_of_forall fun _ => trivial) same
    exact Prod.ext alike.1 alike.2
  · apply n.run_induction (Recorded.Since store) ?_ program (Recorded.start store) rfl
    intro before after effect since
    cases effect with
    | none => exact since
    | inserted own fits done => exact since.record done
    | deleted own done => exact since.record done

end Namespace

theorem encard_eq_length {α : Type} {s : Set α} {xs : List α} (distinct : xs.Nodup)
    (mem : ∀ x, x ∈ s ↔ x ∈ xs) : s.encard = xs.length := by
  classical
  have same : s = (xs.toFinset : Set α) := by
    ext x
    simp [mem]
  rw [same, Set.encard_coe_eq_coe_finsetCard, List.toFinset_card_of_nodup distinct]

namespace Batch
variable {ops : List WriteOp} {batch : Batch}

theorem LastWrites.encard_written (writes : batch.LastWrites ops) :
    {raw | ∃ value, WriteOp.last ops raw = some (some value)}.encard = batch.inserts.length := by
  have ascend : (batch.inserts.map Prod.fst).Pairwise fun a b => compare a b = .lt :=
    List.pairwise_map.2 writes.inserts_ascend
  rw [encard_eq_length (SortedMap.nodup_of_ascends ascend), List.length_map]
  intro raw
  simp [← writes.mem_inserts]

theorem LastWrites.encard_deleted (writes : batch.LastWrites ops) :
    {raw | WriteOp.last ops raw = some none}.encard = batch.deletes.length := by
  apply encard_eq_length (SortedMap.nodup_of_ascends writes.deletes_ascend)
  intro raw
  exact (writes.mem_deletes raw).symm

end Batch

namespace Limits
variable {σ : Type} [Store σ]

theorem receipt_of_execute {limits : Limits} {ctx : CallContext} {program : Call Unit}
    {host host' : Host} {store store' : σ} {receipt : Receipt}
    (committed : limits.execute ctx program host store = (.ok receipt, host', store')) :
    ∃ overlay, limits.direct ctx program host (Overlay.new store) = ((.ok (), host'), overlay) ∧
      overlay.commit = (.ok overlay.batch, store') ∧
        receipt = ⟨ctx.method, overlay.batch.inserts.length, overlay.batch.deletes.length⟩ := by
  by_cases fits : ctx.args.length ≤ limits.maxArgsBytes
  · cases contract : ctx.contract.isContract with
    | false =>
      rw [execute_of_account program host store fits contract] at committed
      cases committed
    | true =>
      rw [execute_of_contract program host store fits contract] at committed
      generalize limits.direct ctx program host (Overlay.new store) = ran at committed ⊢
      obtain ⟨⟨outcome, after⟩, overlay⟩ := ran
      cases outcome with
      | error cause => cases committed
      | ok u =>
        refine ⟨overlay, ?_⟩
        unfold Overlay.commit at committed ⊢
        cases applied : Store.applyBatch overlay.base overlay.batch with
        | error cause =>
          simp only [applied] at committed
          cases committed
        | ok written =>
          simp only [applied] at committed
          cases committed
          exact ⟨rfl, rfl, rfl⟩
  · rw [execute_of_long_args program host store (by omega)] at committed
    cases committed

/-- The batch of an overlay is the last write to each key, in ascending order, and comes to the same
in either order of its parts; and the receipt of a committed call counts the keys that the call's
last operation wrote, and those that it deleted. -/
theorem batch_and_receipt_are_last_writes :
    (∀ (store : σ) (ops : List WriteOp),
      ∃ o : Overlay σ, ops.foldlM WriteOp.perform (Overlay.new store) = .ok o ∧ o.base = store ∧
        o.batch.LastWrites ops ∧
        ∀ below : MemoryStore,
          MemoryStore.applyInsertsFirst below o.batch = MemoryStore.applyBatch below o.batch) ∧
      ∀ (limits : Limits) (ctx : CallContext) (program : Call Unit) (host host' : Host)
        (store store' : σ) (receipt : Receipt),
        limits.execute ctx program host store = (.ok receipt, host', store') →
          let recorded := limits.direct ctx program host (Recorded.start (Overlay.new store))
          let ops := recorded.2.ops
          (recorded.1, recorded.2.inner) = limits.direct ctx program host (Overlay.new store) ∧
            ops.foldlM WriteOp.perform (Overlay.new store) = .ok recorded.2.inner ∧
            {raw | ∃ value, WriteOp.last ops raw = some (some value)}.encard = receipt.writes ∧
            {raw | WriteOp.last ops raw = some none}.encard = receipt.deletes := by
  constructor
  · intro store ops
    obtain ⟨o, ran, base, _⟩ := Overlay.find?_pending_run ops (Overlay.new store)
    have writes := Overlay.lastWrites_of_run ran
    exact ⟨o, ran, base, writes, fun below => MemoryStore.applyInsertsFirst_eq below writes.apart⟩
  · intro limits ctx program host host' store store' receipt committed recorded ops
    obtain ⟨overlay, ended, _, rfl⟩ := receipt_of_execute committed
    obtain ⟨same, since⟩ := Namespace.run_recorded
      ⟨ctx.contract.account, ctx.contract.contract, limits.maxRecordBytes⟩ (program.run host)
      (Overlay.new store)
    have inner : recorded.2.inner = overlay := congrArg Prod.snd (same.trans ended)
    have writes := Overlay.lastWrites_of_run since
    change (recorded.2.inner).batch.LastWrites ops at writes
    rw [inner] at writes
    exact ⟨same, since, writes.encard_written, writes.encard_deleted⟩

/-- A slot that is saved twice, a row that is put in and taken out again, and a row that was there and
is deleted and put in again. -/
theorem overwritten_slot_counts_once :
    let ctx : CallContext := ⟨"m", [], ⟨"$c@o"⟩, ⟨"o"⟩⟩
    let action : Action Unit := do
      Action.save "s" [1]
      Action.insert "t" [8] [5]
      Action.delete "t" [9]
      Action.save "s" [2]
      Action.delete "t" [8]
      Action.insert "t" [9] [6]
    let store : MemoryStore := SortedMap.empty.insert [1, 1, 111, 1, 99, 1, 116, 9] [4]
    let after : MemoryStore := SortedMap.ofList
      [([1, 1, 111, 1, 99, 1, 116, 9], [6]), ([2, 1, 111, 1, 99, 1, 115], [2])]
    let ops := (Limits.default.direct ctx (liftM action) Host.new
      (Recorded.start (Overlay.new store))).2.ops
    Limits.default.execute ctx (liftM action) Host.new store = (.ok ⟨"m", 2, 1⟩, Host.new, after) ∧
      {raw | ∃ value, WriteOp.last ops raw = some (some value)}.encard = 2 ∧
        {raw | WriteOp.last ops raw = some none}.encard = 1 := by
  intro ctx action store after ops
  have committed : Limits.default.execute ctx (liftM action) Host.new store =
      (.ok ⟨"m", 2, 1⟩, Host.new, after) := by cbv
  obtain ⟨_, counts⟩ := batch_and_receipt_are_last_writes (σ := MemoryStore)
  obtain ⟨_, _, written, deleted⟩ := counts _ _ _ _ _ _ _ _ committed
  exact ⟨committed, written, deleted⟩

end Limits
end ContractStore
