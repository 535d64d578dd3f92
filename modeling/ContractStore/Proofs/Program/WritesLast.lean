import ContractStore.Proofs.Program.Namespace
import ContractStore.Proofs.Program.Simulation

/-!
Actions that write once, at the end. Such an action makes reads, and after them one write or none;
if the write is done the action succeeds, and nothing follows it that could fail. So it changes
nothing or succeeds, on any store (`WritesLast.effect`, `WritesLast.unchanged`).
-/
namespace ContractStore

namespace StoreCall

def Reads : StoreCall → Prop
  | .query .. | .queryExternal .. | .load .. => True
  | .insert .. | .update .. | .delete .. | .save .. => False

def Refused : (request : StoreCall) → request.Reply → Prop
  | .query .., reply | .queryExternal .., reply | .load .., reply | .insert .., reply
  | .update .., reply | .delete .., reply | .save .., reply => ∃ cause, reply = .error cause

end StoreCall

def Action.ReadsOnly {α : Type} (action : Action α) : Prop := Program.Only StoreCall.Reads action

section Reads
variable {α β : Type}

theorem readsOnly_pure (x : α) : (pure x : Action α).ReadsOnly := trivial

theorem readsOnly_throw (cause : ContractError) : (throw cause : Action α).ReadsOnly := trivial

theorem readsOnly_ofCodec (result : Except CodecError α) : (Action.ofCodec result).ReadsOnly :=
  trivial

theorem readsOnly_query (table : String) (key : Bytes) : (Action.query table key).ReadsOnly :=
  ⟨trivial, fun _ => trivial⟩

theorem readsOnly_load (slot : String) : (Action.load slot).ReadsOnly := ⟨trivial, fun _ => trivial⟩

theorem readsOnly_bind {action : Action α} {next : α → Action β} (first : action.ReadsOnly)
    (later : ∀ x, (next x).ReadsOnly) : (action >>= next).ReadsOnly := by
  refine Program.only_bind first fun result => ?_
  cases result with
  | error cause => exact readsOnly_throw cause
  | ok x => exact later x

end Reads

namespace Namespace
variable {α β σ : Type}

/-- A program of the contract that reads, and then changes at most one of `place`. Once the change
is done it ends, and has succeeded. -/
inductive WritesLast (n : Namespace) (place : Bytes → Prop) :
    Program (Except ContractError α) → Prop where
  | done (result : Except ContractError α) : WritesLast n place (.done result)
  | read {request : StoreCall} {next : request.Reply → Program (Except ContractError α)}
      (reads : request.Reads) (later : ∀ reply, WritesLast n place (next reply)) :
      WritesLast n place (.call request next)
  | write {request : StoreCall} {next : request.Reply → Program (Except ContractError α)}
      (there : ∀ raw, n.Changes request raw → place raw)
      (last : ∀ reply, ∃ result, next reply = .done result ∧
        ∀ cause, result = .error cause → request.Refused reply) :
      WritesLast n place (.call request next)

section Steps
variable {n : Namespace} {place : Bytes → Prop} {action : Action α} {next : α → Action β}

theorem writesLast_of_reads (reads : action.ReadsOnly) : n.WritesLast place action.run := by
  unfold Action.ReadsOnly at reads
  change n.WritesLast place action
  induction action with
  | done result => exact .done result
  | call request rest ih => exact .read reads.1 fun reply => ih reply (reads.2 reply)

theorem writesLast_bind (first : action.ReadsOnly) (later : ∀ x, n.WritesLast place (next x).run) :
    n.WritesLast place (action >>= next).run := by
  unfold Action.ReadsOnly at first
  change n.WritesLast place (Program.bind action _)
  induction action with
  | done result =>
    cases result with
    | error cause => exact .done (.error cause)
    | ok x => exact later x
  | call request rest ih => exact .read first.1 fun reply => ih reply (first.2 reply)

theorem writesLast_ofCodec_bind {result : Except CodecError α}
    (later : ∀ x, result = .ok x → n.WritesLast place (next x).run) :
    n.WritesLast place (Action.ofCodec result >>= next).run := by
  cases result with
  | error cause => exact .done (.error (.codec cause))
  | ok x => exact later x rfl

theorem WritesLast.then_return {program : Program (Except ContractError α)}
    (writes : n.WritesLast place program) (y : β) :
    n.WritesLast place ((ExceptT.mk program : Action α) >>= fun _ => pure y).run := by
  change n.WritesLast place (Program.bind program _)
  induction writes with
  | done result =>
    cases result with
    | error cause => exact .done (.error cause)
    | ok x => exact .done (.ok y)
  | read reads later ih => exact .read reads ih
  | write there last =>
    refine .write there fun reply => ?_
    obtain ⟨result, ended, refused⟩ := last reply
    rw [ended]
    cases result with
    | error cause => exact ⟨.error cause, rfl, fun _ _ => refused cause rfl⟩
    | ok x => exact ⟨.ok y, rfl, fun _ failed => nomatch failed⟩

theorem error_of_mapError {reply : Except StateError α} {cause : ContractError}
    (failed : reply.mapError ContractError.state = .error cause) :
    ∃ cause, reply = .error cause := by
  cases reply with
  | error cause => exact ⟨cause, rfl⟩
  | ok x => cases failed

theorem writesLast_insert {table : String} {key : Bytes} (record : Bytes)
    (there : ∀ raw, n.rowKey table key = .ok raw → place raw) :
    n.WritesLast place (Action.insert table key record).run :=
  .write there fun _ => ⟨_, rfl, fun _ failed => error_of_mapError failed⟩

theorem writesLast_update {table : String} {key : Bytes} (record : Bytes)
    (there : ∀ raw, n.rowKey table key = .ok raw → place raw) :
    n.WritesLast place (Action.update table key record).run :=
  .write there fun _ => ⟨_, rfl, fun _ failed => error_of_mapError failed⟩

theorem writesLast_delete {table : String} {key : Bytes}
    (there : ∀ raw, n.rowKey table key = .ok raw → place raw) :
    n.WritesLast place (Action.delete table key).run :=
  .write there fun _ => ⟨_, rfl, fun _ failed => error_of_mapError failed⟩

theorem writesLast_save {slot : String} (value : Bytes)
    (there : ∀ raw, n.slotKey slot = .ok raw → place raw) :
    n.WritesLast place (Action.save slot value).run :=
  .write there fun _ => ⟨_, rfl, fun _ failed => error_of_mapError failed⟩

end Steps

theorem change_of_error {result : Except StateError σ} {store : σ} {cause : StateError}
    (failed : (change result store).1 = .error cause) : (change result store).2 = store := by
  cases result with
  | error cause => rfl
  | ok after => cases failed

section Run
variable [Store σ] {n : Namespace} {place : Bytes → Prop}
  {program : Program (Except ContractError α)}

theorem answer_of_refused (n : Namespace) {request : StoreCall} {store : σ}
    (refused : request.Refused (n.answer request store).1) :
    (n.answer request store).2 = store := by
  cases request with
  | query | queryExternal | load => rfl
  | insert | update | delete | save =>
    obtain ⟨cause, failed⟩ := refused
    exact change_of_error failed

theorem run_of_reads (n : Namespace) {request : StoreCall} (reads : request.Reads)
    (next : request.Reply → Program β) (store : σ) :
    n.run (.call request next) store = n.run (next (n.answer request store).1) store := by
  cases request with
  | query | queryExternal | load => rfl
  | insert | update | delete | save => exact reads.elim

theorem run_of_done (n : Namespace) {request : StoreCall} {next : request.Reply → Program β}
    {store : σ} {result : β} (ended : next (n.answer request store).1 = .done result) :
    n.run (.call request next) store = (result, (n.answer request store).2) := by
  change (next (n.answer request store).1).run n.answer _ = _
  rw [ended]
  rfl

theorem WritesLast.effect (writes : n.WritesLast place program) (store : σ) :
    n.Effect place store (n.run program store).2 := by
  induction writes with
  | done result => exact .none
  | read reads later ih =>
    rw [n.run_of_reads reads]
    exact ih _
  | @write request next there last =>
    obtain ⟨result, ended, _⟩ := last (n.answer request store).1
    rw [n.run_of_done ended]
    exact (n.effect_of_answer request store).mono there

theorem WritesLast.unchanged (writes : n.WritesLast place program) {store : σ}
    {cause : ContractError} (failed : (n.run program store).1 = .error cause) :
    (n.run program store).2 = store := by
  induction writes with
  | done result => rfl
  | read reads later ih =>
    rw [n.run_of_reads reads] at failed ⊢
    exact ih _ failed
  | @write request next there last =>
    obtain ⟨result, ended, refused⟩ := last (n.answer request store).1
    rw [n.run_of_done ended] at failed ⊢
    exact n.answer_of_refused (refused cause failed)

theorem run_of_readsOnly (n : Namespace) {action : Action α} (reads : action.ReadsOnly)
    (store : σ) : n.run action.run store = ((n.run action.run store).1, store) := by
  have nowhere : n.WritesLast (fun _ => False) action.run := writesLast_of_reads reads
  have effect := nowhere.effect store
  generalize n.run action.run store = done at effect ⊢
  obtain ⟨result, after⟩ := done
  cases effect with
  | none => rfl
  | inserted own fits done => exact own.elim
  | deleted own done => exact own.elim

end Run
end Namespace
end ContractStore
