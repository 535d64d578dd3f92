import ContractStore.Proofs.Call.Outcome
import ContractStore.Proofs.Table.CodecSafe

/-!
Calls that do not fail over the form of a value. If no method of a contract does, once its arguments
are unpacked, then such a failure of a call is about the arguments.
-/
namespace ContractStore

namespace Call
variable {α β : Type} {n : Namespace} {store : MemoryStore}

def CodecSafe (n : Namespace) (call : Call α) (store : MemoryStore) : Prop :=
  ∀ host cause, (n.run (call.run host) store).1.1 ≠ .error (.codec cause)

theorem codecSafe_bind {call : Call α} {next : α → Call β} (first : CodecSafe n call store)
    (later : ∀ host x between stored, Ends n call host store x between stored →
      CodecSafe n (next x) stored) : CodecSafe n (call >>= next) store := by
  intro host cause failed
  rw [run_bind] at failed
  split at failed
  · rename_i x between stored ran
    exact later host x between stored ran between cause failed
  · rename_i reason between stored ran
    cases failed
    exact first host cause (congrArg (fun done => done.1.1) ran)

theorem codecSafe_action {action : Action α} (safe : n.CodecSafe action store) :
    CodecSafe n (liftM action) store := by
  intro host cause failed
  rw [run_action] at failed
  exact safe cause failed

theorem codecSafe_ensure (condition : Bool) (what : String) :
    CodecSafe n (Call.ensure condition what) store := by
  intro host cause failed
  cases condition <;> cases failed

theorem codecSafe_requireAuth (account : Name) :
    CodecSafe n (Call.requireAuth account) store := by
  intro host cause failed
  change host.requireAuth account = _ at failed
  unfold Host.requireAuth at failed
  split at failed <;> cases failed

theorem codecSafe_requireAuth_then {account : Name} {next : Unit → Call α}
    (later : CodecSafe n (next ()) store) :
    CodecSafe n (Call.requireAuth account >>= next) store := by
  refine codecSafe_bind (codecSafe_requireAuth account) fun host _ between stored asked => ?_
  obtain ⟨_, rfl, rfl⟩ := ends_requireAuth asked
  exact later

theorem codecSafe_ensure_then {condition : Bool} {what : String} {next : Unit → Call α}
    (later : condition = true → CodecSafe n (next ()) store) :
    CodecSafe n (Call.ensure condition what >>= next) store := by
  refine codecSafe_bind (codecSafe_ensure condition what) fun host _ between stored checked => ?_
  obtain ⟨holds, rfl⟩ := ends_ensure checked
  exact later holds

theorem codecSafe_assertion (what : String) :
    CodecSafe n (throw (.assertion what) : Call α) store := by
  intro host cause failed
  cases failed

theorem unpack_of_dispatch {contract : Contract} {ctx : CallContext} {host : Host}
    {cause : CodecError}
    (safe : ∀ m ∈ contract.methods, m.name = ctx.method →
      ∀ args, (WireType.tuple m.params).unpack ctx.args = .ok args →
        CodecSafe n (m.body args ctx) store)
    (failed : (n.run ((contract.dispatch ctx).run host) store).1.1 = .error (.codec cause)) :
    ∃ m ∈ contract.methods, m.name = ctx.method ∧
      (WireType.tuple m.params).unpack ctx.args = .error cause := by
  unfold Contract.dispatch at failed
  split at failed
  · cases failed
  · rename_i m found
    have mem := List.mem_of_find?_eq_some found
    have named : m.name = ctx.method := by simpa using List.find?_some found
    cases unpacked : (WireType.tuple m.params).unpack ctx.args with
    | error reason =>
      rw [unpacked] at failed
      cases failed
      exact ⟨m, mem, named, unpacked⟩
    | ok args =>
      rw [unpacked] at failed
      exact absurd failed (safe m mem named args unpacked host cause)

end Call

namespace Limits
variable {limits : Limits} {ctx : CallContext} {host : Host} {store : MemoryStore}
  {cause : CodecError}

theorem direct_of_execute_codec {program : Call Unit}
    (failed : (limits.execute ctx program host store).1 = .error (.codec cause)) :
    (limits.direct ctx program host store).1.1 = .error (.codec cause) := by
  by_cases fits : ctx.args.length ≤ limits.maxArgsBytes
  · cases contract : ctx.contract.isContract with
    | false =>
      rw [execute_of_account program host store fits contract] at failed
      cases failed
    | true =>
      have ran := execute_eq_direct program host store fits contract
      generalize limits.direct ctx program host store = done at ran
      obtain ⟨⟨outcome, after⟩, written⟩ := done
      cases outcome with
      | ok u =>
        obtain ⟨receipt, committed⟩ := ran
        rw [committed] at failed
        cases failed
      | error reason =>
        rw [ran] at failed
        cases failed
        rfl
  · rw [execute_of_long_args program host store (by omega)] at failed
    cases failed

theorem unpack_of_call {contract : Contract}
    (safe : ∀ m ∈ contract.methods, m.name = ctx.method →
      ∀ args, (WireType.tuple m.params).unpack ctx.args = .ok args →
        Call.CodecSafe (ctx.contract.home limits.maxRecordBytes) (m.body args ctx) store)
    (failed : (limits.call contract ctx host store).1 = .error (.codec cause)) :
    ∃ m ∈ contract.methods, m.name = ctx.method ∧
      (WireType.tuple m.params).unpack ctx.args = .error cause :=
  Call.unpack_of_dispatch safe (direct_of_execute_codec failed)

end Limits
end ContractStore
