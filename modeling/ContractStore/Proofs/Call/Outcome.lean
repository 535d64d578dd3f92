import ContractStore.Proofs.Call.Dispatch
import ContractStore.Proofs.Call.Transaction
import ContractStore.Proofs.Program.Action

/-!
Calls that end well. A call ends well exactly if each of its steps does, so what it did can be taken
apart step by step; and what a committed call did to a store in memory is what its direct run did.
-/
namespace ContractStore

namespace Call
variable {α β : Type} {n : Namespace} {host host' : Host} {store store' : MemoryStore}

/-- Run directly, the call gives `x` and leaves the host and the store as they are at the end. -/
def Ends (n : Namespace) (call : Call α) (host : Host) (store : MemoryStore) (x : α) (host' : Host)
    (store' : MemoryStore) : Prop :=
  n.run (call.run host) store = ((.ok x, host'), store')

theorem run_bind (n : Namespace) (call : Call α) (next : α → Call β) (host : Host)
    (store : MemoryStore) :
    n.run ((call >>= next).run host) store =
      match n.run (call.run host) store with
      | ((.ok x, between), stored) => n.run ((next x).run between) stored
      | ((.error cause, between), stored) => ((.error cause, between), stored) := by
  unfold Namespace.run
  change ((call.run host).bind _).run n.answer store = _
  rw [Program.run_bind]
  generalize (call.run host).run n.answer store = first
  obtain ⟨⟨result, between⟩, stored⟩ := first
  cases result <;> rfl

theorem run_action (n : Namespace) (action : Action α) (host : Host) (store : MemoryStore) :
    n.run ((liftM action : Call α).run host) store =
      (((n.perform action store).1, host), (n.perform action store).2) := by
  unfold Namespace.perform Namespace.run
  change (action.run.bind _).run n.answer store = _
  rw [Program.run_bind]
  rfl

theorem run_ensure (n : Namespace) (condition : Bool) (what : String) (host : Host)
    (store : MemoryStore) :
    n.run ((Call.ensure condition what).run host) store =
      ((ContractStore.ensure condition what, host), store) := rfl

theorem run_dispatch (n : Namespace) {contract : Contract} {ctx : CallContext} {m : Method}
    {args : m.params.Carrier} (named : contract.methods.find? (·.name == ctx.method) = some m)
    (given : (WireType.tuple m.params).unpack ctx.args = .ok args) (host : Host)
    (store : MemoryStore) :
    n.run ((contract.dispatch ctx).run host) store = n.run ((m.body args ctx).run host) store := by
  rw [Contract.dispatch_of_unpacked named given]

theorem ends_bind {call : Call α} {next : α → Call β} {y : β}
    (h : Ends n (call >>= next) host store y host' store') :
    ∃ x between stored, Ends n call host store x between stored ∧
      Ends n (next x) between stored y host' store' := by
  unfold Ends at h ⊢
  rw [run_bind] at h
  split at h
  · rename_i x between stored ran
    exact ⟨x, between, stored, ran, h⟩
  · cases h

theorem ends_action {action : Action α} {x : α}
    (h : Ends n (liftM action) host store x host' store') :
    host' = host ∧ n.perform action store = (.ok x, store') := by
  unfold Ends at h
  rw [run_action] at h
  generalize n.perform action store = done at h
  obtain ⟨result, stored⟩ := done
  cases h
  exact ⟨rfl, rfl⟩

theorem ends_ensure {condition : Bool} {what : String} {u : Unit}
    (h : Ends n (Call.ensure condition what) host store u host' store') :
    condition = true ∧ store' = store := by
  cases condition with
  | true =>
    cases h
    exact ⟨rfl, rfl⟩
  | false => cases h

theorem ends_requireAuth {account : Name} {u : Unit}
    (h : Ends n (Call.requireAuth account) host store u host' store') :
    account ∈ host.authorized ∧ host' = host ∧ store' = store := by
  change ((host.requireAuth account, host), store) = _ at h
  unfold Host.requireAuth at h
  split at h
  · rename_i authorized
    cases h
    exact ⟨authorized, rfl, rfl⟩
  · cases h

theorem ends_dispatch {contract : Contract} {ctx : CallContext} {u : Unit}
    (h : Ends n (contract.dispatch ctx) host store u host' store') :
    ∃ m ∈ contract.methods, m.name = ctx.method ∧
      ∃ args, (WireType.tuple m.params).unpack ctx.args = .ok args ∧
        Ends n (m.body args ctx) host store u host' store' := by
  unfold Contract.dispatch at h
  split at h
  · cases h
  · rename_i m found
    obtain ⟨args, between, stored, first, rest⟩ := ends_bind h
    obtain ⟨rfl, looked⟩ := ends_action first
    obtain ⟨unpacked, rfl⟩ := Namespace.perform_ofCodec_eq_ok looked
    have named : m.name = ctx.method := by simpa using List.find?_some found
    exact ⟨m, List.mem_of_find?_eq_some found, named, args, unpacked, rest⟩

end Call

namespace Limits
variable {limits : Limits} {ctx : CallContext} {program : Call Unit} {host host' : Host}
  {store store' : MemoryStore}

theorem execute_of_ends (fits : ctx.args.length ≤ limits.maxArgsBytes)
    (contract : ctx.contract.isContract = true)
    (ended : Call.Ends (ctx.contract.home limits.maxRecordBytes) program host store () host'
      store') :
    ∃ receipt, limits.execute ctx program host store = (.ok receipt, host', store') := by
  have ran := execute_eq_direct program host store fits contract
  have direct : limits.direct ctx program host store = ((.ok (), host'), store') := ended
  rw [direct] at ran
  exact ran

theorem execute_of_failed {cause : ContractError} (fits : ctx.args.length ≤ limits.maxArgsBytes)
    (contract : ctx.contract.isContract = true)
    (failed : (ctx.contract.home limits.maxRecordBytes).run (program.run host) store =
      ((.error cause, host'), store')) :
    limits.execute ctx program host store = (.error cause, host', store) := by
  have ran := execute_eq_direct program host store fits contract
  have direct : limits.direct ctx program host store = ((.error cause, host'), store') := failed
  rw [direct] at ran
  exact ran

end Limits

theorem Limits.ends_of_execute {limits : Limits} {ctx : CallContext} {program : Call Unit}
    {host host' : Host} {store store' : MemoryStore} {receipt : Receipt}
    (h : limits.execute ctx program host store = (.ok receipt, host', store')) :
    ctx.contract.isContract = true ∧
      Call.Ends ⟨ctx.contract.account, ctx.contract.contract, limits.maxRecordBytes⟩ program host
        store () host' store' := by
  by_cases fits : ctx.args.length ≤ limits.maxArgsBytes
  · cases contract : ctx.contract.isContract with
    | false =>
      rw [execute_of_account program host store fits contract] at h
      cases h
    | true =>
      refine ⟨rfl, ?_⟩
      have ran := execute_eq_direct program host store fits contract
      unfold direct at ran
      unfold Call.Ends
      generalize Namespace.run _ (program.run host) store = done at ran
      obtain ⟨⟨outcome, after⟩, written⟩ := done
      cases outcome with
      | error cause =>
        rw [h] at ran
        cases ran
      | ok u =>
        obtain ⟨receipt', committed⟩ := ran
        cases h.symm.trans committed
        rfl
  · rw [execute_of_long_args program host store (by omega)] at h
    cases h

end ContractStore
