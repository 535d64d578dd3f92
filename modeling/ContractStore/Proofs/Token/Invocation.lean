import ContractStore.Contracts.Token
import ContractStore.Proofs.Call.Outcome
import ContractStore.Proofs.Table.Outcome

/-!
Calls of a token. The steps of a method that ended well are told apart once for each method
(`ends_create` and the lemmas after it). A call that commits has run one of the methods to its end,
and any other call leaves the store.
-/
namespace ContractStore.Token

section Methods
variable {contract : Name} {limit : Nat} {host host' : Host} {before after : MemoryStore}
  {ctx : CallContext}

theorem ends_credit {who : Name} {amount : Amount}
    (h : Call.Ends (contract.home limit) (credit who amount) host before () host' after) :
    ∃ found looked, (contract.home limit).perform (balanceOf who) before = (.ok found, looked) ∧
      (contract.home limit).perform (setBalance who (found.saturatingAdd amount)) looked =
        (.ok (), after) := by
  obtain ⟨found, _, looked, seen, rest⟩ := Call.ends_bind h
  obtain ⟨_, read⟩ := Call.ends_action seen
  obtain ⟨_, written⟩ := Call.ends_action rest
  exact ⟨found, looked, read, written⟩

theorem ends_debit {who : Name} {amount : Amount}
    (h : Call.Ends (contract.home limit) (debit who amount) host before () host' after) :
    ∃ found left looked,
      (contract.home limit).perform (balanceOf who) before = (.ok found, looked) ∧
        found.checkedSub amount = some left ∧
          (contract.home limit).perform (setBalance who left) looked = (.ok (), after) := by
  obtain ⟨found, _, looked, seen, rest⟩ := Call.ends_bind h
  obtain ⟨_, read⟩ := Call.ends_action seen
  cases enough : found.checkedSub amount with
  | none =>
    rw [enough] at rest
    cases rest
  | some left =>
    rw [enough] at rest
    obtain ⟨_, written⟩ := Call.ends_action rest
    exact ⟨found, left, looked, read, enough, written⟩

theorem ends_create {symbol : String} {totalSupply : Amount}
    (h : Call.Ends (contract.home limit) (create symbol totalSupply ctx) host before () host'
      after) :
    ⟨ctx.owner⟩ ∈ host.authorized ∧
      (contract.home limit).perform stats.exists? before = (.ok false, before) ∧
        ∃ row between middle,
          (contract.home limit).perform (stats.getOrCreate (Stats.mk symbol totalSupply)) before =
            (.ok row, middle) ∧
          Call.Ends (contract.home limit) (credit ⟨ctx.owner⟩ totalSupply) between middle () host'
            after := by
  obtain ⟨_, _, _, asked, allowed⟩ := Call.ends_bind h
  obtain ⟨authorized, rfl, rfl⟩ := Call.ends_requireAuth asked
  obtain ⟨present, _, looked, seen, unseen⟩ := Call.ends_bind allowed
  obtain ⟨_, found⟩ := Call.ends_action seen
  obtain ⟨rfl, _⟩ := Namespace.exists_eq_ok found
  obtain ⟨_, _, _, checked, absent⟩ := Call.ends_bind unseen
  obtain ⟨missing, rfl⟩ := Call.ends_ensure checked
  obtain ⟨row, between, middle, made, received⟩ := Call.ends_bind absent
  obtain ⟨_, created⟩ := Call.ends_action made
  have no : present = false := by simpa using missing
  subst no
  exact ⟨authorized, found, row, between, middle, created, received⟩

theorem ends_transfer {target : Name} {amount : Amount}
    (h : Call.Ends (contract.home limit) (transfer target amount ctx) host before () host' after) :
    ctx.caller ∈ host.authorized ∧ ∃ between middle,
      Call.Ends (contract.home limit) (debit ctx.caller amount) host before () between middle ∧
        Call.Ends (contract.home limit) (credit target amount) between middle () host' after := by
  obtain ⟨_, _, _, asked, rest⟩ := Call.ends_bind h
  obtain ⟨authorized, rfl, rfl⟩ := Call.ends_requireAuth asked
  obtain ⟨_, between, middle, paid, received⟩ := Call.ends_bind rest
  exact ⟨authorized, between, middle, paid, received⟩

/-- One payment of an airdrop: the recipient is credited before the owner pays. -/
def pay (owner recipient : Name) (amount : Amount) : Call Unit := do
  credit recipient amount
  debit owner amount

theorem ends_airdrop {recipients : List Name} {amount : Amount}
    (h : Call.Ends (contract.home limit) (airdrop recipients amount ctx) host before () host'
      after) :
    ⟨ctx.owner⟩ ∈ host.authorized ∧
      Call.Ends (contract.home limit)
        (recipients.forM fun recipient => pay ⟨ctx.owner⟩ recipient amount) host before () host'
        after := by
  obtain ⟨_, _, _, asked, payments⟩ := Call.ends_bind h
  obtain ⟨authorized, rfl, rfl⟩ := Call.ends_requireAuth asked
  exact ⟨authorized, payments⟩

theorem ends_pay {owner recipient : Name} {amount : Amount} {u : Unit}
    (h : Call.Ends (contract.home limit) (pay owner recipient amount) host before u host' after) :
    ∃ between middle,
      Call.Ends (contract.home limit) (credit recipient amount) host before () between middle ∧
        Call.Ends (contract.home limit) (debit owner amount) between middle () host' after := by
  obtain ⟨_, between, middle, received, paid⟩ := Call.ends_bind h
  exact ⟨between, middle, received, paid⟩

theorem ends_close
    (h : Call.Ends (contract.home limit) (close ctx) host before () host' after) :
    ∃ looked, (contract.home limit).perform (balanceOf ctx.caller) before = (.ok 0, looked) ∧
      (contract.home limit).perform (balances.remove ctx.caller) looked = (.ok (), after) := by
  obtain ⟨found, _, looked, seen, rest⟩ := Call.ends_bind h
  obtain ⟨_, read⟩ := Call.ends_action seen
  obtain ⟨_, _, _, checked, removal⟩ := Call.ends_bind rest
  obtain ⟨empty, rfl⟩ := Call.ends_ensure checked
  obtain ⟨_, removed⟩ := Call.ends_action removal
  have nothing : found = 0 := eq_of_beq empty
  subst nothing
  exact ⟨_, read, removed⟩

end Methods

structure Invocation where
  limits : Limits
  method : String
  args : Bytes
  caller : Name
  host : Host

namespace Invocation

def context (call : Invocation) (contract : Name) : CallContext :=
  ⟨call.method, call.args, contract, call.caller⟩

def execute (call : Invocation) (contract : Name) (store : MemoryStore) :
    Except ContractError Receipt × Host × MemoryStore :=
  call.limits.call Token.contract (call.context contract) call.host store

def storeAfter (call : Invocation) (contract : Name) (store : MemoryStore) : MemoryStore :=
  (call.execute contract store).2.2

def committed (call : Invocation) (contract : Name) (store : MemoryStore) : Bool :=
  (call.execute contract store).1.isOk

def Runs (call : Invocation) (contract : Name) (body : CallContext → Call Unit)
    (before after : MemoryStore) : Prop :=
  Call.Ends ((call.context contract).contract.home call.limits.maxRecordBytes)
    (body (call.context contract)) call.host before () (call.execute contract before).2.1 after

/-- What a committed call did, method by method. -/
inductive Done (call : Invocation) (contract : Name) (before after : MemoryStore) : Prop where
  | create (symbol : String) (totalSupply : Amount) (named : call.method = "create")
      (ran : call.Runs contract (create symbol totalSupply) before after)
  | transfer (target : Name) (amount : Amount) (named : call.method = "transfer")
      (ran : call.Runs contract (transfer target amount) before after)
  | airdrop (recipients : List Name) (amount : Amount) (named : call.method = "airdrop")
      (given : (WireType.tuple (.unlabelled [.vec .name, .int .u64])).unpack call.args =
        .ok (recipients, amount, ()))
      (ran : call.Runs contract (airdrop recipients amount) before after)
  | close (named : call.method = "close") (ran : call.Runs contract close before after)
  | memo (value : memoType.Carrier) (named : call.method = "memo")
      (ran : call.Runs contract (fun _ => memo value) before after)

variable {contract : Name} {store : MemoryStore}

theorem storeAfter_of_not_committed (call : Invocation)
    (failed : call.committed contract store = false) : call.storeAfter contract store = store := by
  unfold committed at failed
  cases result : (call.execute contract store).1 with
  | error cause => exact Limits.store_of_execute_error _ _ _ result
  | ok receipt =>
    rw [result] at failed
    cases failed

theorem done_of_committed (call : Invocation) (ended : call.committed contract store = true) :
    call.Done contract store (call.storeAfter contract store) := by
  unfold committed at ended
  cases result : (call.execute contract store).1 with
  | error cause =>
    rw [result] at ended
    cases ended
  | ok receipt =>
    have executed : call.execute contract store =
        (.ok receipt, (call.execute contract store).2.1, call.storeAfter contract store) :=
      Prod.ext result rfl
    obtain ⟨_, ran⟩ := Limits.ends_of_execute executed
    obtain ⟨m, mem, named, args, given, ran⟩ := Call.ends_dispatch ran
    have named : call.method = m.name := named.symm
    simp only [Token.contract, List.mem_cons, List.not_mem_nil, or_false] at mem
    rcases mem with rfl | rfl | rfl | rfl | rfl
    · obtain ⟨symbol, totalSupply, ⟨⟩⟩ := args
      exact .create symbol totalSupply named ran
    · obtain ⟨target, amount, ⟨⟩⟩ := args
      exact .transfer target amount named ran
    · obtain ⟨recipients, amount, ⟨⟩⟩ := args
      exact .airdrop recipients amount named given ran
    · exact .close named ran
    · exact .memo args named ran

end Invocation

def storeAfterAll (contract : Name) (calls : List Invocation) (store : MemoryStore) : MemoryStore :=
  calls.foldl (fun store call => call.storeAfter contract store) store

end ContractStore.Token
