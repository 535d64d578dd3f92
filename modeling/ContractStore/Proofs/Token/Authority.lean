import ContractStore.Proofs.Token.Supply

/-!
Whose balance a call can lower. A credit lowers none, since what an account holds is never past the
greatest amount; a debit lowers the payer's, who is asked for authority first. Closing lowers none,
since the row that goes holds nothing. The store may hold anything at the start.
-/
namespace ContractStore.Token
variable {contract : Name} {limit : Nat} {accounts : List Name} {host host' : Host}
  {before middle after : MemoryStore}

theorem amountIn_le_greatest (bytes : Bytes) : amountIn bytes ≤ Amount.greatest := by
  unfold amountIn
  split
  · exact Amount.toNat_le_greatest _
  · exact Nat.zero_le _

theorem held_le_greatest (contract who : Name) (store : MemoryStore) :
    held contract who store ≤ Amount.greatest := by
  unfold held
  cases rowUnder contract balances.name .name who store with
  | none => exact Nat.zero_le _
  | some bytes => exact amountIn_le_greatest bytes

/-- Nobody but the given accounts holds less than before. -/
def Guarded (contract : Name) (accounts : List Name) (before after : MemoryStore) : Prop :=
  ∀ who, held contract who after < held contract who before → who ∈ accounts

theorem Guarded.trans (first : Guarded contract accounts before middle)
    (second : Guarded contract accounts middle after) : Guarded contract accounts before after := by
  intro who falls
  by_cases early : held contract who middle < held contract who before
  · exact first who early
  · apply second who
    omega

theorem guarded_of_held_eq (same : ∀ who, held contract who after = held contract who before) :
    Guarded contract accounts before after := by
  intro who falls
  have kept := same who
  omega

theorem guarded_of_sets {who : Name} {amount : Nat} (sets : Sets contract who amount before after)
    (may : amount < held contract who before → who ∈ accounts) :
    Guarded contract accounts before after := by
  intro other falls
  by_cases same : other = who
  · subst same
    rw [sets.self] at falls
    exact may falls
  · have kept := sets.others other same
    omega

theorem guarded_credit {who : Name} {amount : Amount}
    (h : Call.Ends (contract.home limit) (credit who amount) host before () host' after) :
    Guarded contract accounts before after := by
  apply guarded_of_sets (sets_credit h)
  intro falls
  have full := held_le_greatest contract who before
  omega

theorem guarded_debit {who : Name} {amount : Amount} (authorized : who ∈ accounts)
    (h : Call.Ends (contract.home limit) (debit who amount) host before () host' after) :
    Guarded contract accounts before after :=
  guarded_of_sets (sets_debit h).2 fun _ => authorized

theorem guarded_create {symbol : String} {totalSupply : Amount} {ctx : CallContext}
    (h : Call.Ends (contract.home limit) (create symbol totalSupply ctx) host before () host'
      after) : Guarded contract accounts before after := by
  obtain ⟨_, absent, row, between, middle, created, received⟩ := ends_create h
  obtain ⟨_, _, spares⟩ := spares_create absent created
  exact (guarded_of_held_eq spares.held).trans (guarded_credit received)

theorem guarded_transfer {target : Name} {amount : Amount} {ctx : CallContext}
    (h : Call.Ends (contract.home limit) (transfer target amount ctx) host before () host' after) :
    Guarded contract host.authorized before after := by
  obtain ⟨authorized, between, middle, paid, received⟩ := ends_transfer h
  exact (guarded_debit authorized paid).trans (guarded_credit received)

theorem guarded_payments {owner : Name} {amount : Amount} {recipients : List Name} {u : Unit}
    (authorized : owner ∈ accounts)
    (h : Call.Ends (contract.home limit)
      (recipients.forM fun recipient => pay owner recipient amount) host before u host' after) :
    Guarded contract accounts before after := by
  induction recipients generalizing host before with
  | nil =>
    cases h
    exact guarded_of_held_eq fun _ => rfl
  | cons recipient rest ih =>
    obtain ⟨_, between, middle, first, later⟩ := Call.ends_bind h
    obtain ⟨_, credited, received, paid⟩ := ends_pay first
    have step := (guarded_credit received).trans (guarded_debit authorized paid)
    exact step.trans (ih later)

theorem guarded_airdrop {recipients : List Name} {amount : Amount} {ctx : CallContext}
    (h : Call.Ends (contract.home limit) (airdrop recipients amount ctx) host before () host'
      after) : Guarded contract host.authorized before after := by
  obtain ⟨authorized, payments⟩ := ends_airdrop h
  exact guarded_payments authorized payments

theorem guarded_close {ctx : CallContext}
    (h : Call.Ends (contract.home limit) (close ctx) host before () host' after) :
    Guarded contract accounts before after := by
  obtain ⟨looked, read, removed⟩ := ends_close h
  obtain ⟨rfl, holds⟩ := balanceOf_eq_ok read
  -- nobody is asked for authority here: the row that goes counts for nothing
  apply guarded_of_sets (sets_remove removed)
  intro falls
  rw [holds] at falls
  exact absurd falls (by decide)

theorem Invocation.guarded_after (call : Invocation) (contract : Name) (store : MemoryStore) :
    Guarded contract call.host.authorized store (call.storeAfter contract store) := by
  cases ended : call.committed contract store with
  | false =>
    rw [call.storeAfter_of_not_committed ended]
    exact guarded_of_held_eq fun _ => rfl
  | true =>
    cases call.done_of_committed ended with
    | create symbol totalSupply named ran => exact guarded_create ran
    | transfer target amount named ran => exact guarded_transfer ran
    | airdrop recipients amount named given ran => exact guarded_airdrop ran
    | close named ran => exact guarded_close ran
    | memo value named ran =>
      obtain ⟨_, written⟩ := Call.ends_action ran
      exact guarded_of_held_eq (spares_memo written).2.held

/-- Whoever holds less after a call of the token has authorised the call, whatever the store held
and whoever called which method with which arguments. -/
theorem balance_falls_only_with_authority (contract : Name) (call : Invocation)
    (store : MemoryStore) (who : Name)
    (falls : held contract who (call.storeAfter contract store) < held contract who store) :
    who ∈ call.host.authorized :=
  call.guarded_after contract store who falls

/-- The owner pays itself and then another account, and holds less. -/
theorem airdropping_owner_has_authorised :
    let token : Name := ⟨"$t@o"⟩
    let owner : Name := ⟨"o"⟩
    let call : Invocation :=
      ⟨.default, "airdrop", [2, 2, 1, 111, 1, 97, 5, 0, 0, 0, 0, 0, 0, 0], ⟨"a"⟩,
        Host.new.authorizeOnly owner⟩
    let store : MemoryStore :=
      SortedMap.empty.insert
        [1, 1, 111, 1, 116, 8, 98, 97, 108, 97, 110, 99, 101, 115, 1, 111]
        [2, 1, 111, 7, 0, 0, 0, 0, 0, 0, 0]
    held token owner store = 7 ∧ held token owner (call.storeAfter token store) = 2 ∧
      owner ∈ call.host.authorized := by
  intro token owner call store
  have before : held token owner store = 7 := by decide +kernel
  have after : held token owner (call.storeAfter token store) = 2 := by decide +kernel
  have falls : held token owner (call.storeAfter token store) < held token owner store := by
    rw [before, after]
    decide
  exact ⟨before, after, balance_falls_only_with_authority token call store owner falls⟩

end ContractStore.Token
