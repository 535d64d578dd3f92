import ContractStore.Proofs.Call.Coins
import ContractStore.Proofs.Token.Balances
import ContractStore.Proofs.Token.Invocation

/-!
Where the supply of a token is. Transfers and airdrops move balances; as no sum of balances is past
the greatest amount, a credit to somebody else than the payer never saturates. The one exception is
an airdrop that pays the owner first: the owner is credited before being debited, and what does not
fit is lost (`funds_airdrop`). Along any run of calls, the balances and what was lost so add up to
the supply.
-/
namespace ContractStore

namespace Token
variable {contract : Name} {limit : Nat} {host host' : Host} {before after : MemoryStore}

theorem sets_debit {who : Name} {amount : Amount}
    (h : Call.Ends (contract.home limit) (debit who amount) host before () host' after) :
    amount.toNat ≤ held contract who before ∧
      Sets contract who (held contract who before - amount.toNat) before after := by
  obtain ⟨found, left, _, looked, enough, written⟩ := ends_debit h
  obtain ⟨rfl, holds⟩ := balanceOf_eq_ok looked
  obtain ⟨covered, remains⟩ := Amount.checkedSub_eq_some enough
  have sets := sets_setBalance written
  rw [holds]
  rw [remains] at sets
  exact ⟨covered, sets⟩

theorem sets_credit {who : Name} {amount : Amount}
    (h : Call.Ends (contract.home limit) (credit who amount) host before () host' after) :
    Sets contract who (min (held contract who before + amount.toNat) Amount.greatest) before
      after := by
  obtain ⟨found, _, looked, written⟩ := ends_credit h
  obtain ⟨rfl, holds⟩ := balanceOf_eq_ok looked
  have sets := sets_setBalance written
  rw [Amount.toNat_saturatingAdd] at sets
  rw [holds]
  exact sets

theorem funds_transfer {target : Name} {amount : Amount} {ctx : CallContext}
    (h : Call.Ends (contract.home limit) (transfer target amount ctx) host before () host' after)
    (small : funds contract before ≤ Amount.greatest) :
    funds contract after = funds contract before ∧ supply contract after = supply contract before ∧
      (Decodes contract before → Decodes contract after) := by
  obtain ⟨_, between, middle, paid, received⟩ := ends_transfer h
  obtain ⟨enough, debited⟩ := sets_debit paid
  have credited := sets_credit received
  have sum := debited.funds
  have sum' := credited.funds
  -- the payer's debit made room for the amount in the sum, so no part of the credit is cut off
  have part := held_le_funds contract target middle
  have fits : held contract target middle + amount.toNat ≤ Amount.greatest := by omega
  rw [Nat.min_eq_left fits] at sum'
  refine ⟨by omega, credited.supply.trans debited.supply, ?_⟩
  exact fun decodes => credited.decodes (debited.decodes decodes)

theorem funds_payment {recipient owner : Name} {amount : Amount} {u : Unit}
    (h : Call.Ends (contract.home limit) (pay owner recipient amount) host before u host' after)
    (small : funds contract before ≤ Amount.greatest) :
    funds contract after +
        (if recipient = owner then held contract owner before + amount.toNat - Amount.greatest
          else 0) = funds contract before ∧
      held contract owner after + amount.toNat ≤ Amount.greatest ∧
      supply contract after = supply contract before ∧
      (Decodes contract before → Decodes contract after) := by
  obtain ⟨between, middle, received, paid⟩ := ends_pay h
  have credited := sets_credit received
  obtain ⟨enough, debited⟩ := sets_debit paid
  have sum := credited.funds
  have sum' := debited.funds
  have kept := debited.self
  refine ⟨?_, ?_, debited.supply.trans credited.supply, ?_⟩
  · -- another's credit fits beside what the owner has to have for its debit
    by_cases own : recipient = owner
    · subst own
      rw [credited.self] at sum' enough
      rw [if_pos rfl]
      omega
    · have others := credited.others owner fun same => own same.symm
      have pair := held_add_held_le_funds contract own before
      rw [others] at sum' enough
      rw [if_neg own]
      omega
  · by_cases own : recipient = owner
    · subst own
      rw [credited.self] at kept enough
      omega
    · have others := credited.others owner fun same => own same.symm
      have part := held_le_funds contract owner before
      rw [others] at kept enough
      omega
  · exact fun decodes => debited.decodes (credited.decodes decodes)

/-- An airdrop loses what does not fit beside the owner's balance when the owner comes first. -/
def excess (contract : Name) (recipients : List Name) (amount : Amount) (store : MemoryStore) :
    Nat :=
  if recipients.head? = some ⟨contract.account⟩ then
    held contract ⟨contract.account⟩ store + amount.toNat - Amount.greatest
  else 0

theorem funds_payments {recipients : List Name} {owner : Name} {amount : Amount} {u : Unit}
    (h : Call.Ends (contract.home limit)
      (recipients.forM fun recipient => pay owner recipient amount) host before u host' after)
    (small : funds contract before ≤ Amount.greatest)
    (room : held contract owner before + amount.toNat ≤ Amount.greatest) :
    funds contract after = funds contract before ∧ supply contract after = supply contract before ∧
      (Decodes contract before → Decodes contract after) := by
  induction recipients generalizing host before with
  | nil =>
    cases h
    exact ⟨rfl, rfl, fun decodes => decodes⟩
  | cons recipient rest ih =>
    obtain ⟨_, between, middle, first, later⟩ := Call.ends_bind h
    obtain ⟨sum, room', supplied, decodes⟩ := funds_payment first small
    have same : funds contract middle = funds contract before := by
      split at sum <;> omega
    obtain ⟨sum', supplied', decodes'⟩ := ih later (by omega) room'
    exact ⟨sum'.trans same, supplied'.trans supplied, fun all => decodes' (decodes all)⟩

theorem funds_airdrop {recipients : List Name} {amount : Amount} {ctx : CallContext}
    (h : Call.Ends (ctx.contract.home limit) (airdrop recipients amount ctx) host before () host'
      after)
    (small : funds ctx.contract before ≤ Amount.greatest) :
    funds ctx.contract after + excess ctx.contract recipients amount before =
        funds ctx.contract before ∧
      supply ctx.contract after = supply ctx.contract before ∧
      (Decodes ctx.contract before → Decodes ctx.contract after) := by
  obtain ⟨_, payments⟩ := ends_airdrop h
  cases recipients with
  | nil =>
    cases payments
    exact ⟨rfl, rfl, fun decodes => decodes⟩
  | cons recipient rest =>
    obtain ⟨_, between', middle, first, later⟩ := Call.ends_bind payments
    -- only the first payment can lose anything: once the owner has paid, the amount fits again
    obtain ⟨sum, room, supplied, decodes⟩ := funds_payment first small
    obtain ⟨sum', supplied', decodes'⟩ := funds_payments later (by omega) room
    refine ⟨?_, supplied'.trans supplied, fun all => decodes' (decodes all)⟩
    have lost : excess ctx.contract (recipient :: rest) amount before =
        if recipient = ⟨ctx.owner⟩ then
          held ctx.contract ⟨ctx.owner⟩ before + amount.toNat - Amount.greatest
        else 0 := by
      unfold excess CallContext.owner
      rw [List.head?_cons]
      by_cases own : recipient = ⟨ctx.contract.account⟩
      · rw [if_pos own, if_pos (congrArg some own)]
      · rw [if_neg own, if_neg fun same => own (Option.some.inj same)]
    rw [lost, sum', sum]

theorem funds_close {ctx : CallContext}
    (h : Call.Ends (contract.home limit) (close ctx) host before () host' after) :
    funds contract after = funds contract before ∧ supply contract after = supply contract before ∧
      (Decodes contract before → Decodes contract after) := by
  obtain ⟨looked, read, removed⟩ := ends_close h
  obtain ⟨rfl, holds⟩ := balanceOf_eq_ok read
  have sets := sets_remove removed
  have sum := sets.funds
  have nothing : (0 : Amount).toNat = 0 := rfl
  exact ⟨by omega, sets.supply, sets.decodes⟩

theorem funds_create {symbol : String} {totalSupply : Amount} {ctx : CallContext}
    (h : Call.Ends (ctx.contract.home limit) (create symbol totalSupply ctx) host before () host'
      after)
    (nothing : supply ctx.contract before = .ok 0 → funds ctx.contract before = 0) :
    supply ctx.contract before = .ok 0 ∧ supply ctx.contract after = .ok totalSupply.toNat ∧
      funds ctx.contract after = totalSupply.toNat ∧
      (Decodes ctx.contract before → Decodes ctx.contract after) := by
  obtain ⟨_, absent, row, between, middle, created, received⟩ := ends_create h
  obtain ⟨zero, supplied, spares⟩ := spares_create absent created
  have credited := sets_credit received
  have sum := credited.funds
  have none := nothing zero
  have part := held_le_funds ctx.contract ⟨ctx.owner⟩ middle
  have fits := Amount.toNat_le_greatest totalSupply
  rw [spares.funds, none] at sum part
  refine ⟨zero, credited.supply.trans supplied, by omega, ?_⟩
  exact fun decodes => credited.decodes (spares.decodes decodes)

/-- The balances, with what was lost, are the recorded supply. -/
structure Balanced (contract : Name) (lost : Nat) (store : MemoryStore) : Prop where
  decodes : Decodes contract store
  supplied : ∃ supplied, supply contract store = .ok supplied ∧ supplied ≤ Amount.greatest ∧
    funds contract store + lost = supplied

theorem balanced_empty (contract : Name) : Balanced contract 0 SortedMap.empty := by
  have absent : rowUnder contract stats.name (.int .i32) singletonId SortedMap.empty = none := by
    by_cases somewhere : ∃ raw, (contract.home 0).RowAt (.int .i32) stats.name singletonId raw
    · obtain ⟨raw, lies⟩ := somewhere
      exact rowUnder_of_at lies SortedMap.empty
    · exact rowUnder_of_nowhere somewhere SortedMap.empty
  constructor
  · intro place raw bytes _ _ found
    cases found
  · refine ⟨0, ?_, by decide, ?_⟩
    · unfold supply
      rw [absent]
    · unfold funds
      split <;> rfl

theorem Balanced.small {lost : Nat} {store : MemoryStore}
    (balanced : Balanced contract lost store) :
    funds contract store ≤ Amount.greatest := by
  obtain ⟨supplied, _, small, sum⟩ := balanced.supplied
  omega

theorem Balanced.step {lost less : Nat} (balanced : Balanced contract lost before)
    (moved : funds contract after + less = funds contract before)
    (kept : supply contract after = supply contract before)
    (decodes : Decodes contract before → Decodes contract after) :
    Balanced contract (lost + less) after := by
  obtain ⟨supplied, is, small, sum⟩ := balanced.supplied
  exact ⟨decodes balanced.decodes, supplied, kept.trans is, small, by omega⟩

theorem Balanced.create {lost : Nat} {symbol : String} {totalSupply : Amount} {ctx : CallContext}
    (balanced : Balanced ctx.contract lost before)
    (h : Call.Ends (ctx.contract.home limit) (create symbol totalSupply ctx) host before () host'
      after) :
    Balanced ctx.contract lost after := by
  obtain ⟨recorded, is, _, sum⟩ := balanced.supplied
  have nothing (zero : supply ctx.contract before = .ok 0) : funds ctx.contract before = 0 := by
    cases is.symm.trans zero
    omega
  obtain ⟨zero, supplied, created, decodes⟩ := funds_create h nothing
  cases is.symm.trans zero
  refine ⟨decodes balanced.decodes, _, supplied, Amount.toNat_le_greatest totalSupply, ?_⟩
  omega

def airdropOf (args : Bytes) : Option (List Name × Amount) :=
  match (WireType.tuple (.unlabelled [.vec .name, .int .u64])).unpack args with
  | .ok (recipients, amount, ()) => some (recipients, amount)
  | .error _ => none

namespace Invocation

def lost (call : Invocation) (contract : Name) (store : MemoryStore) : Nat :=
  if call.committed contract store ∧ call.method = "airdrop" then
    match airdropOf call.args with
    | some (recipients, amount) => excess contract recipients amount store
    | none => 0
  else 0

/-- A committed airdrop that pays the owner first, beyond what the owner's balance can hold. -/
def Overflows (call : Invocation) (contract : Name) (store : MemoryStore) : Prop :=
  call.committed contract store = true ∧ call.method = "airdrop" ∧
    ∃ others amount, airdropOf call.args = some (⟨contract.account⟩ :: others, amount) ∧
      Amount.greatest < held contract ⟨contract.account⟩ store + amount.toNat

theorem lost_eq_zero_iff (call : Invocation) (contract : Name) (store : MemoryStore) :
    call.lost contract store = 0 ↔ ¬ call.Overflows contract store := by
  unfold lost
  by_cases airdrops : call.committed contract store = true ∧ call.method = "airdrop"
  · rw [if_pos airdrops]
    cases given : airdropOf call.args with
    | none =>
      refine ⟨fun _ overflows => ?_, fun _ => rfl⟩
      obtain ⟨_, _, others, amount, same, _⟩ := overflows
      cases given.symm.trans same
    | some arguments =>
      obtain ⟨recipients, amount⟩ := arguments
      dsimp only
      unfold excess
      constructor
      · rintro zero ⟨_, _, others, amount', same, large⟩
        cases given.symm.trans same
        rw [List.head?_cons, if_pos rfl] at zero
        omega
      · intro fits
        split
        · rename_i first
          cases recipients with
          | nil => cases first
          | cons recipient others =>
            cases first
            have room : ¬ Amount.greatest <
                held contract ⟨contract.account⟩ store + amount.toNat := by
              intro large
              exact fits ⟨airdrops.1, airdrops.2, others, amount, given, large⟩
            omega
        · rfl
  · rw [if_neg airdrops]
    exact ⟨fun _ overflows => airdrops ⟨overflows.1, overflows.2.1⟩, fun _ => rfl⟩

theorem lost_of_other_method {call : Invocation} {store : MemoryStore}
    (other : call.method ≠ "airdrop") : call.lost contract store = 0 := by
  unfold lost
  rw [if_neg fun airdrops => other airdrops.2]

theorem balanced_after {lost : Nat} {store : MemoryStore} (call : Invocation)
    (balanced : Balanced contract lost store) :
    Balanced contract (lost + call.lost contract store) (call.storeAfter contract store) := by
  have small := balanced.small
  cases ended : call.committed contract store with
  | false =>
    have none : call.lost contract store = 0 := by
      unfold Invocation.lost
      rw [ended]
      rfl
    rw [call.storeAfter_of_not_committed ended, none]
    exact balanced
  | true =>
    cases call.done_of_committed ended with
    | create symbol totalSupply named ran =>
      rw [lost_of_other_method (by rw [named]; decide)]
      have balanced : Balanced (call.context contract).contract lost store := balanced
      exact balanced.create ran
    | transfer target amount named ran =>
      obtain ⟨sum, supplied, decodes⟩ := funds_transfer ran small
      rw [lost_of_other_method (by rw [named]; decide)]
      exact balanced.step sum supplied decodes
    | airdrop recipients amount named given ran =>
      obtain ⟨sum, supplied, decodes⟩ := funds_airdrop ran small
      have arguments : airdropOf call.args = some (recipients, amount) := by
        unfold airdropOf
        rw [given]
      have loses : call.lost contract store = excess contract recipients amount store := by
        unfold Invocation.lost
        rw [if_pos ⟨ended, named⟩, arguments]
      rw [loses]
      exact balanced.step sum supplied decodes
    | close named ran =>
      obtain ⟨sum, supplied, decodes⟩ := funds_close ran
      rw [lost_of_other_method (by rw [named]; decide)]
      exact balanced.step sum supplied decodes
    | memo value named ran =>
      obtain ⟨_, written⟩ := Call.ends_action ran
      obtain ⟨supplied, spares⟩ := spares_memo written
      rw [lost_of_other_method (by rw [named]; decide)]
      exact balanced.step spares.funds supplied spares.decodes

end Invocation

def lostInAll (contract : Name) : List Invocation → MemoryStore → Nat :=
  costInTurn (fun call => call.lost contract) fun store call => call.storeAfter contract store

theorem balanced_after_all {lost : Nat} {store : MemoryStore} (calls : List Invocation)
    (balanced : Balanced contract lost store) :
    Balanced contract (lost + lostInAll contract calls store)
      (storeAfterAll contract calls store) := by
  induction calls generalizing lost store with
  | nil => exact balanced
  | cons call rest ih =>
    have later := ih (call.balanced_after balanced)
    rw [Nat.add_assoc] at later
    exact later

theorem lostInAll_eq_zero_iff (contract : Name) (calls : List Invocation) (store : MemoryStore) :
    lostInAll contract calls store = 0 ↔
      ∀ earlier call later, calls = earlier ++ call :: later →
        ¬ call.Overflows contract (storeAfterAll contract earlier store) :=
  costInTurn_eq_zero_iff (fun call => call.lost_eq_zero_iff contract) _ calls store

/-- Whatever calls are made of a token, its balances and what was lost add up to its supply; and
they are the supply themselves exactly as long as no airdrop to the owner first has overflowed. -/
theorem supply_conserved_unless_overflow (contract : Name) (calls : List Invocation) :
    (∃ sum recorded,
      total contract (storeAfterAll contract calls SortedMap.empty) = .ok sum ∧
        supply contract (storeAfterAll contract calls SortedMap.empty) = .ok recorded ∧
          sum + lostInAll contract calls SortedMap.empty = recorded) ∧
      (total contract (storeAfterAll contract calls SortedMap.empty) =
          supply contract (storeAfterAll contract calls SortedMap.empty) ↔
        ∀ earlier call later, calls = earlier ++ call :: later →
          ¬ call.Overflows contract (storeAfterAll contract earlier SortedMap.empty)) := by
  have balanced := balanced_after_all calls (balanced_empty contract)
  obtain ⟨recorded, supplied, _, sum⟩ := balanced.supplied
  have all := total_eq_funds balanced.decodes
  rw [Nat.zero_add] at sum
  refine ⟨⟨_, recorded, all, supplied, sum⟩, ?_⟩
  rw [← lostInAll_eq_zero_iff, all, supplied, Except.ok.injEq]
  omega

/-- The owner holds all there can be, airdrops one more to itself, and one is gone. -/
theorem airdrop_to_full_owner_destroys :
    let token : Name := ⟨"$token@initminer"⟩
    let owner : Name := ⟨"initminer"⟩
    let host := Host.new.authorizeOnly owner
    let created : Invocation :=
      ⟨.default, "create", [2, 3, 67, 79, 83, 255, 255, 255, 255, 255, 255, 255, 255], owner, host⟩
    let dropped : Invocation :=
      ⟨.default, "airdrop",
        [2, 1, 9, 105, 110, 105, 116, 109, 105, 110, 101, 114, 1, 0, 0, 0, 0, 0, 0, 0], owner, host⟩
    let store := storeAfterAll token [created, dropped] SortedMap.empty
    (total token store).toOption = some 0xFFFFFFFFFFFFFFFE ∧
      (supply token store).toOption = some 0xFFFFFFFFFFFFFFFF := by
  decide +kernel

end Token
end ContractStore
