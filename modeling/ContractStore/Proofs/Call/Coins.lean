import ContractStore.Call.Contract
import ContractStore.Proofs.InTurn
import ContractStore.Proofs.SortedMap

/-!
Coins that a host moves. A transfer that the sender's balance covers takes its amount from the
sender and gives it to the receiver, and no other balance changes; one that is not covered changes
nothing. A balance cannot be past the greatest amount: what the receiver has no room for is lost.
So the balances of all accounts and what was lost so add up to the same sum along any sequence of
transfers, and nothing is lost as long as all coins together are no more than one account can hold.
-/
namespace ContractStore

namespace Amount

def greatest : Nat := 0xFFFFFFFFFFFFFFFF

theorem toNat_le_greatest (a : Amount) : a.toNat ≤ greatest := by
  have small := a.isLt
  unfold greatest
  omega

theorem toNat_saturatingAdd (a b : Amount) :
    (a.saturatingAdd b).toNat = min (a.toNat + b.toNat) greatest := by
  have small := a.isLt
  have small' := b.isLt
  unfold saturatingAdd greatest
  split
  · rename_i overflows
    simp only [BitVec.uaddOverflow, decide_eq_true_eq] at overflows
    rw [BitVec.toNat_allOnes]
    omega
  · rename_i fits
    simp only [BitVec.uaddOverflow, decide_eq_true_eq] at fits
    rw [BitVec.toNat_add]
    omega

theorem checkedSub_eq_some {a b c : Amount} (h : a.checkedSub b = some c) :
    b.toNat ≤ a.toNat ∧ c.toNat = a.toNat - b.toNat := by
  unfold checkedSub at h
  split at h
  · rename_i enough
    cases h
    exact ⟨enough, BitVec.toNat_sub_of_le (BitVec.le_def.2 enough)⟩
  · cases h

theorem checkedSub_eq_none_iff {a b : Amount} : a.checkedSub b = none ↔ ¬ b.toNat ≤ a.toNat := by
  unfold checkedSub
  split <;> simp_all

end Amount

structure CoinTransfer where
  source : Name
  target : Name
  amount : Amount
  deriving DecidableEq, Repr

namespace Host

/-- What a transfer answers, and the host that it leaves; a refused one leaves the host as it is. -/
def settle (t : CoinTransfer) (h : Host) : Except ContractError Unit × Host :=
  match h.transfer t.source t.target t.amount with
  | .ok after => (.ok (), after)
  | .error cause => (.error cause, h)

theorem run_transfer (t : CoinTransfer) (h : Host) :
    (Call.transfer t.source t.target t.amount).run h = .done (h.settle t) := by
  change Call.transfer t.source t.target t.amount h = _
  unfold Call.transfer settle
  cases h.transfer t.source t.target t.amount <;> rfl

def coins (h : Host) : Nat := h.balances.weigh fun _ amount => amount.toNat

theorem balanceOf_withBalance_self (h : Host) (who : Name) (amount : Amount) :
    (h.withBalance who amount).balanceOf who = amount :=
  congrArg (Option.getD · 0) (SortedMap.find?_insert_self h.balances who amount)

theorem balanceOf_withBalance_of_ne (h : Host) {who other : Name} (amount : Amount)
    (ne : other ≠ who) : (h.withBalance who amount).balanceOf other = h.balanceOf other :=
  congrArg (Option.getD · 0) (SortedMap.find?_insert_of_ne h.balances amount ne)

theorem coins_withBalance (h : Host) (who : Name) (amount : Amount) :
    (h.withBalance who amount).coins + (h.balanceOf who).toNat = h.coins + amount.toNat := by
  have sum := SortedMap.weigh_insert (fun _ (amount : Amount) => amount.toNat) h.balances who amount
  have held : ((h.balances.find? who).map fun amount => amount.toNat).getD 0 =
      (h.balanceOf who).toNat := by
    unfold balanceOf
    cases h.balances.find? who <;> rfl
  rw [held] at sum
  exact sum

theorem balanceOf_add_balanceOf_le_coins (h : Host) {who other : Name} (ne : other ≠ who) :
    (h.balanceOf who).toNat + (h.balanceOf other).toNat ≤ h.coins := by
  have first := h.coins_withBalance who 0
  have second := (h.withBalance who 0).coins_withBalance other 0
  rw [balanceOf_withBalance_of_ne h 0 ne] at second
  have nothing : (0 : Amount).toNat = 0 := rfl
  omega

end Host

namespace CoinTransfer

abbrev Covered (t : CoinTransfer) (h : Host) : Prop :=
  t.amount.toNat ≤ (h.balanceOf t.source).toNat

/-- The part of the amount that the receiver's balance has no room for. -/
def lost (t : CoinTransfer) (h : Host) : Nat :=
  if t.Covered h ∧ t.source ≠ t.target then
    (h.balanceOf t.target).toNat + t.amount.toNat - Amount.greatest
  else 0

def Overflows (t : CoinTransfer) (h : Host) : Prop :=
  t.Covered h ∧ t.source ≠ t.target ∧
    Amount.greatest < (h.balanceOf t.target).toNat + t.amount.toNat

structure Moves (t : CoinTransfer) (before after : Host) : Prop where
  taken : t.source ≠ t.target →
    (after.balanceOf t.source).toNat + t.amount.toNat = (before.balanceOf t.source).toNat
  given : t.source ≠ t.target → (after.balanceOf t.target).toNat =
    min ((before.balanceOf t.target).toNat + t.amount.toNat) Amount.greatest
  circular : t.source = t.target → after.balanceOf t.source = before.balanceOf t.source
  others : ∀ other, other ≠ t.source → other ≠ t.target →
    after.balanceOf other = before.balanceOf other
  coins : after.coins + t.lost before = before.coins
  rest : after = { before with balances := after.balances }

theorem settle_of_short {t : CoinTransfer} {h : Host} (short : ¬ t.Covered h) :
    h.settle t = (.error (.assertion s!"{t.source.text} balance not enough"), h) := by
  unfold Host.settle Host.transfer
  rw [Amount.checkedSub_eq_none_iff.2 short]

theorem settle_of_covered {t : CoinTransfer} {h : Host} (covered : t.Covered h) :
    ∃ left : Amount, left.toNat + t.amount.toNat = (h.balanceOf t.source).toNat ∧
      h.settle t = (.ok (), (h.withBalance t.source left).withBalance t.target
        (((h.withBalance t.source left).balanceOf t.target).saturatingAdd t.amount)) := by
  cases enough : (h.balanceOf t.source).checkedSub t.amount with
  | none => exact absurd covered (Amount.checkedSub_eq_none_iff.1 enough)
  | some left =>
    obtain ⟨_, remains⟩ := Amount.checkedSub_eq_some enough
    refine ⟨left, by omega, ?_⟩
    unfold Host.settle Host.transfer
    rw [enough]

section
variable {t : CoinTransfer} {h : Host} {left : Amount}

/-- The credit finds what the debit left, so the balance is as before and nothing is cut off. -/
theorem moves_of_circular (circular : t.source = t.target)
    (remains : left.toNat + t.amount.toNat = (h.balanceOf t.source).toNat) :
    t.Moves h ((h.withBalance t.source left).withBalance t.target
      (((h.withBalance t.source left).balanceOf t.target).saturatingAdd t.amount)) := by
  have found : (h.withBalance t.source left).balanceOf t.target = left := by
    rw [← circular, h.balanceOf_withBalance_self]
  have credited := Amount.toNat_saturatingAdd left t.amount
  have fits := Amount.toNat_le_greatest (h.balanceOf t.source)
  have same : left.saturatingAdd t.amount = h.balanceOf t.source := by
    apply BitVec.eq_of_toNat_eq
    omega
  have debit := h.coins_withBalance t.source left
  have credit := (h.withBalance t.source left).coins_withBalance t.target (h.balanceOf t.source)
  rw [found] at credit
  rw [found, same]
  constructor
  · exact fun ne => absurd circular ne
  · exact fun ne => absurd circular ne
  · intro _
    rw [circular, Host.balanceOf_withBalance_self]
  · intro other ne ne'
    rw [Host.balanceOf_withBalance_of_ne _ _ ne', h.balanceOf_withBalance_of_ne _ ne]
  · unfold lost
    rw [if_neg fun across => across.2 circular]
    omega
  · rfl

theorem moves_of_ne (ne : t.source ≠ t.target) (covered : t.Covered h)
    (remains : left.toNat + t.amount.toNat = (h.balanceOf t.source).toNat) :
    t.Moves h ((h.withBalance t.source left).withBalance t.target
      (((h.withBalance t.source left).balanceOf t.target).saturatingAdd t.amount)) := by
  rw [h.balanceOf_withBalance_of_ne left ne.symm]
  have credited := Amount.toNat_saturatingAdd (h.balanceOf t.target) t.amount
  have debit := h.coins_withBalance t.source left
  have credit := (h.withBalance t.source left).coins_withBalance t.target
    ((h.balanceOf t.target).saturatingAdd t.amount)
  rw [h.balanceOf_withBalance_of_ne left ne.symm] at credit
  constructor
  · intro _
    rw [Host.balanceOf_withBalance_of_ne _ _ ne, h.balanceOf_withBalance_self, remains]
  · intro _
    rw [Host.balanceOf_withBalance_self, credited]
  · exact fun same => absurd same ne
  · intro other other_source other_target
    rw [Host.balanceOf_withBalance_of_ne _ _ other_target,
      h.balanceOf_withBalance_of_ne _ other_source]
  · unfold lost
    rw [if_pos ⟨covered, ne⟩]
    omega
  · rfl

end

theorem moves_of_covered {t : CoinTransfer} {h : Host} (covered : t.Covered h) :
    ∃ after, h.settle t = (.ok (), after) ∧ t.Moves h after := by
  obtain ⟨left, remains, settled⟩ := settle_of_covered covered
  by_cases circular : t.source = t.target
  · exact ⟨_, settled, moves_of_circular circular remains⟩
  · exact ⟨_, settled, moves_of_ne circular covered remains⟩

theorem coins_settle (t : CoinTransfer) (h : Host) :
    (h.settle t).2.coins + t.lost h = h.coins := by
  by_cases covered : t.Covered h
  · obtain ⟨after, settled, moves⟩ := moves_of_covered covered
    rw [settled]
    exact moves.coins
  · rw [settle_of_short covered]
    unfold lost
    rw [if_neg fun overflows => covered overflows.1]
    rfl

theorem lost_eq_zero_iff (t : CoinTransfer) (h : Host) : t.lost h = 0 ↔ ¬ t.Overflows h := by
  unfold lost Overflows
  split
  · rename_i across
    simp only [across.1, across.2, true_and, ne_eq, not_false_eq_true]
    omega
  · rename_i inside
    simp only [true_iff]
    exact fun overflows => inside ⟨overflows.1, overflows.2.1⟩

/-- While all coins are no more than one account can hold, the receiver has room. -/
theorem not_overflows_of_few (t : CoinTransfer) {h : Host} (few : h.coins ≤ Amount.greatest) :
    ¬ t.Overflows h := by
  rintro ⟨covered, ne, large⟩
  have both := h.balanceOf_add_balanceOf_le_coins fun same => ne same.symm
  omega

end CoinTransfer

namespace Host

def settleAll (transfers : List CoinTransfer) (h : Host) : Host :=
  transfers.foldl (fun h t => (h.settle t).2) h

def lostInAll (transfers : List CoinTransfer) (h : Host) : Nat :=
  costInTurn CoinTransfer.lost (fun h t => (h.settle t).2) transfers h

theorem coins_settleAll (transfers : List CoinTransfer) (h : Host) :
    (settleAll transfers h).coins + lostInAll transfers h = h.coins := by
  induction transfers generalizing h with
  | nil => rfl
  | cons t rest ih =>
    have step := t.coins_settle h
    have later := ih (h.settle t).2
    have after : settleAll (t :: rest) h = settleAll rest (h.settle t).2 := rfl
    have lost : lostInAll (t :: rest) h = t.lost h + lostInAll rest (h.settle t).2 := rfl
    rw [after, lost]
    omega

theorem lostInAll_eq_zero_iff (transfers : List CoinTransfer) (h : Host) :
    lostInAll transfers h = 0 ↔
      ∀ earlier t later, transfers = earlier ++ t :: later →
        ¬ t.Overflows (settleAll earlier h) :=
  costInTurn_eq_zero_iff CoinTransfer.lost_eq_zero_iff _ transfers h

theorem coins_settleAll_of_few (transfers : List CoinTransfer) {h : Host}
    (few : h.coins ≤ Amount.greatest) : (settleAll transfers h).coins = h.coins := by
  have nothing : lostInAll transfers h = 0 := by
    refine (lostInAll_eq_zero_iff transfers h).2 fun earlier t later _ => ?_
    have sum := coins_settleAll earlier h
    exact t.not_overflows_of_few (by omega)
  have sum := coins_settleAll transfers h
  omega

/-- A transfer goes through exactly if the sender holds the amount, and then moves it; over any
sequence of transfers the coins and what receivers had no room for add up to the same sum, and no
coin is lost exactly as long as no transfer overflows its receiver's balance. -/
theorem transfers_move_coins_unless_overflow (h : Host) :
    (∀ t : CoinTransfer,
      ((h.settle t).1 = .ok () ↔ t.Covered h) ∧
        (¬ t.Covered h →
          h.settle t = (.error (.assertion s!"{t.source.text} balance not enough"), h)) ∧
        (t.Covered h → t.Moves h (h.settle t).2)) ∧
      ∀ transfers : List CoinTransfer,
        (settleAll transfers h).coins + lostInAll transfers h = h.coins ∧
          ((settleAll transfers h).coins = h.coins ↔
            ∀ earlier t later, transfers = earlier ++ t :: later →
              ¬ t.Overflows (settleAll earlier h)) := by
  constructor
  · intro t
    by_cases covered : t.Covered h
    · obtain ⟨after, settled, moves⟩ := CoinTransfer.moves_of_covered covered
      rw [settled]
      exact ⟨⟨fun _ => covered, fun _ => rfl⟩, fun short => absurd covered short, fun _ => moves⟩
    · have refused := CoinTransfer.settle_of_short covered
      refine ⟨?_, fun _ => refused, fun held => absurd held covered⟩
      rw [refused]
      exact ⟨fun ended => (nomatch ended), fun held => absurd held covered⟩
  · intro transfers
    have sum := coins_settleAll transfers h
    refine ⟨sum, ?_⟩
    rw [← lostInAll_eq_zero_iff]
    omega

/-- Four coins go to an account that has no room for them. -/
theorem transfer_to_full_account_destroys :
    let alice : Name := ⟨"alice"⟩
    let bob : Name := ⟨"bob"⟩
    let before := (Host.new.withBalance alice 10).withBalance bob 0xFFFFFFFFFFFFFFFF
    let after := (before.settle ⟨alice, bob, 4⟩).2
    (before.settle ⟨alice, bob, 4⟩).1.toOption = some () ∧ after.balanceOf alice = 6 ∧
      after.balanceOf bob = 0xFFFFFFFFFFFFFFFF ∧ after.coins + 4 = before.coins := by
  decide +kernel

end Host
end ContractStore
