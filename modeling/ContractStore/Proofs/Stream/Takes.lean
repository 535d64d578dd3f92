import ContractStore.Wire.Decode

/-!
What reading costs. `Takes` says how many bytes a reader may take for a value. The cost of a
sequence is the sum of the costs of its parts, and what is read for a count is no shorter than the
form in which the count is written (`takes_varint`).
-/
namespace ContractStore

theorem Bytes.ofString_of_toString? {utf8 : Bytes} {s : String}
    (valid : Bytes.toString? utf8 = some s) : Bytes.ofString s = utf8 := by
  unfold toString? String.fromUTF8? at valid
  split at valid
  · cases valid
    rfl
  · cases valid

namespace Varint

theorem length_groups_le (more : Nat) {n k : Nat} (positive : 1 ≤ k) (small : n < Nat.pow 128 k) :
    (groups more n).length ≤ k := by
  induction more generalizing n k with
  | zero => exact positive
  | succ more ih =>
    rw [groups]
    split
    · exact positive
    · rename_i large
      have two : 2 ≤ k := by
        rcases Nat.lt_or_ge k 2 with one | two
        · obtain rfl : k = 1 := by omega
          exact absurd small large
        · exact two
      obtain ⟨k, rfl⟩ : ∃ j, k = j + 1 := ⟨k - 1, by omega⟩
      have shape : Nat.pow 128 (k + 1) = Nat.pow 128 k * 128 := rfl
      have rest : (groups more (n / 128)).length ≤ k := ih (by omega) (by omega)
      rw [List.length_cons]
      omega

theorem length_groups_mono (more : Nat) {m n : Nat} (le : m ≤ n) :
    (groups more m).length ≤ (groups more n).length := by
  induction more generalizing m n with
  | zero => exact Nat.le_refl 1
  | succ more ih =>
    have rest : (groups more (m / 128)).length ≤ (groups more (n / 128)).length :=
      ih (Nat.div_le_div_right le)
    rw [groups, groups]
    split
    · split <;> simp only [List.length_cons, List.length_nil] <;> omega
    · rw [if_neg (by omega)]
      simp only [List.length_cons]
      omega

end Varint

namespace Reader
variable {α β : Type} {p : α → Nat → Prop} {q : β → Nat → Prop}

/-- For every value that the reader gives, the number of bytes that it took is as said. -/
def Takes (reader : Reader α) (p : α → Nat → Prop) : Prop :=
  ∀ unread value rest, reader unread = .ok value rest →
    ∃ n, unread.length = n + rest.length ∧ p value n

theorem Takes.imp {reader : Reader α} {p' : α → Nat → Prop} (h : Takes reader p)
    (weaker : ∀ x n, p x n → p' x n) : Takes reader p' := by
  intro unread value rest read
  obtain ⟨n, length, cost⟩ := h unread value rest read
  exact ⟨n, length, weaker value n cost⟩

theorem takes_pure {value : α} (h : p value 0) : Takes (pure value) p := by
  intro unread found rest read
  cases read
  exact ⟨0, by omega, h⟩

theorem takes_throw (cause : CodecError) (p : α → Nat → Prop) : Takes (throw cause) p := by
  intro unread found rest read
  cases read

theorem takes_bind {reader : Reader α} {next : α → Reader β} (first : Takes reader p)
    (later : ∀ x n, p x n → Takes (next x) fun y m => q y (n + m)) : Takes (reader >>= next) q := by
  intro unread value rest read
  obtain ⟨x, between, taken, taken'⟩ := ok_of_bind read
  obtain ⟨n, length, cost⟩ := first unread x between taken
  obtain ⟨m, length', cost'⟩ := later x n cost between value rest taken'
  exact ⟨n + m, by omega, cost'⟩

theorem takes_get : Takes get fun _ n => n = 1 := by
  intro unread byte rest read
  cases unread with
  | nil => cases read
  | cons b unread =>
    cases read
    exact ⟨1, by rw [List.length_cons]; omega, rfl⟩

theorem takes_of_cut {unread taken rest : Bytes} {n : Nat}
    (found : unread.cut n = some (taken, rest)) : unread.length = n + rest.length := by
  rw [Bytes.cut_eq] at found
  split at found
  · cases found
    rw [List.length_drop]
    omega
  · cases found

theorem takes_read (n : Nat) : Takes (read n) fun bytes m => bytes.length = n ∧ m = n := by
  intro unread bytes rest found
  unfold read at found
  split at found
  · rename_i front back cut
    cases found
    exact ⟨n, takes_of_cut cut, Bytes.length_of_cut cut, rfl⟩
  · cases found

theorem takes_raw (n : Nat) : Takes (raw n) fun _ m => m = n := by
  intro unread bytes rest found
  unfold raw at found
  split at found
  · rename_i front back cut
    cases found
    exact ⟨n, takes_of_cut cut, rfl⟩
  · cases found

theorem takes_ofExcept (result : Except CodecError α) :
    Takes (ofExcept result) fun x n => result = .ok x ∧ n = 0 := by
  cases result with
  | ok value => exact takes_pure ⟨rfl, rfl⟩
  | error cause => exact takes_throw cause _

theorem takes_readGroups (left i value : Nat) (below : value < Nat.pow 128 i) :
    Takes (Varint.readGroups left (Nat.pow 128 i) value) fun n k =>
      n < Varint.bound ∧ 1 ≤ k ∧ n < Nat.pow 128 (i + k) := by
  induction left generalizing i value with
  | zero => exact takes_throw _ _
  | succ left ih =>
    refine takes_bind takes_get fun byte one taken => ?_
    subst taken
    have shape : Nat.pow 128 (i + 1) = Nat.pow 128 i * 128 := rfl
    have grown : value + byte.toNat % 128 * Nat.pow 128 i < Nat.pow 128 (i + 1) := by
      have group : byte.toNat % 128 ≤ 127 := by omega
      have most : byte.toNat % 128 * Nat.pow 128 i ≤ 127 * Nat.pow 128 i :=
        Nat.mul_le_mul_right _ group
      omega
    dsimp only
    split
    · exact takes_throw _ _
    · rename_i fits
      split
      · exact takes_pure ⟨by omega, by omega, grown⟩
      · rw [← shape]
        refine (ih (i + 1) _ grown).imp fun n k cost => ?_
        obtain ⟨small, _, digits⟩ := cost
        rw [Nat.add_assoc i 1 k] at digits
        exact ⟨small, by omega, digits⟩

/-- The shortest form of a count is no longer than what was read for it. -/
theorem takes_varint :
    Takes Varint.read fun n k => n < Varint.bound ∧ (Varint.encode n).length ≤ k := by
  refine (takes_readGroups Varint.maxGroups 0 0 (by decide)).imp fun n k cost => ?_
  obtain ⟨small, positive, digits⟩ := cost
  rw [Nat.zero_add] at digits
  exact ⟨small, Varint.length_groups_le _ positive digits⟩

theorem takes_expectCount (what : String) (expected : Nat) :
    Takes (expectCount what expected) fun _ k => (Varint.encode expected).length ≤ k := by
  refine takes_bind takes_varint fun got k cost => ?_
  split
  · rename_i same
    subst same
    exact takes_pure cost.2
  · exact takes_throw _ _

theorem takes_expectSize (what : String) (size : Nat) :
    Takes (expectSize what size) fun _ k =>
      size < Varint.bound ∧ (Varint.encode size).length ≤ k := by
  refine takes_bind (takes_ofExcept _) fun count n cost => ?_
  obtain ⟨counted, rfl⟩ := cost
  obtain ⟨small, rfl⟩ : size < Varint.bound ∧ count = size := by
    unfold Varint.countOf at counted
    split at counted
    · rename_i small
      cases counted
      exact ⟨small, rfl⟩
    · cases counted
  refine (takes_expectCount what count).imp fun _ k length => ⟨small, ?_⟩
  omega

theorem takes_bits (bytes : Nat) : Takes (bits bytes) fun _ k => k = bytes := by
  refine takes_bind (takes_read bytes) fun raw n cost => takes_pure ?_
  omega

theorem takes_text :
    Takes text fun s k =>
      ∃ front, k = front + (Bytes.ofString s).length ∧
        (Bytes.ofString s).length < Varint.bound ∧
          (Varint.encode (Bytes.ofString s).length).length ≤ front := by
  refine takes_bind takes_varint fun length front count => ?_
  refine takes_bind (takes_read length) fun utf8 n taken => ?_
  obtain ⟨whole, rfl⟩ := taken
  split
  · rename_i s valid
    have same : (Bytes.ofString s).length = n := by
      rw [Bytes.ofString_of_toString? valid, whole]
    rw [← same] at count
    exact takes_pure ⟨front, by omega, count⟩
  · exact takes_throw _ _

inductive Costs (p : α → Nat → Prop) : List α → Nat → Prop where
  | nil : Costs p [] 0
  | cons {x : α} {xs : List α} {n m : Nat} (head : p x n) (tail : Costs p xs m) :
    Costs p (x :: xs) (n + m)

theorem Costs.perm {xs ys : List α} {n : Nat} (costs : Costs p xs n) (perm : xs.Perm ys) :
    Costs p ys n := by
  induction perm generalizing n with
  | nil => exact costs
  | cons x _ ih =>
    cases costs with
    | cons head tail => exact .cons head (ih tail)
  | swap x y xs =>
    cases costs with
    | cons first tail =>
      cases tail with
      | cons second tail =>
        rw [Nat.add_left_comm]
        exact .cons second (.cons first tail)
  | trans _ _ ih ih' => exact ih' (ih costs)

theorem Costs.front {xs ys : List α} {n : Nat} (costs : Costs p (xs ++ ys) n) :
    ∃ k, k ≤ n ∧ Costs p xs k := by
  induction xs generalizing n with
  | nil => exact ⟨0, by omega, .nil⟩
  | cons x xs ih =>
    cases costs with
    | cons head tail =>
      obtain ⟨k, below, costs⟩ := ih tail
      exact ⟨_, by omega, .cons head costs⟩

theorem takes_repeated {item : Reader α} (each : Takes item p) (count : Nat) :
    Takes (repeated item count) fun xs k => xs.length = count ∧ Costs p xs k := by
  induction count with
  | zero =>
    rw [repeated_zero]
    exact takes_pure ⟨rfl, .nil⟩
  | succ count ih =>
    rw [repeated_succ]
    refine takes_bind each fun x n cost => takes_bind ih fun xs m costs => takes_pure ?_
    obtain ⟨length, costs⟩ := costs
    refine ⟨by rw [List.length_cons, length], ?_⟩
    exact .cons cost costs

theorem takes_replicated {item : Reader α} (each : Takes item p) (count : Nat) :
    Takes (replicated item count) fun xs k => Costs p xs.1 k := by
  intro unread xs rest read
  obtain ⟨n, length, _, costs⟩ :=
    takes_repeated each count unread xs.1 rest (ok_of_replicated read)
  exact ⟨n, length, costs⟩

def CostsCounted (p : α → Nat → Prop) (xs : List α) (k : Nat) : Prop :=
  xs.length < Varint.bound ∧
    ∃ front back, k = front + back ∧ (Varint.encode xs.length).length ≤ front ∧ Costs p xs back

/-- A part of the items, under a count of its own, costs no more than all of them. -/
theorem CostsCounted.part {xs lost ys : List α} {n : Nat} (costs : CostsCounted p ys n)
    (perm : (xs ++ lost).Perm ys) : ∃ k, k ≤ n ∧ CostsCounted p xs k := by
  obtain ⟨small, front, back, rfl, count, each⟩ := costs
  obtain ⟨k, below, part⟩ := (each.perm perm.symm).front
  have length := perm.length_eq
  rw [List.length_append] at length
  have fewer : (Varint.encode xs.length).length ≤ (Varint.encode ys.length).length :=
    Varint.length_groups_mono _ (by omega)
  exact ⟨front + k, by omega, by omega, front, k, rfl, by omega, part⟩

theorem takes_counted {item : Reader α} (each : Takes item p) :
    Takes (counted item) (CostsCounted p) := by
  refine takes_bind takes_varint fun count front cost => ?_
  refine (takes_repeated each count).imp fun xs back costs => ?_
  obtain ⟨small, shortest⟩ := cost
  obtain ⟨rfl, costs⟩ := costs
  exact ⟨small, front, back, rfl, shortest, costs⟩

end Reader
end ContractStore
