import Mathlib
import ContractStore.Proofs.Stream.Takes
import ContractStore.Proofs.Wire.Encode
import ContractStore.Proofs.Wire.Varint

/-!
Counts as numbers to the base 128. A count ends with the first byte whose high bit is clear, and it
is the sum of its digits, the low seven bits of each byte, in ascending weight. Reading accepts
exactly the counts of up to five bytes below `bound` (`Denotes`), runs out of bytes only where fewer
than five are there and none closes a count (`Unfinished`), and finds every other count too large.
Of the forms of one number the written one is the shortest, and no other is as short.
-/
namespace ContractStore.Varint

def closes (byte : UInt8) : Bool := byte.toNat < 128

/-- How many bytes there are up to the first that closes a count. -/
def closing (bytes : Bytes) : Option Nat := (bytes.findIdx? closes).map (· + 1)

structure Denotes (bytes : Bytes) (n c : Nat) : Prop where
  closed : closing bytes = some c
  short : c ≤ maxGroups
  sum : n = ∑ i ∈ Finset.range c, (bytes.getD i 0).toNat % 128 * 128 ^ i
  small : n < bound

structure Unfinished (bytes : Bytes) : Prop where
  short : bytes.length < maxGroups
  unclosed : ∀ byte ∈ bytes, 128 ≤ byte.toNat

def digits : Bytes → Nat
  | [] => 0
  | byte :: rest => byte.toNat % 128 + 128 * digits rest

theorem digits_take (bytes : Bytes) (c : Nat) :
    digits (bytes.take c) =
      ∑ i ∈ Finset.range c, (bytes.getD i 0).toNat % 128 * 128 ^ i := by
  induction c generalizing bytes with
  | zero => simp [digits]
  | succ c ih =>
    cases bytes with
    | nil => simp [digits]
    | cons byte rest =>
      rw [List.take_succ_cons, digits, ih, Finset.sum_range_succ', Finset.mul_sum, Nat.add_comm]
      congr 1
      · apply Finset.sum_congr rfl
        intro i _
        simp only [List.getD_cons_succ]
        ring
      · simp

theorem closing_cons (byte : UInt8) (rest : Bytes) :
    closing (byte :: rest) =
      if byte.toNat < 128 then some 1 else (closing rest).map (· + 1) := by
  simp only [closing, List.findIdx?_cons, closes, decide_eq_true_eq]
  split <;> simp

theorem closing_take {bytes : Bytes} {c : Nat} (closed : closing bytes = some c) :
    c ≤ bytes.length ∧ closing (bytes.take c) = some c := by
  induction bytes generalizing c with
  | nil => simp [closing] at closed
  | cons byte rest ih =>
    rw [closing_cons] at closed
    split at closed
    · rename_i last
      cases closed
      simp [closing_cons, last]
    · rename_i goesOn
      obtain ⟨k, later, rfl⟩ := Option.map_eq_some_iff.1 closed
      obtain ⟨inside, taken⟩ := ih later
      constructor
      · simpa using inside
      · simp [closing_cons, goesOn, taken]

/-! The loop, one byte at a time and then as a whole. -/

theorem readGroups_nil (left weight value : Nat) :
    readGroups (left + 1) weight value [] = .error (.outOfBounds "get" 1 0) [] := rfl

theorem readGroups_cons (left weight value : Nat) (byte : UInt8) (rest : Bytes) :
    readGroups (left + 1) weight value (byte :: rest) =
      if bound ≤ value + byte.toNat % 128 * weight then .error .varintOverflow rest
      else if byte.toNat < 128 then .ok (value + byte.toNat % 128 * weight) rest
      else readGroups left (weight * 128) (value + byte.toNat % 128 * weight) rest := by
  simp only [readGroups, bind, EStateM.bind, Reader.get]
  split
  · rfl
  · split <;> rfl

theorem readGroups_eq_ok_iff {left weight value n : Nat} {bytes rest : Bytes} :
    readGroups left weight value bytes = .ok n rest ↔
      ∃ c, closing bytes = some c ∧ c ≤ left ∧ n = value + digits (bytes.take c) * weight ∧
        n < bound ∧ rest = bytes.drop c := by
  induction left generalizing weight value bytes with
  | zero =>
    constructor
    · intro read
      cases read
    · rintro ⟨c, closed, none, -⟩
      obtain ⟨i, _, rfl⟩ := Option.map_eq_some_iff.1 closed
      omega
  | succ left ih =>
    cases bytes with
    | nil => simp [readGroups_nil, closing]
    | cons byte bytes =>
      have later (c : Nat) : value + digits ((byte :: bytes).take (c + 1)) * weight =
          value + byte.toNat % 128 * weight + digits (bytes.take c) * (weight * 128) := by
        rw [List.take_succ_cons, digits]
        ring
      rw [readGroups_cons, closing_cons]
      by_cases large : bound ≤ value + byte.toNat % 128 * weight
      · -- what is added later cannot make the value small again
        rw [if_pos large]
        constructor
        · intro read
          cases read
        · rintro ⟨c, closed, _, rfl, small, _⟩
          have first : 0 < c := by
            split at closed
            · cases closed
              omega
            · obtain ⟨k, _, rfl⟩ := Option.map_eq_some_iff.1 closed
              omega
          obtain ⟨c, rfl⟩ : ∃ k, c = k + 1 := ⟨c - 1, by omega⟩
          rw [later] at small
          omega
      · rw [if_neg large]
        by_cases last : byte.toNat < 128
        · rw [if_pos last, if_pos last]
          constructor
          · intro read
            cases read
            exact ⟨1, rfl, by omega, by rw [later 0]; simp [digits], by omega, rfl⟩
          · rintro ⟨c, closed, _, rfl, _, rfl⟩
            cases closed
            rw [later 0]
            simp [digits]
        · rw [if_neg last, if_neg last, ih]
          constructor
          · rintro ⟨c, closed, short, sum, small, rfl⟩
            exact ⟨c + 1, by simp [closed], by omega, by rw [later, sum], small, rfl⟩
          · rintro ⟨c, closed, short, sum, small, rfl⟩
            obtain ⟨k, inner, rfl⟩ := Option.map_eq_some_iff.1 closed
            exact ⟨k, inner, by omega, by rw [sum, later], small, rfl⟩

theorem readGroups_eq_error {left weight value : Nat} {bytes rest : Bytes} {cause : CodecError}
    (failed : readGroups left weight value bytes = .error cause rest) :
    cause = .varintOverflow ∨
      cause = .outOfBounds "get" 1 0 ∧ bytes.length < left ∧ ∀ byte ∈ bytes, 128 ≤ byte.toNat := by
  induction left generalizing weight value bytes with
  | zero =>
    cases failed
    exact .inl rfl
  | succ left ih =>
    cases bytes with
    | nil =>
      cases failed
      right
      simp
    | cons byte bytes =>
      rw [readGroups_cons] at failed
      split at failed
      · cases failed
        exact .inl rfl
      · split at failed
        · cases failed
        · rename_i goesOn
          rcases ih failed with large | ⟨missing, short, unclosed⟩
          · exact .inl large
          · right
            simp only [List.length_cons, List.forall_mem_cons]
            exact ⟨missing, by omega, by omega, unclosed⟩

/-- Four bytes cannot hold a value that is too large, so the missing fifth is what is reported. -/
theorem readGroups_of_unfinished {left weight value : Nat} {bytes : Bytes} (below : value < weight)
    (room : weight * 128 ^ left = 128 ^ maxGroups) (short : bytes.length < left)
    (unclosed : ∀ byte ∈ bytes, 128 ≤ byte.toNat) :
    ∃ rest, readGroups left weight value bytes = .error (.outOfBounds "get" 1 0) rest := by
  induction left generalizing weight value bytes with
  | zero => omega
  | succ left ih =>
    cases bytes with
    | nil => exact ⟨[], rfl⟩
    | cons byte bytes =>
      simp only [List.length_cons] at short
      simp only [List.forall_mem_cons] at unclosed
      have more : 128 ≤ 128 ^ left := Nat.le_self_pow (by omega) 128
      have room : weight * 128 * 128 ^ left = 128 ^ maxGroups := by
        rw [← room]
        ring
      have grown : value + byte.toNat % 128 * weight < weight * 128 := by
        have digit : byte.toNat % 128 * weight ≤ 127 * weight :=
          Nat.mul_le_mul_right weight (by omega)
        omega
      have least : weight * 128 * 128 ≤ 128 ^ maxGroups := by
        rw [← room]
        exact Nat.mul_le_mul_left _ more
      have fits : ¬ bound ≤ value + byte.toNat % 128 * weight := by
        simp only [maxGroups] at least
        simp only [bound]
        omega
      rw [readGroups_cons, if_neg fits, if_neg (by omega)]
      exact ih grown room (by omega) unclosed.2

/-! What `decode` answers. -/

theorem decode_eq_ok_iff {bytes : Bytes} {n c : Nat} :
    decode bytes = .ok (n, c) ↔ Denotes bytes n c := by
  constructor
  · intro decoded
    unfold decode at decoded
    split at decoded
    · rename_i value rest read
      cases decoded
      obtain ⟨c, closed, short, sum, small, rfl⟩ := readGroups_eq_ok_iff.1 read
      have inside := (closing_take closed).1
      have taken : bytes.length - (bytes.drop c).length = c := by
        rw [List.length_drop]
        omega
      rw [taken]
      exact ⟨closed, short, by rw [sum, ← digits_take]; omega, small⟩
    · cases decoded
  · rintro ⟨closed, short, sum, small⟩
    have inside := (closing_take closed).1
    have read : read bytes = .ok n (bytes.drop c) := by
      apply readGroups_eq_ok_iff.2
      exact ⟨c, closed, short, by rw [sum, ← digits_take]; omega, small, rfl⟩
    have taken : bytes.length - (bytes.drop c).length = c := by
      rw [List.length_drop]
      omega
    simp only [decode, read, taken]

theorem decode_of_unfinished {bytes : Bytes} (unfinished : Unfinished bytes) :
    decode bytes = .error (.outOfBounds "get" 1 0) := by
  have room : 1 * 128 ^ maxGroups = 128 ^ maxGroups := Nat.one_mul _
  obtain ⟨rest, failed⟩ :=
    readGroups_of_unfinished Nat.zero_lt_one room unfinished.short unfinished.unclosed
  have failed : read bytes = .error (.outOfBounds "get" 1 0) rest := failed
  simp only [decode, failed]

theorem decode_eq_error {bytes : Bytes} {cause : CodecError} (failed : decode bytes = .error cause) :
    cause = .varintOverflow ∨ cause = .outOfBounds "get" 1 0 ∧ Unfinished bytes := by
  unfold decode at failed
  split at failed
  · cases failed
  · rename_i reason rest read
    cases failed
    rcases readGroups_eq_error read with large | ⟨missing, short, unclosed⟩
    · exact .inl large
    · exact .inr ⟨missing, short, unclosed⟩

theorem length_encode {n : Nat} (small : n < bound) : (encode n).length = encodedLen n := by
  simp only [bound] at small
  simp only [encode, maxGroups, groups, encodedLen]
  repeat' split
  all_goals simp only [List.length_cons, List.length_nil]
  all_goals omega

theorem decode_encode {n : Nat} (small : n < bound) (rest : Bytes) :
    decode (encode n ++ rest) = .ok (n, encodedLen n) := by
  simp only [decode, reads_encode small rest, List.length_append, length_encode small]
  simp

theorem encodedLen_le {bytes : Bytes} {n c : Nat} (decoded : decode bytes = .ok (n, c)) :
    encodedLen n ≤ c := by
  unfold decode at decoded
  split at decoded
  · rename_i value rest found
    cases decoded
    obtain ⟨k, length, small, shortest⟩ := Reader.takes_varint bytes n rest found
    rw [length_encode small] at shortest
    omega
  · cases decoded

def Whole (bytes : Bytes) : Prop := closing bytes = some bytes.length

theorem whole_cons {byte : UInt8} {rest : Bytes} (whole : Whole (byte :: rest)) :
    byte.toNat < 128 ∧ rest = [] ∨ 128 ≤ byte.toNat ∧ rest ≠ [] ∧ Whole rest := by
  unfold Whole at whole
  rw [closing_cons, List.length_cons] at whole
  split at whole
  · rename_i last
    simp only [Option.some.injEq, Nat.right_eq_add, List.length_eq_zero_iff] at whole
    exact .inl ⟨last, whole⟩
  · rename_i goesOn
    obtain ⟨k, closed, length⟩ := Option.map_eq_some_iff.1 whole
    obtain rfl : k = rest.length := by omega
    right
    constructor
    · omega
    · constructor
      · rintro rfl
        cases closed
      · exact closed

/-- Of one number there is one count of each length: where the length is given, the high bits say
nothing more. -/
theorem eq_of_digits {xs ys : Bytes} (sizes : xs.length = ys.length) (whole : Whole xs)
    (whole' : Whole ys) (same : digits xs = digits ys) : xs = ys := by
  induction xs generalizing ys with
  | nil => cases whole
  | cons x xs ih =>
    cases ys with
    | nil => cases whole'
    | cons y ys =>
      simp only [List.length_cons, Nat.add_right_cancel_iff] at sizes
      simp only [digits] at same
      have tails : digits xs = digits ys := by omega
      have heads : x.toNat % 128 = y.toNat % 128 := by omega
      rcases whole_cons whole with ⟨last, rfl⟩ | ⟨goesOn, more, later⟩
      · obtain rfl := List.length_eq_zero_iff.1 sizes.symm
        rcases whole_cons whole' with ⟨last', -⟩ | ⟨-, more', -⟩
        · obtain rfl : x = y := UInt8.toNat_inj.1 (by omega)
          rfl
        · exact absurd rfl more'
      · rcases whole_cons whole' with ⟨-, rfl⟩ | ⟨goesOn', -, later'⟩
        · exact absurd (List.length_eq_zero_iff.1 sizes) more
        · have below := x.toNat_lt
          have below' := y.toNat_lt
          obtain rfl : x = y := UInt8.toNat_inj.1 (by omega)
          rw [ih sizes later later' tails]

theorem Denotes.whole {bytes : Bytes} {n c : Nat} (denotes : Denotes bytes n c) :
    (bytes.take c).length = c ∧ Whole (bytes.take c) ∧ digits (bytes.take c) = n := by
  obtain ⟨closed, _, sum, _⟩ := denotes
  obtain ⟨inside, taken⟩ := closing_take closed
  have length : (bytes.take c).length = c := List.length_take_of_le inside
  refine ⟨length, ?_, by rw [digits_take, sum]⟩
  unfold Whole
  rw [length, taken]

theorem take_eq_encode_iff {bytes : Bytes} {n c : Nat} (decoded : decode bytes = .ok (n, c)) :
    bytes.take c = encode n ↔ c = encodedLen n := by
  have denotes := decode_eq_ok_iff.1 decoded
  obtain ⟨length, whole, number⟩ := denotes.whole
  have size := length_encode denotes.small
  constructor
  · intro same
    rw [← size, ← same, length]
  · rintro rfl
    have shortest := decode_encode denotes.small []
    rw [List.append_nil] at shortest
    obtain ⟨_, whole', number'⟩ := (decode_eq_ok_iff.1 shortest).whole
    rw [← size, List.take_length] at whole' number'
    exact eq_of_digits (by rw [length, size]) whole whole' (number.trans number'.symm)

/-- Reading accepts the counts to the base 128 and no others, and says of the others why; the written
form of a number is read back, and it is the one shortest form of it. -/
theorem counts_are_base_128_numbers (bytes : Bytes) :
    (∀ n c, decode bytes = .ok (n, c) ↔ Denotes bytes n c) ∧
      (∀ op needed remaining, decode bytes = .error (.outOfBounds op needed remaining) ↔
        Unfinished bytes ∧ op = "get" ∧ needed = 1 ∧ remaining = 0) ∧
      (decode bytes = .error .varintOverflow ↔
        (¬ ∃ n c, Denotes bytes n c) ∧ ¬ Unfinished bytes) ∧
      ∀ n, n < bound →
        (script n).bytes = .ok (encode n) ∧
          (∀ rest, decode (encode n ++ rest) = .ok (n, encodedLen n)) ∧
            ∀ c, decode bytes = .ok (n, c) →
              encodedLen n ≤ c ∧ (c = encodedLen n ↔ bytes.take c = encode n) := by
  constructor
  · intro n c
    exact decode_eq_ok_iff
  constructor
  · intro op needed remaining
    constructor
    · intro failed
      rcases decode_eq_error failed with large | ⟨missing, unfinished⟩
      · cases large
      · cases missing
        exact ⟨unfinished, rfl, rfl, rfl⟩
    · rintro ⟨unfinished, rfl, rfl, rfl⟩
      exact decode_of_unfinished unfinished
  constructor
  · constructor
    · intro failed
      constructor
      · rintro ⟨n, c, denotes⟩
        cases failed.symm.trans (decode_eq_ok_iff.2 denotes)
      · intro unfinished
        cases failed.symm.trans (decode_of_unfinished unfinished)
    · rintro ⟨none, finished⟩
      cases decoded : decode bytes with
      | ok found => exact absurd ⟨found.1, found.2, decode_eq_ok_iff.1 decoded⟩ none
      | error cause =>
        rcases decode_eq_error decoded with rfl | ⟨_, unfinished⟩
        · rfl
        · exact absurd unfinished finished
  · intro n small
    have written := Script.writes_varint n
    constructor
    · rw [Script.bytes_eq_output written.plain, written.output]
    constructor
    · exact decode_encode small
    · intro c decoded
      exact ⟨encodedLen_le decoded, (take_eq_encode_iff decoded).symm⟩

/-- 300 in three bytes where two are enough, with a byte behind it. -/
theorem redundant_count_is_read_and_not_written :
    decode [0xac, 0x82, 0, 7] = .ok (300, 3) ∧ 300 < bound ∧ encodedLen 300 = 2 ∧
      encodedLen 300 ≤ 3 ∧ (3 = encodedLen 300 ↔ [0xac, 0x82, 0] = encode 300) := by
  have decoded : decode [0xac, 0x82, 0, 7] = .ok (300, 3) := by rfl
  have small : 300 < bound := by decide
  obtain ⟨_, _, _, shortest⟩ := counts_are_base_128_numbers [0xac, 0x82, 0, 7]
  obtain ⟨_, _, least⟩ := shortest 300 small
  exact ⟨decoded, small, rfl, least 3 decoded⟩

end ContractStore.Varint
