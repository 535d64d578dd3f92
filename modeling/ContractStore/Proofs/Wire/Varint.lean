import ContractStore.Proofs.Stream.Reads

/-!
Counts are read back as they were written: `readGroups` undoes `groups`, one group at a time, with
the value of the groups so far and the weight of the next one carried along.
-/
namespace ContractStore

namespace Varint

theorem toNat_ofNat_of_lt {n : Nat} (h : n < 256) : (UInt8.ofNat n).toNat = n := by
  rw [UInt8.toNat_ofNat']
  exact Nat.mod_eq_of_lt h

theorem readGroups_last {left weight value n : Nat} (rest : Bytes) (small : n < 128)
    (fits : value + n * weight < bound) :
    readGroups (left + 1) weight value (UInt8.ofNat n :: rest) = .ok (value + n * weight) rest := by
  have byte : (UInt8.ofNat n).toNat = n := toNat_ofNat_of_lt (by omega)
  simp only [readGroups, Reader.get, bind, EStateM.bind, byte, Nat.mod_eq_of_lt small,
    Nat.not_le.2 fits, small, if_true, if_false]
  rfl

/-- The groups of `n` add `n`, times the weight of the first, to the value read so far. -/
theorem readGroups_groups (more left weight value n : Nat) (rest : Bytes) (enough : more < left)
    (small : n < 128 * Nat.pow 128 more) (fits : value + n * weight < bound) :
    readGroups left weight value (groups more n ++ rest) = .ok (value + n * weight) rest := by
  induction more generalizing left weight value n with
  | zero =>
    obtain ⟨left, rfl⟩ : ∃ k, left = k + 1 := ⟨left - 1, by omega⟩
    exact readGroups_last rest (by simpa [Nat.pow] using small) fits
  | succ more ih =>
    obtain ⟨left, rfl⟩ : ∃ k, left = k + 1 := ⟨left - 1, by omega⟩
    rw [groups]
    split
    · rename_i last
      exact readGroups_last rest last fits
    · have byte : (UInt8.ofNat (n % 128 + 128)).toNat = n % 128 + 128 :=
        toNat_ofNat_of_lt (by omega)
      have low : (n % 128 + 128) % 128 = n % 128 := by omega
      have parts : n % 128 * weight + n / 128 * (weight * 128) = n * weight := by
        calc n % 128 * weight + n / 128 * (weight * 128)
            = (n % 128 + 128 * (n / 128)) * weight := by
              rw [Nat.add_mul, Nat.mul_comm weight, ← Nat.mul_assoc, Nat.mul_comm (n / 128)]
          _ = n * weight := by rw [Nat.mod_add_div]
      have tailSmall : n / 128 < 128 * Nat.pow 128 more := by
        have shape : Nat.pow 128 (more + 1) = Nat.pow 128 more * 128 := rfl
        omega
      have later := ih left (weight * 128) (value + n % 128 * weight) (n / 128) (by omega)
        tailSmall (by omega)
      have below : ¬ bound ≤ value + n % 128 * weight := by omega
      have goesOn : ¬ n % 128 + 128 < 128 := by omega
      rw [List.cons_append, readGroups]
      simp only [Reader.get, bind, EStateM.bind, byte, low, below, goesOn, if_false]
      rw [later, Nat.add_assoc, parts]

theorem reads_encode {n : Nat} (small : n < bound) : Reader.Reads read (encode n) n := by
  intro rest
  have found := readGroups_groups (maxGroups - 1) maxGroups 1 0 n rest (by decide)
    (Nat.lt_trans small (by decide)) (by simpa using small)
  rw [Nat.zero_add, Nat.mul_one] at found
  exact found

theorem countOf_eq_ok {length count : Nat} (h : countOf length = .ok count) :
    length < bound ∧ count = length := by
  unfold countOf at h
  split at h
  · rename_i small
    cases h
    exact ⟨small, rfl⟩
  · cases h

end Varint

namespace Reader

theorem reads_expectCount (what : String) {expected : Nat} (small : expected < Varint.bound) :
    Reads (expectCount what expected) (Varint.encode expected) () := by
  intro rest
  have counted := Varint.reads_encode small rest
  simp only [expectCount, bind, EStateM.bind, counted, if_true]
  rfl

theorem reads_expectSize (what : String) {size : Nat} (small : size < Varint.bound) :
    Reads (expectSize what size) (Varint.encode size) () := by
  have count : Varint.countOf size = .ok size := by simp [Varint.countOf, small]
  unfold expectSize
  rw [count]
  exact reads_expectCount what small

theorem reads_text (s : String) (small : (Bytes.ofString s).length < Varint.bound) :
    Reads text (Varint.encode (Bytes.ofString s).length ++ Bytes.ofString s) s := by
  have decoded : Bytes.toString? (Bytes.ofString s) = some s := by
    have valid := s.isValidUTF8
    simp [Bytes.toString?, Bytes.ofString, String.fromUTF8?, valid, String.fromUTF8]
  unfold text
  refine reads_bind (Varint.reads_encode small) ?_
  intro rest
  have taken := reads_read (Bytes.ofString s) rest
  simp only [bind, EStateM.bind, taken, decoded]
  rfl

theorem reads_counted {α : Type} {item : Reader α} {bytes : Bytes} {xs : List α}
    (small : xs.length < Varint.bound) (h : ReadsAll item bytes xs) :
    Reads (counted item) (Varint.encode xs.length ++ bytes) xs :=
  reads_bind (Varint.reads_encode small) (reads_repeated h)

end Reader
end ContractStore
