/-!
Byte strings: the little-endian form of a number, the UTF-8 form of a text, and the cut that takes
exactly as many bytes as asked for. `cut_eq` says what the cut returns.
-/
namespace ContractStore

abbrev Bytes := List UInt8

namespace Bytes

def ofNatLE : (n v : Nat) → Bytes
  | 0, _ => []
  | n + 1, v => UInt8.ofNat v :: ofNatLE n (v / 256)

def toNatLE : Bytes → Nat
  | [] => 0
  | b :: rest => b.toNat + 256 * toNatLE rest

def ofString (s : String) : Bytes := s.toByteArray.data.toList

def toString? (bs : Bytes) : Option String := String.fromUTF8? ⟨bs.toArray⟩

/-- Moves `n` bytes from `bs` onto `taken`, which is kept in reverse; none if `bs` is too short. -/
def cutOnto : Nat → Bytes → Bytes → Option (Bytes × Bytes)
  | 0, taken, bs => some (taken.reverse, bs)
  | _ + 1, _, [] => none
  | n + 1, taken, b :: bs => cutOnto n (b :: taken) bs

/-- The first `n` bytes and the rest. It looks at no byte past the `n`-th. -/
def cut (bs : Bytes) (n : Nat) : Option (Bytes × Bytes) := cutOnto n [] bs

theorem length_ofNatLE (n v : Nat) : (ofNatLE n v).length = n := by
  induction n generalizing v with
  | zero => rfl
  | succ n ih => simp [ofNatLE, ih]

theorem ofNat_toNatLE_ofNatLE (n v : Nat) :
    BitVec.ofNat (8 * n) (toNatLE (ofNatLE n v)) = BitVec.ofNat (8 * n) v := by
  have modulo (n v : Nat) : toNatLE (ofNatLE n v) = v % 256 ^ n := by
    induction n generalizing v with
    | zero => simp [ofNatLE, toNatLE, Nat.mod_one]
    | succ n ih =>
      have byte : (UInt8.ofNat v).toNat = v % 256 := UInt8.toNat_ofNat'
      rw [ofNatLE, toNatLE, ih, byte, Nat.pow_succ', Nat.mod_mul]
  apply BitVec.eq_of_toNat_eq
  rw [BitVec.toNat_ofNat, BitVec.toNat_ofNat, modulo, Nat.pow_mul]
  exact Nat.mod_mod v _

theorem cutOnto_eq (n : Nat) (taken bs : Bytes) :
    cutOnto n taken bs =
      if n ≤ bs.length then some (taken.reverse ++ bs.take n, bs.drop n) else none := by
  induction n generalizing taken bs with
  | zero => simp [cutOnto]
  | succ n ih =>
    cases bs with
    | nil => simp [cutOnto]
    | cons b bs => simp [cutOnto, ih]

theorem cut_eq (bs : Bytes) (n : Nat) :
    bs.cut n = if n ≤ bs.length then some (bs.take n, bs.drop n) else none := by
  simp [cut, cutOnto_eq]

theorem length_of_cut {bs taken rest : Bytes} {n : Nat} (h : bs.cut n = some (taken, rest)) :
    taken.length = n := by
  rw [cut_eq] at h
  split at h
  · rename_i enough
    cases h
    exact List.length_take_of_le enough
  · cases h

end Bytes
end ContractStore
