import Mathlib
import ContractStore.Proofs.Wire.Containers
import ContractStore.Proofs.Wire.SelfDelimiting

/-!
Reading cannot stand still. No value is written as nothing, and reading takes no fewer bytes than
writing spends, so every value that is read moves the cursor. A count in front of entries may be any
number; the entries behind it end with the bytes, so a count above their number is refused after at
most one attempt more than there are bytes (`reading_moves_and_large_counts_fail`).
-/
namespace ContractStore

theorem Varint.length_encode_pos (n : Nat) : 0 < (encode n).length := by
  change 0 < (groups 4 n).length
  rw [groups]
  split <;> simp

theorem IntKind.bytes_pos (kind : IntKind) : 0 < kind.bytes := by
  cases kind <;> decide

theorem WireType.length_encode_pos {t : WireType} {value : t.Carrier} {bytes : Bytes}
    (written : t.encode value = .ok bytes) : 0 < bytes.length := by
  -- what is not of fixed width starts with a count
  have front (n : Nat) (rest : Bytes) : 0 < (Varint.encode n ++ rest).length := by
    have count := Varint.length_encode_pos n
    rw [List.length_append]
    omega
  cases t with
  | int kind =>
    cases written
    rw [Bytes.length_ofNatLE]
    exact kind.bytes_pos
  | float kind =>
    cases written
    rw [Bytes.length_ofNatLE]
    cases kind <;> decide
  | bool =>
    cases written
    simp
  | varint =>
    cases written
    exact Varint.length_encode_pos _
  | string =>
    obtain ⟨_, rfl⟩ := Encoding.text_eq_ok written
    exact front _ _
  | name =>
    obtain ⟨_, rfl⟩ := Encoding.text_eq_ok written
    exact front _ _
  | checksum kind =>
    cases written
    exact front _ _
  | vec item =>
    obtain ⟨_, _, _, rfl⟩ := Encoding.counted_eq_ok written
    exact front _ _
  | array item size =>
    obtain ⟨_, _, _, rfl⟩ := Encoding.counted_eq_ok written
    exact front _ _
  | set order item =>
    cases order with
    | byValue =>
      obtain ⟨_, _, _, rfl⟩ := Encoding.counted_eq_ok written
      exact front _ _
    | byBytes =>
      obtain ⟨_, _, arranged⟩ := Encoding.sorted_eq_ok written
      obtain ⟨_, _, _, rfl⟩ := Encoding.counted_eq_ok arranged
      exact front _ _
  | map order key value =>
    cases order with
    | byValue =>
      obtain ⟨_, _, _, rfl⟩ := Encoding.counted_eq_ok written
      exact front _ _
    | byBytes =>
      obtain ⟨_, _, arranged⟩ := Encoding.sorted_eq_ok written
      obtain ⟨_, _, _, rfl⟩ := Encoding.counted_eq_ok arranged
      exact front _ _
  | tuple row =>
    obtain ⟨_, _, _, rfl⟩ := Encoding.sized_eq_ok written
    exact front _ _
  | enum decl =>
    cases written
    rw [Bytes.length_ofNatLE]
    exact decl.repr.bytes_pos
  | record typeName hasBase fields =>
    obtain ⟨_, _, _, rfl⟩ := Encoding.sized_eq_ok written
    exact front _ _

namespace Reader
variable {α β : Type}

def Advances (reader : Reader α) : Prop := Takes reader fun _ n => 0 < n

theorem advances_decode (t : WireType) : t.decode.Advances := by
  apply t.takes_decode.imp
  intro value n within
  obtain ⟨bytes, written, le⟩ := within
  have positive := WireType.length_encode_pos written
  omega

theorem advances_pair (key : Reader α) (value : Reader β) (left : key.Advances)
    (right : value.Advances) : Advances (do
      expectCount "map pair" 2
      let k ← key
      let v ← value
      return (k, v)) := by
  apply takes_bind (takes_expectCount _ _)
  intro _ front count
  apply takes_bind left
  intro k middle positive
  apply takes_bind right
  intro v back positive'
  apply takes_pure
  omega

theorem Costs.length_le {xs : List α} {n : Nat} (costs : Costs (fun _ k => 0 < k) xs n) :
    xs.length ≤ n := by
  induction costs with
  | nil => simp
  | cons head tail ih =>
    rw [List.length_cons]
    omega

theorem Advances.count_le {item : Reader α} (each : item.Advances) {count : Nat}
    {unread rest : Bytes} {xs : List α} (read : repeated item count unread = .ok xs rest) :
    count ≤ unread.length := by
  obtain ⟨n, length, rfl, costs⟩ := takes_repeated each count unread xs rest read
  have least := costs.length_le
  omega

def prepend (x : α) :
    EStateM.Result CodecError Bytes (List α) → EStateM.Result CodecError Bytes (List α)
  | .ok xs rest => .ok (x :: xs) rest
  | .error cause rest => .error cause rest

/-- The loop of `repeated` with the number of items that it attempts: all that it reads, and the one
that fails if there is one. -/
def tallied (item : Reader α) : Nat → Bytes → EStateM.Result CodecError Bytes (List α) × Nat
  | 0, unread => (.ok [] unread, 0)
  | count + 1, unread =>
    match item unread with
    | .error cause rest => (.error cause rest, 1)
    | .ok x rest =>
      let (result, attempts) := tallied item count rest
      (prepend x result, attempts + 1)

theorem tallied_fst (item : Reader α) (count : Nat) (unread : Bytes) :
    (tallied item count unread).1 = repeated item count unread := by
  induction count generalizing unread with
  | zero => rfl
  | succ count ih =>
    rw [repeated_succ]
    simp only [tallied, bind, EStateM.bind]
    cases item unread with
    | error cause rest => rfl
    | ok x rest =>
      simp only [ih rest]
      cases repeated item count rest <;> rfl

theorem lt_attempts_iff (item : Reader α) (count i : Nat) (unread : Bytes) :
    i < (tallied item count unread).2 ↔
      i < count ∧ ∃ xs rest, repeated item i unread = .ok xs rest := by
  induction count generalizing i unread with
  | zero => simp [tallied]
  | succ count ih =>
    cases i with
    | zero =>
      have first : 0 < (tallied item (count + 1) unread).2 := by
        rw [tallied]
        split <;> simp
      simp only [first, repeated_zero, Nat.zero_lt_succ, true_and, true_iff]
      exact ⟨[], unread, rfl⟩
    | succ i =>
      rw [repeated_succ]
      simp only [tallied, bind, EStateM.bind]
      cases item unread with
      | error cause rest => simp
      | ok x rest =>
        simp only [Nat.add_lt_add_iff_right, ih]
        cases repeated item i rest <;> simp [pure, EStateM.pure]

theorem Advances.attempts_le {item : Reader α} (each : item.Advances) (count : Nat)
    (unread : Bytes) : (tallied item count unread).2 ≤ unread.length + 1 := by
  apply Nat.not_lt.1
  intro many
  obtain ⟨_, xs, rest, read⟩ := (lt_attempts_iff item count _ unread).1 many
  have least := each.count_le read
  omega

end Reader

namespace ReadBuffer
variable {α β : Type}

theorem run_eq_ok {reader : Reader α} (ends : reader.SelfDelimiting) {b after : ReadBuffer}
    {value : α} (ran : b.run reader = (.ok value, after)) :
    reader b.unread = .ok value after.unread ∧ after.data = b.data ∧
      after.tell + after.unread.length = b.tell + b.unread.length := by
  unfold run at ran
  split at ran
  · rename_i found rest read
    cases ran
    obtain ⟨taken, split, _, _⟩ := ends b.unread value rest read
    have within := congrArg List.length split
    have inside := b.pos_le
    simp only [unread, List.length_drop, List.length_append] at within
    have behind : b.data.drop (b.data.length - rest.length) = rest := by
      have place : b.data.length - rest.length = b.pos + taken.length := by omega
      rw [place, ← List.drop_drop]
      change (b.unread).drop taken.length = rest
      rw [split, List.drop_left]
    constructor
    · rw [read]
      simp only [unread, behind]
    · constructor
      · rfl
      · simp only [unread, tell, List.length_drop]
        omega
  · cases ran

theorem run_bind {reader : Reader α} (ends : reader.SelfDelimiting) {b between : ReadBuffer}
    {x : α} (ran : b.run reader = (.ok x, between)) (next : α → Reader β) :
    b.run (reader >>= next) = between.run (next x) := by
  obtain ⟨read, data, _⟩ := run_eq_ok ends ran
  have later : (reader >>= next) b.unread = next x between.unread := Reader.bind_of_ok read
  obtain ⟨_, pos, inside⟩ := between
  cases data
  unfold run
  rw [later]

theorem tell_lt_of_run {reader : Reader α} (ends : reader.SelfDelimiting)
    (moves : reader.Advances) {b after : ReadBuffer} {value : α}
    (ran : b.run reader = (.ok value, after)) : b.tell < after.tell := by
  obtain ⟨read, _, sum⟩ := run_eq_ok ends ran
  obtain ⟨n, length, positive⟩ := moves b.unread value after.unread read
  omega

end ReadBuffer

inductive Collection where
  | vec (item : WireType)
  | set (order : EntryOrder) (item : WireType)
  | map (order : EntryOrder) (key value : WireType)

namespace Collection

def type : Collection → WireType
  | vec item => .vec item
  | set order item => .set order item
  | map order key value => .map order key value

def Entry : Collection → Type
  | vec item => item.Carrier
  | set _ item => item.Carrier
  | map _ key value => key.Carrier × value.Carrier

def entry : (c : Collection) → Reader c.Entry
  | vec item => item.decode
  | set _ item => item.decode
  | map _ key value => do
    Reader.expectCount "map pair" 2
    let k ← key.decode
    let v ← value.decode
    return (k, v)

def build : (c : Collection) → List c.Entry → c.type.Carrier
  | vec _, items => items
  | set order item, items => WireType.collect order item items
  | map order key value, pairs => WireType.gather order key value pairs

theorem decode_eq (c : Collection) :
    c.type.decode = (Varint.read >>= fun count => do
      let entries ← Reader.repeated c.entry count
      return c.build entries) := by
  cases c with
  | vec item => exact (bind_pure (Reader.counted item.decode)).symm.trans (bind_assoc _ _ _)
  | set order item => exact bind_assoc _ _ _
  | map order key value => exact bind_assoc _ _ _

theorem advances_entry (c : Collection) : c.entry.Advances := by
  cases c with
  | vec item => exact Reader.advances_decode item
  | set order item => exact Reader.advances_decode item
  | map order key value =>
    exact Reader.advances_pair _ _ (Reader.advances_decode key) (Reader.advances_decode value)

theorem run_decode (c : Collection) {b behind : ReadBuffer} {count : Nat}
    (counted : b.run Varint.read = (.ok count, behind)) :
    b.run c.type.decode = behind.run (do
      let entries ← Reader.repeated c.entry count
      return c.build entries) := by
  rw [decode_eq]
  exact ReadBuffer.run_bind Reader.selfDelimiting_varint counted _

theorem run_decode_of_large_count (c : Collection) {b behind : ReadBuffer} {count : Nat}
    (counted : b.run Varint.read = (.ok count, behind)) (large : behind.remaining < count) :
    ∃ cause, (b.run c.type.decode).1 = .error cause := by
  rw [c.run_decode counted]
  cases read : Reader.repeated c.entry count behind.unread with
  | ok entries rest =>
    have least := c.advances_entry.count_le read
    simp only [ReadBuffer.remaining, ReadBuffer.unread, List.length_drop] at large least
    omega
  | error cause rest =>
    refine ⟨cause, ?_⟩
    simp only [ReadBuffer.run, Reader.bind_of_error read]

end Collection

/-- A value that is read moves the cursor, and not past the end. So of a collection whose count is
above the number of bytes behind it nothing is read; and whatever the count, the loop that reads the
entries attempts at most one more than there are bytes. -/
theorem reading_moves_and_large_counts_fail :
    (∀ (t : WireType) (b after : ReadBuffer) (value : t.Carrier),
      b.run t.decode = (.ok value, after) →
        after.data = b.data ∧ b.tell < after.tell ∧ after.tell ≤ b.data.length) ∧
      ∀ (c : Collection) (b behind : ReadBuffer) (count : Nat),
        b.run Varint.read = (.ok count, behind) →
          b.run c.type.decode = behind.run (do
            let entries ← Reader.repeated c.entry count
            return c.build entries) ∧
          (Reader.tallied c.entry count behind.unread).1 =
            Reader.repeated c.entry count behind.unread ∧
          (∀ i, i < (Reader.tallied c.entry count behind.unread).2 ↔ i < count ∧
            ∃ entries rest, Reader.repeated c.entry i behind.unread = .ok entries rest) ∧
          (Reader.tallied c.entry count behind.unread).2 ≤ behind.remaining + 1 ∧
          (behind.remaining < count → ∃ cause, (b.run c.type.decode).1 = .error cause) := by
  constructor
  · intro t b after value ran
    obtain ⟨_, data, _⟩ := ReadBuffer.run_eq_ok t.selfDelimiting_decode ran
    have moved := ReadBuffer.tell_lt_of_run t.selfDelimiting_decode (Reader.advances_decode t) ran
    have inside := after.pos_le
    rw [data] at inside
    exact ⟨data, moved, inside⟩
  · intro c b behind count counted
    have attempts := c.advances_entry.attempts_le count behind.unread
    simp only [ReadBuffer.unread, List.length_drop] at attempts
    exact ⟨c.run_decode counted, Reader.tallied_fst _ _ _,
      fun i => Reader.lt_attempts_iff _ _ i _, attempts, c.run_decode_of_large_count counted⟩

/-- A list of units is read at the cost of a byte each, and 2^32 - 1 of them in three bytes are
refused at the fourth. -/
theorem units_are_counted_in_bytes :
    let c : Collection := .vec .unit
    let b : ReadBuffer := ⟨[9, 2, 0, 0], 1, by decide⟩
    let many : ReadBuffer := .ofBytes [0xff, 0xff, 0xff, 0xff, 0x0f, 0, 0, 0]
    let behind : ReadBuffer := ⟨many.data, 5, by decide⟩
    b.run c.type.decode = (.ok [(), ()], ⟨b.data, 4, by decide⟩) ∧ b.tell < 4 ∧
      many.run Varint.read = (.ok 0xffffffff, behind) ∧ behind.remaining < 0xffffffff ∧
        (Reader.tallied c.entry 0xffffffff behind.unread).2 ≤ 4 ∧
          ∃ cause, (many.run c.type.decode).1 = .error cause := by
  intro c b many behind
  obtain ⟨moves, large⟩ := reading_moves_and_large_counts_fail
  have two : b.run c.type.decode = (.ok [(), ()], ⟨b.data, 4, by decide⟩) := by rfl
  have counted : many.run Varint.read = (.ok 0xffffffff, behind) := by rfl
  have short : behind.remaining < 0xffffffff := by decide
  obtain ⟨_, _, _, attempts, fails⟩ := large c many behind 0xffffffff counted
  exact ⟨two, (moves c.type b _ _ two).2.1, counted, short, attempts, fails short⟩

end ContractStore
