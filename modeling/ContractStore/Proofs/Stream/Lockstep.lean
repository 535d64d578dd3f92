import ContractStore.Proofs.Stream.Moves

/-!
Three targets in lockstep. What a growing buffer accepts a counter accepts, and they stand at one
place all the time, since both wrap around. A buffer of fixed size never does: it refuses the first
skip whose sum no machine word holds. Up to there it stands at the same place, and if it was all
zeros, it has the grown bytes in front and zeros behind them, as if the growing buffer had been
padded from the start (`Lockstep`).
-/
namespace ContractStore

theorem wrapped_of_lt {sum : Nat} (word : sum < UInt64.size) : wrapped sum = sum :=
  Nat.mod_eq_of_lt word

namespace Script

def ofOps (ops : List StreamOp) : Script := ops.map .ok

section Targets
variable {σ : Type} [WriteTarget σ] {op : StreamOp} {rest : List StreamOp} {target next last : σ}

theorem run_ofOps_cons (rest : List StreamOp) (done : WriteTarget.apply op target = .ok next) :
    (ofOps (op :: rest)).run target = (ofOps rest).run next := by
  simp only [ofOps, List.map_cons, run, done]

theorem run_ofOps_of_error {cause : CodecError} (rest : List StreamOp)
    (refused : WriteTarget.apply op target = .error cause) :
    (ofOps (op :: rest)).run target = (.error cause, target) := by
  simp only [ofOps, List.map_cons, run, refused]

theorem apply_of_run_ofOps (accepted : (ofOps (op :: rest)).run target = (.ok (), last)) :
    ∃ next, WriteTarget.apply op target = .ok next ∧ (ofOps rest).run next = (.ok (), last) := by
  cases done : WriteTarget.apply op target with
  | error cause =>
    rw [run_ofOps_of_error rest done] at accepted
    cases accepted
  | ok next => exact ⟨next, rfl, (run_ofOps_cons rest done).symm.trans accepted⟩

/-- A front of what is accepted is accepted, and so is the rest after it. -/
theorem run_ofOps_append {first second : List StreamOp}
    (accepted : (ofOps (first ++ second)).run target = (.ok (), last)) :
    ∃ between, (ofOps first).run target = (.ok (), between) ∧
      (ofOps second).run between = (.ok (), last) := by
  rw [ofOps, List.map_append, run_append] at accepted
  split at accepted
  · rename_i between ran
    exact ⟨between, ran, accepted⟩
  · cases accepted

end Targets
end Script

namespace SizeCounter

theorem size_apply (op : StreamOp) (c : SizeCounter) :
    (c.apply op).size = wrapped (op.place c.size) := by
  cases op with
  | write new => exact (Nat.mod_add_mod _ _ _).symm
  | put byte => exact (Nat.mod_add_mod _ _ _).symm
  | skip count => exact (Nat.mod_add_mod _ _ _).symm
  | seek target => rfl

end SizeCounter

namespace GrowableBuffer
variable {b next last : GrowableBuffer} {op : StreamOp} {ops : List StreamOp}

theorem tell_le_length (b : GrowableBuffer) : WriteTarget.tell b ≤ b.bytes.length := b.inside_cursor

theorem tell_of_apply (done : WriteTarget.apply op b = .ok next)
    (word : next.bytes.length < UInt64.size) :
    WriteTarget.tell next = wrapped (op.place (WriteTarget.tell b)) := by
  have small : WriteTarget.tell next < UInt64.size := Nat.lt_of_le_of_lt next.tell_le_length word
  cases op with
  | write new =>
    cases done
    rw [tell_overwrite] at small ⊢
    exact (wrapped_of_lt small).symm
  | put byte =>
    cases done
    rw [tell_overwrite] at small ⊢
    exact (wrapped_of_lt small).symm
  | skip count =>
    cases done
    exact b.tell_placed _
  | seek target =>
    change (if target ≤ b.bytes.length then Except.ok (b.placed target) else _) = _ at done
    split at done
    · cases done
      rw [tell_placed] at small ⊢
      exact (wrapped_of_lt small).symm
    · cases done

theorem length_le_of_run (ran : (Script.ofOps ops).run b = (.ok (), last)) :
    b.bytes.length ≤ last.bytes.length := by
  have larger := b.length_le_run (Script.ofOps ops)
  rw [ran] at larger
  exact larger

theorem counter_of_run {counter : SizeCounter}
    (accepted : (Script.ofOps ops).run b = (.ok (), last)) (word : last.bytes.length < UInt64.size)
    (same : counter.size = WriteTarget.tell b) :
    ∃ counted, (Script.ofOps ops).run counter = (.ok (), counted) ∧
      counted.size = WriteTarget.tell last := by
  induction ops generalizing b counter with
  | nil =>
    cases accepted
    exact ⟨counter, rfl, same⟩
  | cons op rest ih =>
    obtain ⟨next, done, later⟩ := Script.apply_of_run_ofOps accepted
    rw [Script.run_ofOps_cons rest rfl]
    apply ih later
    rw [SizeCounter.size_apply, same]
    exact (tell_of_apply done (Nat.lt_of_le_of_lt (length_le_of_run later) word)).symm

/-- Whether an operation passes over the largest position that there is. -/
def Wraps (b : GrowableBuffer) : StreamOp → Prop
  | .skip count => UInt64.size ≤ WriteTarget.tell b + count
  | _ => False

def after (b : GrowableBuffer) (ops : List StreamOp) : GrowableBuffer :=
  ((Script.ofOps ops).run b).2

def NeverWraps (b : GrowableBuffer) (ops : List StreamOp) : Prop :=
  ∀ earlier op later, ops = earlier ++ op :: later → ¬ (b.after earlier).Wraps op

theorem neverWraps_cons (done : WriteTarget.apply op b = .ok next) (rest : List StreamOp) :
    b.NeverWraps (op :: rest) ↔ ¬ b.Wraps op ∧ next.NeverWraps rest := by
  have behind (earlier : List StreamOp) : b.after (op :: earlier) = next.after earlier := by
    unfold after
    rw [Script.run_ofOps_cons earlier done]
  constructor
  · intro never
    refine ⟨never [] op rest rfl, fun earlier later rest' split => ?_⟩
    rw [← behind]
    exact never (op :: earlier) later rest' (congrArg (op :: ·) split)
  · rintro ⟨first, never⟩ earlier op' later split
    cases earlier with
    | nil =>
      cases split
      exact first
    | cons op'' earlier =>
      cases split
      rw [behind]
      exact never earlier op' later rfl

end GrowableBuffer

structure Lockstep (size : Nat) (grown : GrowableBuffer) (bounded : BoundedBuffer) : Prop where
  behind : bounded.behind = grown.behind
  ahead : bounded.ahead = grown.ahead.padTo (size - grown.behind.length)

namespace Lockstep
variable {size : Nat} {grown next last : GrowableBuffer} {bounded : BoundedBuffer}
  {op : StreamOp} {ops : List StreamOp}

theorem start (size reserved : Nat) : Lockstep size (.withCapacity reserved)
    (.ofBytes (List.replicate size 0)) :=
  ⟨rfl, rfl⟩

theorem tell_eq (h : Lockstep size grown bounded) :
    WriteTarget.tell bounded = WriteTarget.tell grown :=
  congrArg List.length h.behind

theorem bytes_eq (h : Lockstep size grown bounded) : bounded.bytes = grown.bytes.padTo size := by
  simp only [BoundedBuffer.bytes, h.behind, h.ahead, GrowableBuffer.bytes, Bytes.padTo,
    List.append_assoc, List.length_append, List.length_reverse, Nat.sub_sub]

/-- What is written fits, and covers of the zeros what it covers past the end. -/
theorem overwrite (h : Lockstep size grown bounded) {new : Bytes}
    (room : (grown.overwrite new).bytes.length ≤ size) :
    new.length ≤ bounded.ahead.length ∧
      Lockstep size (grown.overwrite new) (bounded.filled new) := by
  have behind : (grown.overwrite new).behind.length = grown.behind.length + new.length :=
    grown.tell_overwrite new
  rw [grown.length_overwrite] at room
  refine ⟨?_, ?_, ?_⟩
  · rw [h.ahead]
    exact Nat.le_trans (by omega) (Bytes.le_length_padTo _ _)
  · rw [BoundedBuffer.filled, h.behind, GrowableBuffer.overwrite]
  · rw [behind, BoundedBuffer.filled, h.ahead, Bytes.drop_padTo, Nat.sub_sub]
    rfl

theorem placed (h : Lockstep size grown bounded) {place : Nat} (room : place ≤ size) :
    Lockstep size (grown.placed place) (bounded.placed place) := by
  have there : (grown.placed place).behind.length = place := grown.tell_placed place
  constructor
  · rw [BoundedBuffer.placed, h.bytes_eq, Bytes.take_padTo room,
      ← Bytes.take_padTo (Nat.le_refl place)]
    rfl
  · rw [there, BoundedBuffer.placed, h.bytes_eq, Bytes.drop_padTo, ← Bytes.drop_padTo_self]
    rfl

theorem step (h : Lockstep size grown bounded) (done : WriteTarget.apply op grown = .ok next)
    (room : next.bytes.length ≤ size) (stays : ¬ grown.Wraps op) :
    ∃ after, WriteTarget.apply op bounded = .ok after ∧ Lockstep size next after := by
  cases op with
  | write new =>
    cases done
    obtain ⟨fits, after⟩ := h.overwrite room
    exact ⟨_, BoundedBuffer.overwrite_of_fits fits "write", after⟩
  | put byte =>
    cases done
    obtain ⟨fits, after⟩ := h.overwrite room
    exact ⟨_, BoundedBuffer.overwrite_of_fits fits "put", after⟩
  | skip count =>
    cases done
    have plain : wrapped (grown.behind.length + count) = grown.behind.length + count :=
      wrapped_of_lt (Nat.lt_of_not_le stays)
    rw [plain] at room ⊢
    have place : grown.behind.length + count ≤ size := by
      rw [grown.bytes_placed] at room
      exact Nat.le_trans (Bytes.le_length_padTo _ _) room
    refine ⟨_, ?_, h.placed place⟩
    have fits : count ≤ bounded.ahead.length := by
      rw [h.ahead]
      exact Nat.le_trans (by omega) (Bytes.le_length_padTo _ _)
    rw [BoundedBuffer.apply_skip, if_pos fits, ← h.behind, bounded.placed_add]
  | seek target =>
    change (if target ≤ grown.bytes.length then Except.ok (grown.placed target) else _) = _ at done
    split at done
    · rename_i inside
      cases done
      have larger := grown.length_le_placed target
      refine ⟨_, ?_, h.placed (Nat.le_trans inside (Nat.le_trans larger room))⟩
      apply if_pos
      rw [h.bytes_eq]
      exact Nat.le_trans inside (Bytes.length_le_padTo _ _)
    · cases done

/-- A buffer of fixed size has no room for a count that leads past every position. -/
theorem refused (h : Lockstep size grown bounded) (room : grown.bytes.length ≤ size)
    (word : size < UInt64.size) (wraps : grown.Wraps op) :
    ∃ cause, WriteTarget.apply op bounded = .error cause := by
  cases op with
  | skip count =>
    have total : bounded.bytes.length = size := by
      rw [h.bytes_eq, Bytes.padTo, List.length_append, List.length_replicate]
      omega
    have parts : bounded.bytes.length = bounded.behind.length + bounded.ahead.length := by
      simp [BoundedBuffer.bytes]
    have far : UInt64.size ≤ bounded.behind.length + count := h.behind ▸ wraps
    have short : ¬ count ≤ bounded.ahead.length := by omega
    rw [BoundedBuffer.apply_skip, if_neg short]
    exact ⟨_, rfl⟩
  | write new => exact wraps.elim
  | put byte => exact wraps.elim
  | seek target => exact wraps.elim

theorem run (h : Lockstep size grown bounded)
    (accepted : (Script.ofOps ops).run grown = (.ok (), last)) (room : last.bytes.length ≤ size)
    (never : grown.NeverWraps ops) :
    ∃ filled, (Script.ofOps ops).run bounded = (.ok (), filled) ∧ Lockstep size last filled := by
  induction ops generalizing grown bounded with
  | nil =>
    cases accepted
    exact ⟨bounded, rfl, h⟩
  | cons op rest ih =>
    obtain ⟨next, done, later⟩ := Script.apply_of_run_ofOps accepted
    obtain ⟨stays, never⟩ := (GrowableBuffer.neverWraps_cons done rest).1 never
    have larger := GrowableBuffer.length_le_of_run later
    obtain ⟨after, done', related⟩ := h.step done (Nat.le_trans larger room) stays
    rw [Script.run_ofOps_cons rest done']
    exact ih related later never

theorem neverWraps_of_run (h : Lockstep size grown bounded) {filled : BoundedBuffer}
    (accepted : (Script.ofOps ops).run grown = (.ok (), last)) (room : last.bytes.length ≤ size)
    (word : size < UInt64.size) (ran : (Script.ofOps ops).run bounded = (.ok (), filled)) :
    grown.NeverWraps ops := by
  induction ops generalizing grown bounded with
  | nil =>
    intro earlier op later split
    cases earlier <;> cases split
  | cons op rest ih =>
    obtain ⟨next, done, later⟩ := Script.apply_of_run_ofOps accepted
    obtain ⟨after, done', later'⟩ := Script.apply_of_run_ofOps ran
    have larger := GrowableBuffer.length_le_of_run later
    have stays : ¬ grown.Wraps op := by
      intro wraps
      have fits := GrowableBuffer.length_le_of_run accepted
      obtain ⟨cause, refused⟩ := h.refused (Nat.le_trans fits room) word wraps
      cases refused.symm.trans done'
    obtain ⟨after', again, related⟩ := h.step done (Nat.le_trans larger room) stays
    cases again.symm.trans done'
    exact (GrowableBuffer.neverWraps_cons done rest).2 ⟨stays, ih related later later'⟩

end Lockstep

/-- What a growing buffer accepts from the start a counter accepts, and stands where it stands after
each operation. Zeros of fixed size accept it exactly if no skip wraps around. Then they too stand
at the same place each time, and have the grown bytes in front in the end and nothing else. -/
theorem write_targets_run_in_lockstep_unless_wrapped {reserved size : Nat} {ops : List StreamOp}
    {last : GrowableBuffer}
    (accepted : (Script.ofOps ops).run (GrowableBuffer.withCapacity reserved) = (.ok (), last))
    (room : last.bytes.length ≤ size) (word : size < UInt64.size) :
    let empty := GrowableBuffer.withCapacity reserved
    let zeros := BoundedBuffer.ofBytes (List.replicate size 0)
    (∀ done, done <+: ops → ∃ grown counter,
      (Script.ofOps done).run empty = (.ok (), grown) ∧
      (Script.ofOps done).run SizeCounter.new = (.ok (), counter) ∧
      WriteTarget.tell counter = WriteTarget.tell grown) ∧
    ((∃ bounded, (Script.ofOps ops).run zeros = (.ok (), bounded)) ↔ empty.NeverWraps ops) ∧
    ∀ bounded, (Script.ofOps ops).run zeros = (.ok (), bounded) →
      bounded.bytes = last.bytes ++ List.replicate (size - last.bytes.length) 0 ∧
        ∀ done, done <+: ops → ∃ grown between,
          (Script.ofOps done).run empty = (.ok (), grown) ∧
          (Script.ofOps done).run zeros = (.ok (), between) ∧
          WriteTarget.tell between = WriteTarget.tell grown := by
  intro empty zeros
  have beside := Lockstep.start size reserved
  have never {bounded : BoundedBuffer} (ran : (Script.ofOps ops).run zeros = (.ok (), bounded)) :
      empty.NeverWraps ops := beside.neverWraps_of_run accepted room word ran
  refine ⟨?_, ⟨fun ⟨_, ran⟩ => never ran, fun stays => ?_⟩, fun bounded ran => ⟨?_, ?_⟩⟩
  · rintro done ⟨more, rfl⟩
    obtain ⟨grown, front, back⟩ := Script.run_ofOps_append accepted
    have larger := GrowableBuffer.length_le_of_run back
    have small := Nat.lt_of_le_of_lt (Nat.le_trans larger room) word
    have begins : SizeCounter.new.size = WriteTarget.tell empty := rfl
    obtain ⟨counter, counted, same⟩ := GrowableBuffer.counter_of_run front small begins
    exact ⟨grown, counter, front, counted, same⟩
  · obtain ⟨bounded, ran, _⟩ := beside.run accepted room stays
    exact ⟨bounded, ran⟩
  · obtain ⟨filled, again, related⟩ := beside.run accepted room (never ran)
    cases again.symm.trans ran
    exact related.bytes_eq
  · rintro done ⟨more, rfl⟩
    obtain ⟨grown, front, back⟩ := Script.run_ofOps_append accepted
    have larger := GrowableBuffer.length_le_of_run back
    have stays : empty.NeverWraps done := fun earlier op later split =>
      never ran earlier op (later ++ more) (by rw [split, List.append_assoc, List.cons_append])
    obtain ⟨between, filled, related⟩ := beside.run front (Nat.le_trans larger room) stays
    exact ⟨grown, between, front, filled, related.tell_eq⟩

/-- The second write straddles the end, and what is passed over last lies partly behind it. -/
theorem straddling_write_and_skip_in_lockstep :
    let ops : List StreamOp :=
      [.write [1, 2, 3], .seek 1, .write [7, 8, 9], .seek 3, .skip 3, .put 4, .seek 0]
    let empty := GrowableBuffer.withCapacity 2
    let zeros := BoundedBuffer.ofBytes (List.replicate 9 0)
    let last : GrowableBuffer := ⟨2, [], [1, 7, 8, 9, 0, 0, 4]⟩
    let filled : BoundedBuffer := ⟨[], [1, 7, 8, 9, 0, 0, 4, 0, 0]⟩
    (Script.ofOps ops).run empty = (.ok (), last) ∧ last.bytes.length ≤ 9 ∧ 9 < UInt64.size ∧
      (∃ grown counter, (Script.ofOps (ops.take 5)).run empty = (.ok (), grown) ∧
        (Script.ofOps (ops.take 5)).run SizeCounter.new = (.ok (), counter) ∧
        WriteTarget.tell counter = WriteTarget.tell grown) ∧
      empty.NeverWraps ops ∧ (Script.ofOps ops).run zeros = (.ok (), filled) ∧
      filled.bytes = last.bytes ++ [0, 0] := by
  intro ops empty zeros last filled
  have accepted : (Script.ofOps ops).run empty = (.ok (), last) := by cbv
  have ran : (Script.ofOps ops).run zeros = (.ok (), filled) := by cbv
  have room : last.bytes.length ≤ 9 := by decide
  have word : 9 < UInt64.size := by decide
  obtain ⟨counts, never, fills⟩ := write_targets_run_in_lockstep_unless_wrapped accepted room word
  exact ⟨accepted, room, word, counts _ (ops.take_prefix 5), never.1 ⟨filled, ran⟩, ran,
    (fills filled ran).1⟩

/-- One byte is put and one less is passed over than there are positions. -/
theorem wrapping_skip_leaves_fixed_size_behind :
    let script := Script.ofOps [.put 7, .skip (UInt64.size - 1)]
    script.run (GrowableBuffer.withCapacity 0) = (.ok (), ⟨0, [], [7]⟩) ∧
      (script.run SizeCounter.new).1 = .ok () ∧
      WriteTarget.tell (script.run SizeCounter.new).2 = 0 ∧
      script.run (BoundedBuffer.ofBytes [0]) =
        (.error (.outOfBounds "skip" (UInt64.size - 1) 0), ⟨[7], []⟩) :=
  ⟨rfl, rfl, rfl, rfl⟩

end ContractStore
