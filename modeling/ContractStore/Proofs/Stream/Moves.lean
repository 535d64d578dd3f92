import ContractStore.Proofs.Stream.Writing
import ContractStore.Proofs.Wire.Encode

/-!
Where streams move. An operation with a place to go to ends there if the place is not behind the
end, and otherwise fails and changes nothing (`Settled`). A value may be given up half way, but what
was read or written of it lies onward: a buffer of fixed size is written from where the value began
to where it was given up (`fills_of_plain`), and one that grows never shrinks (`grows_of_run`).
-/
namespace ContractStore

def StreamOp.place (pos : Nat) : StreamOp → Nat
  | .write bytes => pos + bytes.length
  | .put _ => pos + 1
  | .skip count => pos + count
  | .seek target => target

namespace Cursor
variable {α β : Type}

structure Settled (before : Cursor) (place : Nat) (result : Except CodecError α) (after : Cursor) :
    Prop where
  succeeds_iff : (∃ value, result = .ok value) ↔ place ≤ before.data.length
  moved : ∀ value, result = .ok value → after.pos = place
  kept : ∀ cause, result = .error cause → after = before

/-- No byte changes in front of where it began, and none from where it ended. -/
structure ChangesWithin (before after : Cursor) : Prop where
  length : after.data.length = before.data.length
  outside : ∀ i, i < before.pos ∨ after.pos ≤ i → after.data[i]? = before.data[i]?

variable {c after : Cursor} {place : Nat}

theorem settled_ok (value : α) (fits : place ≤ c.data.length) (moved : after.pos = place) :
    c.Settled place (.ok value) after :=
  ⟨⟨fun _ => fits, fun _ => ⟨value, rfl⟩⟩, fun _ _ => moved, fun _ failed => nomatch failed⟩

theorem settled_error (cause : CodecError) (short : c.data.length < place) :
    c.Settled place (.error cause : Except CodecError α) c :=
  ⟨⟨fun ⟨_, ended⟩ => (nomatch ended), fun fits => absurd fits (Nat.not_le.2 short)⟩,
    fun _ ended => (nomatch ended), fun _ _ => rfl⟩

theorem settled_seek (c : Cursor) (target : Nat) :
    c.Settled target (c.seek target).1 (c.seek target).2 := by
  rw [seek_eq]
  split
  · rename_i inside
    exact settled_ok () inside rfl
  · rename_i outside
    exact settled_error _ (Nat.lt_of_not_le outside)

theorem ChangesWithin.refl (c : Cursor) : c.ChangesWithin c := ⟨rfl, fun _ _ => rfl⟩

theorem changesWithin_of_data (same : after.data = c.data) : c.ChangesWithin after :=
  ⟨congrArg List.length same, fun _ _ => by rw [same]⟩

theorem ChangesWithin.trans {between : Cursor} (first : c.ChangesWithin between)
    (second : between.ChangesWithin after) (forward : c.pos ≤ between.pos)
    (forward' : between.pos ≤ after.pos) : c.ChangesWithin after := by
  refine ⟨second.length.trans first.length, fun i out => ?_⟩
  rw [second.outside i (by omega), first.outside i (by omega)]

theorem changesWithin_amid (behind : Bytes) {ahead new : Bytes} (fits : new.length ≤ ahead.length) :
    (amid behind ahead).ChangesWithin (amid (behind ++ new) (ahead.drop new.length)) := by
  constructor
  · simp [amid]
    omega
  · intro i out
    simp only [amid, List.length_append] at out ⊢
    rcases out with front | back
    · rw [List.append_assoc, List.getElem?_append_left front, List.getElem?_append_left front]
    · rw [List.append_assoc, List.getElem?_append_right (by omega),
        List.getElem?_append_right (by omega), List.getElem?_append_right (by omega),
        List.getElem?_drop]
      congr 1
      omega

theorem eq_amid (inside : c.Inside) : c = amid (c.data.take c.pos) (c.data.drop c.pos) := by
  rw [amid, List.take_append_drop, List.length_take_of_le inside]

theorem step_of_overwrite {behind ahead new : Bytes} {count : Nat} {cause : CodecError}
    {result : Except CodecError Unit} (length : count ≤ ahead.length → new.length = count)
    (done : (if count ≤ ahead.length then (.ok (), amid (behind ++ new) (ahead.drop count))
      else (.error cause, amid behind ahead)) = (result, after)) :
    (amid behind ahead).Settled (behind.length + count) result after ∧
      (amid behind ahead).ChangesWithin after := by
  have total : (amid behind ahead).data.length = behind.length + ahead.length :=
    List.length_append
  split at done
  · rename_i fits
    obtain rfl := length fits
    cases done
    exact ⟨settled_ok () (by omega) List.length_append, changesWithin_amid behind fits⟩
  · cases done
    exact ⟨settled_error _ (by omega), .refl _⟩

theorem fill_step {op : StreamOp} {result : Except CodecError Unit} (inside : c.Inside)
    (done : fill op c = some (result, after)) :
    c.Settled (op.place c.pos) result after ∧ c.ChangesWithin after := by
  obtain ⟨behind, ahead, rfl⟩ : ∃ behind ahead, c = amid behind ahead := ⟨_, _, eq_amid inside⟩
  cases op with
  | write new =>
    rw [fill_write_amid] at done
    exact step_of_overwrite (fun _ => rfl) (Option.some.inj done)
  | put byte =>
    rw [fill_put_amid] at done
    exact step_of_overwrite (fun _ => rfl) (Option.some.inj done)
  | skip count =>
    rw [fill_skip_amid] at done
    exact step_of_overwrite List.length_take_of_le (Option.some.inj done)
  | seek target =>
    have sought : (amid behind ahead).seek target = (result, after) := Option.some.inj done
    have place := settled_seek (amid behind ahead) target
    rw [sought] at place
    refine ⟨place, changesWithin_of_data ?_⟩
    unfold seek at sought
    split at sought <;> cases sought <;> rfl

theorem Settled.inside {result : Except CodecError α} (settled : c.Settled place result after)
    (changes : c.ChangesWithin after) (inside : c.Inside) : after.Inside := by
  cases result with
  | ok value =>
    have fits := settled.succeeds_iff.1 ⟨value, rfl⟩
    unfold Inside
    rw [settled.moved value rfl, changes.length]
    exact fits
  | error cause => rw [settled.kept cause rfl]; exact inside

/-- A relation between cursors that every step of a script keeps is kept by the script. -/
theorem runScript_related {step : StreamOp → Cursor → Option (Except CodecError Unit × Cursor)}
    {related : Cursor → Cursor → Prop} (refl : ∀ c, related c c)
    (trans : ∀ {a b c}, related a b → related b c → related a c) {script : Script}
    (each : ∀ op, .ok op ∈ script → ∀ c result after, step op c = some (result, after) →
      related c after) (c : Cursor) {result : Except CodecError Unit}
    (done : runScript step script c = some (result, after)) : related c after := by
  induction script generalizing c with
  | nil =>
    cases done
    exact refl _
  | cons head rest ih =>
    have later := ih fun op mem => each op (List.mem_cons_of_mem _ mem)
    cases head with
    | error cause =>
      cases done
      exact refl _
    | ok op =>
      unfold runScript at done
      cases stepped : step op c with
      | none => simp [stepped] at done
      | some outcome =>
        obtain ⟨outcome, next⟩ := outcome
        have now := each op List.mem_cons_self c outcome next stepped
        rw [stepped] at done
        cases outcome with
        | ok value => exact trans now (later next done)
        | error cause =>
          cases done
          exact now

def Stays (before after : Cursor) : Prop :=
  before.Inside → after.Inside ∧ after.data.length = before.data.length

theorem stays_fill {script : Script} {result : Except CodecError Unit}
    (done : runScript fill script c = some (result, after)) : c.Stays after := by
  refine runScript_related (fun c inside => ⟨inside, rfl⟩) ?_ ?_ c done
  · intro a b c first second inside
    obtain ⟨inside, same⟩ := first inside
    obtain ⟨inside, same'⟩ := second inside
    exact ⟨inside, same'.trans same⟩
  · intro op _ c result after stepped inside
    obtain ⟨settled, changes⟩ := fill_step inside stepped
    exact ⟨settled.inside changes inside, changes.length⟩

def Fills (before after : Cursor) : Prop :=
  before.Inside → after.Inside ∧ before.pos ≤ after.pos ∧ before.ChangesWithin after

/-- A plain script moves on, also one that fails half way, and changes what it passes. -/
theorem fills_of_plain {script : Script} (plain : script.Plain) {result : Except CodecError Unit}
    (done : runScript fill script c = some (result, after)) : c.Fills after := by
  refine runScript_related (fun c inside => ⟨inside, Nat.le_refl _, .refl c⟩) ?_ ?_ c done
  · intro a b c first second inside
    obtain ⟨inside, forward, changes⟩ := first inside
    obtain ⟨inside, forward', changes'⟩ := second inside
    exact ⟨inside, Nat.le_trans forward forward', changes.trans changes' forward forward'⟩
  · intro op mem c result after stepped inside
    obtain ⟨settled, changes⟩ := fill_step inside stepped
    have onward : c.pos ≤ op.place c.pos := by
      cases plain _ mem <;> exact Nat.le_add_right _ _
    refine ⟨settled.inside changes inside, ?_, changes⟩
    cases result with
    | ok value => rw [settled.moved value rfl]; exact onward
    | error cause => exact Nat.le_of_eq (congrArg pos (settled.kept cause rfl)).symm

def Grows (before after : Cursor) : Prop :=
  before.Inside → after.Inside ∧ before.data.length ≤ after.data.length

theorem grows_padTo (c : Cursor) (place : Nat) : c.Grows ⟨c.data.padTo place, place⟩ :=
  fun _ => ⟨Bytes.le_length_padTo place c.data, Bytes.length_le_padTo place c.data⟩

theorem grows_extended (c : Cursor) (new : Bytes) : c.Grows (c.extended new) := by
  intro inside
  obtain ⟨behind, ahead, rfl⟩ : ∃ behind ahead, c = amid behind ahead := ⟨_, _, eq_amid inside⟩
  rw [extended_amid]
  refine ⟨inside_amid _ _, ?_⟩
  simp [amid]
  omega

/-- One operation on a buffer that grows. A skip that wraps around is none that shrinks it. -/
theorem grow_step {op : StreamOp} {result : Except CodecError Unit}
    (done : grow op c = some (result, after)) : c.Grows after := by
  cases op with
  | write new =>
    cases done
    exact grows_extended c new
  | put byte =>
    cases done
    exact grows_extended c [byte]
  | skip count =>
    cases done
    exact grows_padTo c _
  | seek target =>
    have sought : c.seek target = (result, after) := Option.some.inj done
    rw [seek_eq] at sought
    split at sought
    · rename_i place
      cases sought
      exact fun _ => ⟨place, Nat.le_refl _⟩
    · cases sought
      exact fun inside => ⟨inside, Nat.le_refl _⟩

theorem grows_of_run {script : Script} {result : Except CodecError Unit}
    (done : runScript grow script c = some (result, after)) : c.Grows after := by
  refine runScript_related (fun c inside => ⟨inside, Nat.le_refl _⟩) ?_ ?_ c done
  · intro a b c first second inside
    obtain ⟨inside, more⟩ := first inside
    obtain ⟨inside, more'⟩ := second inside
    exact ⟨inside, Nat.le_trans more more'⟩
  · intro op _ c result after stepped
    exact grow_step stepped

end Cursor

theorem BoundedBuffer.length_run (script : Script) (b : BoundedBuffer) :
    (script.run b).2.bytes.length = b.bytes.length :=
  (Cursor.stays_fill (b.fill_run script) b.inside_cursor).2

theorem GrowableBuffer.length_le_run (script : Script) (b : GrowableBuffer) :
    b.bytes.length ≤ (script.run b).2.bytes.length :=
  (Cursor.grows_of_run (b.grow_run script) b.inside_cursor).2

namespace Reader
variable {α : Type}

def TakesExactly (reader : Reader α) (n : Nat) : Prop :=
  ∀ unread, (n ≤ unread.length → ∃ value, reader unread = .ok value (unread.drop n)) ∧
    (unread.length < n → ∃ cause, reader unread = .error cause unread)

theorem takesExactly_read (n : Nat) : TakesExactly (read n) n := by
  intro unread
  unfold read
  rw [Bytes.cut_eq]
  constructor
  · intro fits
    rw [if_pos fits]
    exact ⟨_, rfl⟩
  · intro short
    rw [if_neg (Nat.not_le.2 short)]
    exact ⟨_, rfl⟩

theorem takesExactly_raw (n : Nat) : TakesExactly (raw n) n := by
  intro unread
  unfold raw
  constructor
  · intro fits
    split
    · rename_i found
      rw [Bytes.cut_eq, if_pos fits] at found
      cases found
      exact ⟨_, rfl⟩
    · rename_i found
      rw [Bytes.cut_eq, if_pos fits] at found
      cases found
  · intro short
    split
    · rename_i found
      rw [Bytes.cut_eq, if_neg (Nat.not_le.2 short)] at found
      cases found
    · exact ⟨_, rfl⟩

theorem takesExactly_get : TakesExactly get 1 := by
  intro unread
  cases unread with
  | nil => exact ⟨fun fits => absurd fits (by simp), fun _ => ⟨_, rfl⟩⟩
  | cons byte rest => exact ⟨fun _ => ⟨byte, rfl⟩, fun short => absurd short (by simp)⟩

theorem takesExactly_skip (n : Nat) : TakesExactly (do let _ ← read n) n := by
  intro unread
  obtain ⟨enough, short⟩ := takesExactly_read n unread
  constructor
  · intro fits
    obtain ⟨bytes, taken⟩ := enough fits
    exact ⟨(), bind_of_ok taken⟩
  · intro fewer
    obtain ⟨cause, failed⟩ := short fewer
    exact ⟨cause, bind_of_error failed⟩

end Reader

namespace ReadBuffer

theorem settled_run {α : Type} {reader : Reader α} {n : Nat} (taken : reader.TakesExactly n)
    (b : ReadBuffer) :
    b.cursor.Settled (b.tell + n) (b.run reader).1 (b.run reader).2.cursor := by
  have total : b.tell + b.unread.length = b.data.length := Cursor.length_unread b.inside_cursor
  obtain ⟨enough, short⟩ := taken b.unread
  by_cases fits : n ≤ b.unread.length
  · obtain ⟨value, read⟩ := enough fits
    simp only [run, read]
    apply Cursor.settled_ok value
    · change b.tell + n ≤ b.data.length
      omega
    · change b.data.length - (b.unread.drop n).length = b.tell + n
      rw [List.length_drop]
      omega
  · obtain ⟨cause, failed⟩ := short (Nat.lt_of_not_le fits)
    have here : b.data.length - b.unread.length = b.pos := by
      change b.pos + _ = _ at total
      omega
    simp only [run, failed, cursor, here]
    apply Cursor.settled_error cause
    change b.data.length < b.tell + n
    omega

end ReadBuffer
end ContractStore
