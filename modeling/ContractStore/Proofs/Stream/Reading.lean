import ContractStore.Proofs.Wire.Composed

/-!
Reading by position. A cursor is bytes and a number, and nothing in its type keeps the number among
the positions: what is left is a subtraction that can have no result, and bytes are taken from
between two numbers if these are positions. `Cursor.Runs` follows a reader through the two steps
that come to bytes. From a number among the positions no step is stuck, each leaves such a number,
and the outcome is that of `ReadBuffer.run` (`ReadBuffer.runs_iff`).
-/
namespace ContractStore
variable {α β : Type}

def Bytes.between? (bytes : Bytes) (first last : Nat) : Option Bytes :=
  if first ≤ last ∧ last ≤ bytes.length then some ((bytes.drop first).take (last - first)) else none

structure Cursor where
  data : Bytes
  pos : Nat
  deriving DecidableEq, Repr

namespace Cursor

def Inside (c : Cursor) : Prop := c.pos ≤ c.data.length

def unread (c : Cursor) : Bytes := c.data.drop c.pos

/-- How many bytes are left. No number says so for a place behind the end. -/
def left? (c : Cursor) : Option Nat :=
  if c.pos ≤ c.data.length then some (c.data.length - c.pos) else none

def read (c : Cursor) (n : Nat) : Option (Except CodecError Bytes × Cursor) := do
  let left ← c.left?
  if c.pos + n ≤ c.data.length then
    match c.data.between? c.pos (c.pos + n) with
    | some bytes => return (.ok bytes, ⟨c.data, c.pos + n⟩)
    | none => return (.error (.outOfBounds "read" n left), c)
  else return (.error (.outOfBounds "read" n left), c)

def get (c : Cursor) : Except CodecError UInt8 × Cursor :=
  match c.data[c.pos]? with
  | some byte => (.ok byte, ⟨c.data, c.pos + 1⟩)
  | none => (.error (.outOfBounds "get" 1 0), c)

def seek (c : Cursor) (target : Nat) : Except CodecError Unit × Cursor :=
  if c.data.length < target then (.error (.outOfBounds "seek" target c.data.length), c)
  else (.ok (), ⟨c.data, target⟩)

/-- A reader's run, step by step. A run is stuck at a step that has no outcome. -/
inductive Runs : {α : Type} → Reader α → Cursor → Except CodecError α → Cursor → Prop where
  | give {α : Type} (value : α) (c : Cursor) : Runs (pure value) c (.ok value) c
  | refuse {α : Type} (cause : CodecError) (c : Cursor) :
      Runs (throw cause : Reader α) c (.error cause) c
  | get (c : Cursor) : Runs Reader.get c c.get.1 c.get.2
  | read {n : Nat} {c after : Cursor} {result : Except CodecError Bytes}
      (done : c.read n = some (result, after)) : Runs (Reader.read n) c result after
  | bind {α β : Type} {first : Reader α} {next : α → Reader β} {c between after : Cursor} {x : α}
      {result : Except CodecError β} (front : Runs first c (.ok x) between)
      (back : Runs (next x) between result after) : Runs (first >>= next) c result after
  | stop {α β : Type} {first : Reader α} {next : α → Reader β} {c after : Cursor}
      {cause : CodecError} (front : Runs first c (.error cause) after) :
      Runs (first >>= next) c (.error cause) after

structure Onward (before after : Cursor) : Prop where
  data : after.data = before.data
  pos : before.pos ≤ after.pos
  inside : after.Inside

variable {c after : Cursor}

theorem Onward.trans {between : Cursor} (first : Onward c between) (second : Onward between after) :
    Onward c after :=
  ⟨second.data.trans first.data, Nat.le_trans first.pos second.pos, second.inside⟩

theorem Onward.refl (inside : c.Inside) : Onward c c := ⟨rfl, Nat.le_refl _, inside⟩

theorem length_unread (inside : c.Inside) : c.pos + c.unread.length = c.data.length := by
  rw [unread, List.length_drop]
  exact Nat.add_sub_of_le inside

theorem left_of_inside (inside : c.Inside) : c.left? = some c.unread.length := by
  unfold left? unread
  rw [List.length_drop]
  exact if_pos inside

theorem read_of_inside (inside : c.Inside) (n : Nat) :
    c.read n = some (if n ≤ c.unread.length then (.ok (c.unread.take n), ⟨c.data, c.pos + n⟩)
      else (.error (.outOfBounds "read" n c.unread.length), c)) := by
  have total := length_unread inside
  unfold read
  rw [left_of_inside inside]
  simp only [bind, Option.bind]
  by_cases fits : n ≤ c.unread.length
  · rw [if_pos (by omega), if_pos fits, Bytes.between?, if_pos (by omega), Nat.add_sub_cancel_left]
    rfl
  · rw [if_neg (by omega), if_neg fits]
    rfl

theorem get_cases (c : Cursor) :
    (∃ byte rest, c.unread = byte :: rest ∧ c.get = (.ok byte, ⟨c.data, c.pos + 1⟩)) ∨
      c.unread = [] ∧ c.get = (.error (.outOfBounds "get" 1 0), c) := by
  unfold get unread
  cases found : c.data[c.pos]? with
  | some byte =>
    obtain ⟨inside, rfl⟩ := List.getElem?_eq_some_iff.1 found
    exact .inl ⟨_, _, List.drop_eq_getElem_cons inside, rfl⟩
  | none => exact .inr ⟨List.drop_eq_nil_of_le (List.getElem?_eq_none_iff.1 found), rfl⟩

theorem onward_get (inside : c.Inside) : Onward c c.get.2 := by
  have total := length_unread inside
  rcases get_cases c with ⟨byte, rest, unread, got⟩ | ⟨_, got⟩
  · rw [got]
    rw [unread, List.length_cons] at total
    have next : c.pos + 1 ≤ c.data.length := by omega
    exact ⟨rfl, Nat.le_succ _, next⟩
  · rw [got]
    exact .refl inside

theorem onward_read (inside : c.Inside) {n : Nat} {result : Except CodecError Bytes}
    (done : c.read n = some (result, after)) : Onward c after := by
  have total := length_unread inside
  rw [read_of_inside inside] at done
  split at done
  · have next : c.pos + n ≤ c.data.length := by omega
    cases done
    exact ⟨rfl, Nat.le_add_right _ _, next⟩
  · cases done
    exact .refl inside

theorem Runs.onward {reader : Reader α} {result : Except CodecError α}
    (ran : Runs reader c result after) (inside : c.Inside) : Onward c after := by
  induction ran with
  | give value c => exact .refl inside
  | refuse cause c => exact .refl inside
  | get c => exact onward_get inside
  | read done => exact onward_read inside done
  | bind front back first second =>
    have onward := first inside
    exact onward.trans (second onward.inside)
  | stop front first => exact first inside

def outcome : Except CodecError α → Bytes → EStateM.Result CodecError Bytes α
  | .ok value, rest => .ok value rest
  | .error cause, rest => .error cause rest

theorem outcome_get (c : Cursor) :
    Reader.get c.unread = outcome c.get.1 c.get.2.unread := by
  rcases get_cases c with ⟨byte, rest, unread, got⟩ | ⟨unread, got⟩
  · have behind : c.data.drop (c.pos + 1) = rest := by
      rw [← List.drop_drop]
      exact congrArg (List.drop 1) unread
    rw [got, unread]
    exact congrArg (EStateM.Result.ok byte) behind.symm
  · rw [got]
    change _ = EStateM.Result.error _ c.unread
    rw [unread]
    rfl

theorem outcome_read (inside : c.Inside) {n : Nat} {result : Except CodecError Bytes}
    (done : c.read n = some (result, after)) :
    Reader.read n c.unread = outcome result after.unread := by
  rw [read_of_inside inside] at done
  unfold Reader.read
  rw [Bytes.cut_eq]
  split at done
  · rename_i fits
    cases done
    rw [if_pos fits]
    simp only [outcome, unread, List.drop_drop]
  · rename_i short
    cases done
    rw [if_neg short]
    rfl

/-- A run gives what the reader gives for the unread bytes, and leaves what the reader leaves. -/
theorem Runs.outcome_eq {reader : Reader α} {result : Except CodecError α}
    (ran : Runs reader c result after) (inside : c.Inside) :
    reader c.unread = outcome result after.unread := by
  induction ran with
  | give value c => rfl
  | refuse cause c => rfl
  | get c => exact outcome_get c
  | read done => exact outcome_read inside done
  | bind front back first second =>
    rw [Reader.bind_of_ok (first inside)]
    exact second (front.onward inside).inside
  | stop front first => exact Reader.bind_of_error (first inside)

theorem exists_runs {reader : Reader α} (composed : reader.Composed) (inside : c.Inside) :
    ∃ result after, Runs reader c result after := by
  induction composed generalizing c with
  | give value => exact ⟨_, _, .give value c⟩
  | refuse cause => exact ⟨_, _, .refuse cause c⟩
  | get => exact ⟨_, _, .get c⟩
  | read n => exact ⟨_, _, .read (read_of_inside inside n)⟩
  | bind front back first second =>
    obtain ⟨result, between, ran⟩ := first inside
    cases result with
    | error cause => exact ⟨_, _, .stop ran⟩
    | ok x =>
      obtain ⟨result, after, later⟩ := second x (ran.onward inside).inside
      exact ⟨result, after, .bind ran later⟩

end Cursor

namespace ReadBuffer

def cursor (b : ReadBuffer) : Cursor := ⟨b.data, b.pos⟩

theorem inside_cursor (b : ReadBuffer) : b.cursor.Inside := b.pos_le

theorem run_of_outcome {reader : Reader α} {b : ReadBuffer} {result : Except CodecError α}
    {after : Cursor} (onward : b.cursor.Onward after)
    (given : reader b.unread = Cursor.outcome result after.unread) :
    (b.run reader).1 = result ∧ (b.run reader).2.cursor = after := by
  obtain ⟨data, pos⟩ := after
  obtain ⟨same, _, inside⟩ := onward
  obtain rfl : data = b.data := same
  have place : b.data.length - (Cursor.mk b.data pos).unread.length = pos := by
    have total : pos + _ = b.data.length := Cursor.length_unread inside
    omega
  unfold run
  rw [given]
  cases result with
  | ok value => exact ⟨rfl, congrArg (Cursor.mk b.data) place⟩
  | error cause => exact ⟨rfl, congrArg (Cursor.mk b.data) place⟩

/-- By position or on the unread bytes, a composed reader gives one result and ends at one place. -/
theorem runs_iff {reader : Reader α} (composed : reader.Composed) (b : ReadBuffer)
    (result : Except CodecError α) (after : Cursor) :
    Cursor.Runs reader b.cursor result after ↔
      (b.run reader).1 = result ∧ (b.run reader).2.cursor = after := by
  have agrees {result after} (ran : Cursor.Runs reader b.cursor result after) :
      (b.run reader).1 = result ∧ (b.run reader).2.cursor = after :=
    run_of_outcome (ran.onward b.inside_cursor) (ran.outcome_eq b.inside_cursor)
  constructor
  · exact agrees
  · rintro ⟨rfl, rfl⟩
    obtain ⟨result, after, ran⟩ := Cursor.exists_runs composed b.inside_cursor
    obtain ⟨rfl, rfl⟩ := agrees ran
    exact ran

theorem onward_run {reader : Reader α} (composed : reader.Composed) (b : ReadBuffer) :
    b.cursor.Onward (b.run reader).2.cursor :=
  ((runs_iff composed b _ _).2 ⟨rfl, rfl⟩).onward b.inside_cursor

end ReadBuffer
end ContractStore
