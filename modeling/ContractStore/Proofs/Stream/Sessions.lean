import ContractStore.Proofs.Stream.Moves

/-!
Streams in use. A session is a list of operations, and one that fails does not end it. Whatever the
list, the position is among the bytes, what is left is the rest of them, an operation with a place
to go to is there or changed nothing, and by position nothing is ever stuck.
-/
namespace ContractStore

inductive ReadAction where
  | read (n : Nat)
  | get
  | skip (n : Nat)
  | seek (target : Nat)
  | array (n : Nat)
  | varint
  | expect (what : String) (count : Nat)
  | unpack (t : WireType)

namespace ReadAction

def Result : ReadAction → Type
  | read _ => Bytes
  | get => UInt8
  | skip _ => Unit
  | seek _ => Unit
  | array n => { bytes : Bytes // bytes.length = n }
  | varint => Nat
  | expect _ _ => Unit
  | unpack t => t.Carrier

/-- Where a success ends. That of a count or a value depends on the bytes. -/
def place? (pos : Nat) : ReadAction → Option Nat
  | read n => some (pos + n)
  | get => some (pos + 1)
  | skip n => some (pos + n)
  | seek target => some target
  | array n => some (pos + n)
  | varint => none
  | expect _ _ => none
  | unpack _ => none

def perform : (op : ReadAction) → ReadBuffer → Except CodecError op.Result × ReadBuffer
  | read n, b => b.read n
  | get, b => b.get
  | skip n, b => b.skip n
  | seek target, b => b.seek target
  | array n, b => b.readArray n
  | varint, b => b.run Varint.read
  | expect what count, b => b.run (Reader.expectCount what count)
  | unpack t, b => b.run t.decode

def Performs : (op : ReadAction) → Cursor → Except CodecError op.Result → Cursor → Prop
  | read n => Cursor.Runs (Reader.read n)
  | get => Cursor.Runs Reader.get
  | skip n => Cursor.Runs (do let _ ← Reader.read n)
  | seek target => fun c result after => c.seek target = (result, after)
  | array n => Cursor.Runs (Reader.raw n)
  | varint => Cursor.Runs Varint.read
  | expect what count => Cursor.Runs (Reader.expectCount what count)
  | unpack t => Cursor.Runs t.decode

def session (ops : List ReadAction) (b : ReadBuffer) : ReadBuffer :=
  ops.foldl (fun b op => (op.perform b).2) b

theorem seek_cursor (b : ReadBuffer) (target : Nat) :
    b.cursor.seek target = ((b.seek target).1, (b.seek target).2.cursor) := by
  unfold Cursor.seek ReadBuffer.seek
  change (if b.data.length < target then _ else _) = _
  by_cases inside : target ≤ b.data.length
  · rw [if_neg (Nat.not_lt.2 inside), dif_pos inside]
    rfl
  · rw [if_pos (Nat.lt_of_not_le inside), dif_neg inside]
    rfl

theorem performs_iff (op : ReadAction) (b : ReadBuffer) (result : Except CodecError op.Result)
    (after : Cursor) :
    op.Performs b.cursor result after ↔
      (op.perform b).1 = result ∧ (op.perform b).2.cursor = after := by
  cases op with
  | read n => exact b.runs_iff (.read n) result after
  | get => exact b.runs_iff .get result after
  | skip n => exact b.runs_iff (.bind (.read n) fun _ => .give ()) result after
  | seek target =>
    change b.cursor.seek target = (result, after) ↔ _
    rw [seek_cursor]
    exact Iff.of_eq (Prod.mk.injEq _ _ _ _)
  | array n => exact b.runs_iff (Reader.composed_raw n) result after
  | varint => exact b.runs_iff Reader.composed_varint result after
  | expect what count => exact b.runs_iff (Reader.composed_expectCount what count) result after
  | unpack t => exact b.runs_iff t.composed_decode result after

def Steps (op : ReadAction) (b : ReadBuffer) : Prop :=
  match op.place? b.tell with
  | some place => b.cursor.Settled place (op.perform b).1 (op.perform b).2.cursor
  | none => b.cursor.Onward (op.perform b).2.cursor

theorem steps (op : ReadAction) (b : ReadBuffer) : op.Steps b := by
  cases op with
  | read n => exact b.settled_run (Reader.takesExactly_read n)
  | get => exact b.settled_run Reader.takesExactly_get
  | skip n => exact b.settled_run (Reader.takesExactly_skip n)
  | seek target =>
    have settled := b.cursor.settled_seek target
    rw [seek_cursor] at settled
    exact settled
  | array n => exact b.settled_run (Reader.takesExactly_raw n)
  | varint => exact b.onward_run Reader.composed_varint
  | expect what count => exact b.onward_run (Reader.composed_expectCount what count)
  | unpack t => exact b.onward_run t.composed_decode

theorem data_perform (op : ReadAction) (b : ReadBuffer) : (op.perform b).2.data = b.data := by
  have run {α : Type} (reader : Reader α) : (b.run reader).2.data = b.data := by
    unfold ReadBuffer.run
    split <;> rfl
  cases op with
  | seek target =>
    change (b.seek target).2.data = b.data
    unfold ReadBuffer.seek
    split <;> rfl
  | read n => exact run _
  | get => exact run _
  | skip n => exact run _
  | array n => exact run _
  | varint => exact run _
  | expect what count => exact run _
  | unpack t => exact run _

theorem data_session (ops : List ReadAction) (b : ReadBuffer) : (session ops b).data = b.data := by
  induction ops generalizing b with
  | nil => rfl
  | cons op rest ih => exact (ih _).trans (op.data_perform b)

end ReadAction

inductive WriteAction where
  | step (op : StreamOp)
  | pack (visit : Visit) (t : WireType) (value : t.Carrier)

namespace WriteAction

def script : WriteAction → Script
  | step op => [.ok op]
  | pack visit t value => t.scriptAt visit [] value

def place? (pos : Nat) : WriteAction → Option Nat
  | step op => some (op.place pos)
  | pack .. => none

section Targets
variable {σ : Type} [WriteTarget σ]

def perform (op : WriteAction) (target : σ) : Except CodecError Unit × σ := op.script.run target

def session (ops : List WriteAction) (target : σ) : σ :=
  ops.foldl (fun target op => (op.perform target).2) target

end Targets

theorem runScript_step (step : StreamOp → Cursor → Option (Except CodecError Unit × Cursor))
    (op : StreamOp) (c : Cursor) : Cursor.runScript step (script (.step op)) c = step op c := by
  unfold script Cursor.runScript
  cases step op c with
  | none => rfl
  | some outcome =>
    obtain ⟨result, after⟩ := outcome
    cases result <;> rfl

section Bounded
variable (op : WriteAction) (b : BoundedBuffer)

def Steps : Prop :=
  match op.place? (WriteTarget.tell b) with
  | some place => b.cursor.Settled place (op.perform b).1 (op.perform b).2.cursor
  | none => WriteTarget.tell b ≤ WriteTarget.tell (op.perform b).2

theorem steps : op.Steps b ∧ b.cursor.ChangesWithin (op.perform b).2.cursor := by
  have inside := b.inside_cursor
  have performed := b.fill_run op.script
  cases op with
  | step op =>
    rw [runScript_step] at performed
    exact Cursor.fill_step inside performed
  | pack visit t value =>
    have plain := (t.writes_scriptAt visit [] value).plain
    exact (Cursor.fills_of_plain plain performed inside).2

theorem length_session (ops : List WriteAction) (b : BoundedBuffer) :
    (session ops b).bytes.length = b.bytes.length := by
  induction ops generalizing b with
  | nil => rfl
  | cons op rest ih => exact (ih _).trans (b.length_run op.script)

theorem remaining_bounded : ∃ left, WriteTarget.remaining b = some left ∧
    WriteTarget.tell b + left = b.bytes.length ∧ b.cursor.left? = some left := by
  refine ⟨b.ahead.length, rfl, by simp [WriteTarget.tell, BoundedBuffer.bytes], ?_⟩
  rw [b.cursor_eq_amid, Cursor.left_amid]

end Bounded

theorem write_growable (b : GrowableBuffer) (new : Bytes) :
    let after := (perform (.step (.write new)) b).2
    (perform (.step (.write new)) b).1 = .ok () ∧
      WriteTarget.tell after = WriteTarget.tell b + new.length ∧
      (b.bytes.padTo (WriteTarget.tell after)).replaced? (WriteTarget.tell b) new =
        some after.bytes ∧
      after.bytes.between? (WriteTarget.tell b) (WriteTarget.tell after) = some new := by
  intro after
  have start : WriteTarget.tell b = b.behind.reverse.length := List.length_reverse.symm
  have stop : WriteTarget.tell after = WriteTarget.tell b + new.length := b.tell_overwrite new
  have bytes : after.bytes = b.behind.reverse ++ new ++ b.ahead.drop new.length :=
    congrArg Cursor.data (b.cursor_overwrite new)
  refine ⟨rfl, stop, ?_, ?_⟩
  · have room := Bytes.padTo_append b.behind.reverse b.ahead new.length
    have written := Bytes.replaced?_append b.behind.reverse (b.ahead.padTo new.length) new
    rw [if_pos (Bytes.le_length_padTo _ _), Bytes.drop_padTo_self] at written
    rw [stop, bytes, start, ← written, ← room]
    rfl
  · rw [stop, bytes, start]
    exact Bytes.between?_append _ _ _

end WriteAction

/-- After any operations, also ones that failed, a stream is among its bytes, and the next operation
is the one by position. A buffer of fixed size stays as long as it is and changes only where the
operation passed. One that grows never shrinks, and what is written to it is all there. -/
theorem streams_stay_among_their_bytes :
    (∀ (data : Bytes) (ops : List ReadAction) (op : ReadAction),
      let b := ReadAction.session ops (.ofBytes data)
      b.data = data ∧ b.tell ≤ data.length ∧ b.tell + b.remaining = data.length ∧
        b.cursor.left? = some b.remaining ∧ op.Steps b ∧
        ∀ result after, op.Performs b.cursor result after ↔
          (op.perform b).1 = result ∧ (op.perform b).2.cursor = after) ∧
    (∀ (bytes : Bytes) (ops : List WriteAction) (op : WriteAction),
      let b := WriteAction.session ops (BoundedBuffer.ofBytes bytes)
      b.bytes.length = bytes.length ∧ WriteTarget.tell b ≤ bytes.length ∧
        (∃ left, WriteTarget.remaining b = some left ∧
          WriteTarget.tell b + left = bytes.length ∧ b.cursor.left? = some left) ∧
        op.Steps b ∧ b.cursor.ChangesWithin (op.perform b).2.cursor ∧
        Cursor.runScript Cursor.fill op.script b.cursor =
          some ((op.perform b).1, (op.perform b).2.cursor)) ∧
    (∀ (reserved : Nat) (ops : List WriteAction) (op : WriteAction),
      let b := WriteAction.session ops (GrowableBuffer.withCapacity reserved)
      WriteTarget.tell b ≤ b.bytes.length ∧ b.bytes.length ≤ (op.perform b).2.bytes.length ∧
        Cursor.runScript Cursor.grow op.script b.cursor =
          some ((op.perform b).1, (op.perform b).2.cursor) ∧
        ∀ new,
          let (result, after) := WriteAction.perform (.step (.write new)) b
          result = .ok () ∧ WriteTarget.tell after = WriteTarget.tell b + new.length ∧
            (b.bytes.padTo (WriteTarget.tell after)).replaced? (WriteTarget.tell b) new =
              some after.bytes ∧
            after.bytes.between? (WriteTarget.tell b) (WriteTarget.tell after) = some new) := by
  refine ⟨?_, ?_, ?_⟩
  · intro data ops op b
    have same : b.data = data := ReadAction.data_session ops _
    have inside : b.tell ≤ data.length := same ▸ b.pos_le
    refine ⟨same, inside, ?_, ?_, op.steps b, op.performs_iff b⟩
    · unfold ReadBuffer.remaining
      rw [same]
      exact Nat.add_sub_of_le inside
    · exact if_pos b.pos_le
  · intro bytes ops op b
    have length : b.bytes.length = bytes.length := WriteAction.length_session ops _
    obtain ⟨steps, changes⟩ := op.steps b
    have remaining := WriteAction.remaining_bounded b
    rw [length] at remaining
    exact ⟨length, length ▸ b.inside_cursor, remaining, steps, changes, b.fill_run op.script⟩
  · intro reserved ops op b
    exact ⟨b.inside_cursor, b.length_le_run op.script, b.grow_run op.script,
      WriteAction.write_growable b⟩

/-- A pair is packed from the second byte on, and its second number has no room. -/
theorem half_packed_pair_changes_what_it_passed :
    let t : WireType := .tuple (.unlabelled [.int .u16, .int .u16])
    let pair : WriteAction := .pack .stored t (7#16, 8#16, ())
    let earlier : List WriteAction := [.step (.skip 9), .step (.seek 1)]
    let b := WriteAction.session earlier (BoundedBuffer.ofBytes [9, 9, 9, 9, 9])
    let after := (pair.perform b).2
    (pair.perform b).1 = .error (.outOfBounds "write" 2 1) ∧ after.bytes = [9, 2, 7, 0, 9] ∧
      WriteTarget.tell b = 1 ∧ WriteTarget.tell after = 4 ∧
        after.bytes[0]? = b.bytes[0]? ∧ after.bytes[4]? = b.bytes[4]? := by
  intro t pair earlier b after
  obtain ⟨-, filling, -⟩ := streams_stay_among_their_bytes
  obtain ⟨-, -, -, -, changes, -⟩ := filling [9, 9, 9, 9, 9] earlier pair
  refine ⟨rfl, rfl, rfl, rfl, changes.outside 0 (.inl ?_), changes.outside 4 (.inr ?_)⟩
  · decide
  · decide

end ContractStore
