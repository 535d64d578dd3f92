import ContractStore.Proofs.Stream.Bounded
import ContractStore.Proofs.Stream.Reading

/-!
Writing by position. The buffer of fixed size and the buffer that grows are cursors too: bytes are
put in place of those from the number on, if so many are there. `fill` and `grow` say what the
operations do to bytes and number, and on the cursor of a buffer they do what the buffer does
(`BoundedBuffer.fills`, `GrowableBuffer.grows`), so no step of a script is stuck.
-/
namespace ContractStore

namespace Bytes

/-- `bytes` with `new` in place of what lies from `first` on, if as many bytes lie there. -/
def replaced? (bytes : Bytes) (first : Nat) (new : Bytes) : Option Bytes :=
  if first + new.length ≤ bytes.length then
    some (bytes.take first ++ new ++ bytes.drop (first + new.length))
  else none

def padTo (size : Nat) (bytes : Bytes) : Bytes := bytes ++ List.replicate (size - bytes.length) 0

theorem replaced?_append (front back new : Bytes) :
    (front ++ back).replaced? front.length new =
      if new.length ≤ back.length then some (front ++ new ++ back.drop new.length) else none := by
  unfold replaced?
  rw [List.length_append, List.take_left, List.drop_length_add_append]
  simp only [Nat.add_le_add_iff_left]

theorem between?_append (front middle back : Bytes) :
    (front ++ middle ++ back).between? front.length (front.length + middle.length) =
      some middle := by
  unfold between?
  rw [if_pos ⟨Nat.le_add_right _ _, by simp⟩, List.append_assoc, List.drop_left,
    Nat.add_sub_cancel_left, List.take_left]

theorem padTo_of_le {size : Nat} {bytes : Bytes} (enough : size ≤ bytes.length) :
    bytes.padTo size = bytes := by
  unfold padTo
  rw [Nat.sub_eq_zero_of_le enough, List.replicate_zero, List.append_nil]

theorem padTo_append (front back : Bytes) (count : Nat) :
    (front ++ back).padTo (front.length + count) = front ++ back.padTo count := by
  unfold padTo
  rw [List.length_append, Nat.add_sub_add_left, List.append_assoc]

theorem drop_padTo (count size : Nat) (bytes : Bytes) :
    (bytes.padTo size).drop count = padTo (size - count) (bytes.drop count) := by
  unfold padTo
  rw [List.drop_append, List.drop_replicate, List.length_drop]
  congr 2
  omega

/-- Writing over bytes and zeros that make room keeps of the bytes those that are not covered. -/
theorem drop_padTo_self (count : Nat) (bytes : Bytes) :
    (bytes.padTo count).drop count = bytes.drop count := by
  rw [drop_padTo, Nat.sub_self, padTo, Nat.zero_sub, List.replicate_zero, List.append_nil]

theorem take_padTo {count size : Nat} (fits : count ≤ size) (bytes : Bytes) :
    (bytes.padTo size).take count =
      bytes.take count ++ List.replicate (count - bytes.length) 0 := by
  unfold padTo
  rw [List.take_append, List.take_replicate, Nat.min_eq_left (Nat.sub_le_sub_right fits _)]

theorem le_length_padTo (count : Nat) (bytes : Bytes) : count ≤ (bytes.padTo count).length := by
  unfold padTo
  rw [List.length_append, List.length_replicate]
  omega

theorem length_le_padTo (count : Nat) (bytes : Bytes) :
    bytes.length ≤ (bytes.padTo count).length := by
  unfold padTo
  rw [List.length_append]
  exact Nat.le_add_right _ _

theorem length_take_padTo (count : Nat) (bytes : Bytes) :
    ((bytes.padTo count).take count).length = count :=
  List.length_take_of_le (le_length_padTo count bytes)

end Bytes

namespace Cursor

def fill : StreamOp → Cursor → Option (Except CodecError Unit × Cursor)
  | .write new, c => do
    let left ← c.left?
    if left < new.length then return (.error (.outOfBounds "write" new.length left), c)
    match c.data.replaced? c.pos new with
    | some data => return (.ok (), ⟨data, c.pos + new.length⟩)
    | none => return (.error (.outOfBounds "write" new.length left), c)
  | .put byte, c =>
    match c.data.replaced? c.pos [byte] with
    | some data => some (.ok (), ⟨data, c.pos + 1⟩)
    | none => some (.error (.outOfBounds "put" 1 0), c)
  | .skip count, c => do
    let left ← c.left?
    if left < count then return (.error (.outOfBounds "skip" count left), c)
    return (.ok (), ⟨c.data, c.pos + count⟩)
  | .seek target, c => some (c.seek target)

/-- Writes at the end, or over what is there and past it. Nothing would be written where room was
made and the positions are still missing. -/
def extended (c : Cursor) (new : Bytes) : Cursor :=
  let last := c.pos + new.length
  if c.pos = c.data.length then ⟨c.data ++ new, last⟩
  else
    let room := c.data.padTo last
    ⟨(room.replaced? c.pos new).getD room, last⟩

def grow : StreamOp → Cursor → Option (Except CodecError Unit × Cursor)
  | .write new, c => some (.ok (), c.extended new)
  | .put byte, c => some (.ok (), c.extended [byte])
  | .skip count, c =>
    let last := wrapped (c.pos + count)
    some (.ok (), ⟨c.data.padTo last, last⟩)
  | .seek target, c => some (c.seek target)

/-- Runs the steps of a script up to the first that fails; none if one is stuck. -/
def runScript (step : StreamOp → Cursor → Option (Except CodecError Unit × Cursor)) :
    Script → Cursor → Option (Except CodecError Unit × Cursor)
  | [], c => some (.ok (), c)
  | .error cause :: _, c => some (.error cause, c)
  | .ok op :: rest, c => do
    match ← step op c with
    | (.ok (), next) => runScript step rest next
    | (.error cause, next) => return (.error cause, next)

def seen {σ : Type} (cursor : σ → Cursor) (target : σ) :
    Except CodecError σ → Except CodecError Unit × Cursor
  | .ok next => (.ok (), cursor next)
  | .error cause => (.error cause, cursor target)

theorem runScript_eq {σ : Type} [WriteTarget σ] {cursor : σ → Cursor}
    {step : StreamOp → Cursor → Option (Except CodecError Unit × Cursor)}
    (agree : ∀ op target,
      step op (cursor target) = some (seen cursor target (WriteTarget.apply op target)))
    (script : Script) (target : σ) :
    runScript step script (cursor target) =
      some ((script.run target).1, cursor (script.run target).2) := by
  induction script generalizing target with
  | nil => rfl
  | cons head rest ih =>
    cases head with
    | error cause => rfl
    | ok op =>
      unfold runScript Script.run
      rw [agree]
      cases WriteTarget.apply op target with
      | error cause => rfl
      | ok next => exact ih next

def amid (behind ahead : Bytes) : Cursor := ⟨behind ++ ahead, behind.length⟩

section Amid
variable (behind ahead new : Bytes)

theorem inside_amid : (amid behind ahead).Inside := by
  simp [Inside, amid]

theorem left_amid : (amid behind ahead).left? = some ahead.length := by
  rw [left_of_inside (inside_amid behind ahead), unread, amid, List.drop_left]

theorem replaced_amid : (amid behind ahead).data.replaced? (amid behind ahead).pos new =
    if new.length ≤ ahead.length then some (amid (behind ++ new) (ahead.drop new.length)).data
    else none :=
  Bytes.replaced?_append behind ahead new

theorem advance_amid (rest : Bytes) :
    Cursor.mk (amid (behind ++ new) rest).data ((amid behind ahead).pos + new.length) =
      amid (behind ++ new) rest := by
  simp [amid]

theorem fill_write_amid : fill (.write new) (amid behind ahead) = some (
    if new.length ≤ ahead.length then (.ok (), amid (behind ++ new) (ahead.drop new.length))
    else (.error (.outOfBounds "write" new.length ahead.length), amid behind ahead)) := by
  rw [fill, left_amid, replaced_amid]
  simp only [bind, Option.bind]
  by_cases fits : new.length ≤ ahead.length
  · rw [if_neg (Nat.not_lt.2 fits), if_pos fits, if_pos fits]
    exact congrArg (fun next : Cursor => some (Except.ok (), next))
      (advance_amid behind ahead new _)
  · rw [if_pos (Nat.lt_of_not_le fits), if_neg fits]
    rfl

theorem fill_put_amid (byte : UInt8) : fill (.put byte) (amid behind ahead) = some (
    if 1 ≤ ahead.length then (.ok (), amid (behind ++ [byte]) (ahead.drop 1))
    else (.error (.outOfBounds "put" 1 0), amid behind ahead)) := by
  rw [fill, replaced_amid, List.length_singleton]
  by_cases fits : 1 ≤ ahead.length
  · rw [if_pos fits, if_pos fits]
    exact congrArg (fun next : Cursor => some (Except.ok (), next))
      (advance_amid behind ahead [byte] _)
  · rw [if_neg fits, if_neg fits]

theorem fill_skip_amid (count : Nat) : fill (.skip count) (amid behind ahead) = some (
    if count ≤ ahead.length then (.ok (), amid (behind ++ ahead.take count) (ahead.drop count))
    else (.error (.outOfBounds "skip" count ahead.length), amid behind ahead)) := by
  rw [fill, left_amid]
  simp only [bind, Option.bind]
  by_cases fits : count ≤ ahead.length
  · have length : (ahead.take count).length = count := List.length_take_of_le fits
    rw [if_neg (Nat.not_lt.2 fits), if_pos fits]
    simp only [amid, List.append_assoc, List.take_append_drop, List.length_append, length]
    rfl
  · rw [if_pos (Nat.lt_of_not_le fits), if_neg fits]
    rfl

/-- Room is always made, so the bytes are always written. -/
theorem extended_amid :
    (amid behind ahead).extended new = amid (behind ++ new) (ahead.drop new.length) := by
  unfold extended
  by_cases last : (amid behind ahead).pos = (amid behind ahead).data.length
  · have nothing : ahead = [] := by
      simpa [amid] using last
    rw [if_pos last, nothing]
    simp [amid]
  · have room : (amid behind ahead).data.padTo ((amid behind ahead).pos + new.length) =
        (amid behind (ahead.padTo new.length)).data := Bytes.padTo_append behind ahead new.length
    have fits := Bytes.le_length_padTo new.length ahead
    have written := replaced_amid behind (ahead.padTo new.length) new
    rw [if_pos fits, Bytes.drop_padTo_self] at written
    have there : (amid behind ahead).pos = (amid behind (ahead.padTo new.length)).pos := rfl
    rw [if_neg last, room]
    simp only [there, written]
    exact advance_amid behind _ new _

end Amid

theorem seek_eq (c : Cursor) (target : Nat) : c.seek target =
    if target ≤ c.data.length then (.ok (), ⟨c.data, target⟩)
    else (.error (.outOfBounds "seek" target c.data.length), c) := by
  unfold seek
  by_cases inside : target ≤ c.data.length
  · rw [if_neg (Nat.not_lt.2 inside), if_pos inside]
  · rw [if_pos (Nat.lt_of_not_le inside), if_neg inside]

theorem seek_seen {σ : Type} (cursor : σ → Cursor) (target moved : σ) (place : Nat)
    (there : place ≤ (cursor target).data.length → cursor moved = ⟨(cursor target).data, place⟩) :
    (cursor target).seek place = seen cursor target (
      if place ≤ (cursor target).data.length then .ok moved
      else .error (.outOfBounds "seek" place (cursor target).data.length)) := by
  rw [seek_eq]
  by_cases inside : place ≤ (cursor target).data.length
  · rw [if_pos inside, if_pos inside, seen, there inside]
  · rw [if_neg inside, if_neg inside, seen]

end Cursor

namespace BoundedBuffer
open Cursor

def cursor (b : BoundedBuffer) : Cursor := ⟨b.bytes, WriteTarget.tell b⟩

theorem cursor_eq_amid (b : BoundedBuffer) : b.cursor = amid b.behind.reverse b.ahead := by
  simp [cursor, amid, bytes, WriteTarget.tell]

theorem cursor_filled (b : BoundedBuffer) (new : Bytes) :
    (b.filled new).cursor = amid (b.behind.reverse ++ new) (b.ahead.drop new.length) := by
  simp [cursor_eq_amid, filled]

def placed (b : BoundedBuffer) (place : Nat) : BoundedBuffer :=
  ⟨(b.bytes.take place).reverse, b.bytes.drop place⟩

theorem cursor_placed (b : BoundedBuffer) {place : Nat} (inside : place ≤ b.bytes.length) :
    (b.placed place).cursor = ⟨b.bytes, place⟩ := by
  simp only [cursor, placed, bytes, WriteTarget.tell, List.reverse_reverse, List.take_append_drop,
    List.length_reverse]
  exact congrArg (Cursor.mk _) (List.length_take_of_le inside)

theorem overwrite_of_fits {b : BoundedBuffer} {new : Bytes} (fits : new.length ≤ b.ahead.length)
    (op : String) : b.overwrite op new = .ok (b.filled new) := by
  rw [overwrite_eq, if_pos fits]

theorem apply_skip (count : Nat) (b : BoundedBuffer) : WriteTarget.apply (.skip count) b =
    if count ≤ b.ahead.length then
      .ok ⟨(b.ahead.take count).reverse ++ b.behind, b.ahead.drop count⟩
    else .error (.outOfBounds "skip" count b.ahead.length) := by
  change apply (.skip count) b = _
  rw [apply, Bytes.cut_eq]
  by_cases fits : count ≤ b.ahead.length
  · rw [if_pos fits, if_pos fits]
  · rw [if_neg fits, if_neg fits]

theorem placed_add (b : BoundedBuffer) (count : Nat) : b.placed (b.behind.length + count) =
    ⟨(b.ahead.take count).reverse ++ b.behind, b.ahead.drop count⟩ := by
  rw [placed, bytes, ← List.length_reverse, List.take_length_add_append,
    List.drop_length_add_append, List.reverse_append, List.reverse_reverse]

theorem fills (op : StreamOp) (b : BoundedBuffer) :
    fill op b.cursor = some (seen cursor b (WriteTarget.apply op b)) := by
  cases op with
  | write new =>
    change _ = some (seen cursor b (b.overwrite "write" new))
    rw [overwrite_eq, cursor_eq_amid, fill_write_amid]
    split
    · rw [seen, cursor_filled]
    · rw [seen, cursor_eq_amid]
  | put byte =>
    change _ = some (seen cursor b (b.overwrite "put" [byte]))
    rw [overwrite_eq, cursor_eq_amid, fill_put_amid, List.length_singleton]
    split
    · rw [seen, cursor_filled]
      rfl
    · rename_i none
      have empty : b.ahead.length = 0 := by omega
      rw [empty, seen, cursor_eq_amid]
  | skip count =>
    rw [apply_skip, cursor_eq_amid, fill_skip_amid]
    split <;> simp [seen, cursor_eq_amid]
  | seek target => exact congrArg some (seek_seen cursor b _ target (cursor_placed b))

theorem inside_cursor (b : BoundedBuffer) : b.cursor.Inside := by
  rw [b.cursor_eq_amid]
  exact inside_amid _ _

theorem fill_run (script : Script) (b : BoundedBuffer) :
    runScript fill script b.cursor = some ((script.run b).1, (script.run b).2.cursor) :=
  runScript_eq fills script b

end BoundedBuffer

namespace GrowableBuffer
open Cursor

def cursor (b : GrowableBuffer) : Cursor := ⟨b.bytes, WriteTarget.tell b⟩

theorem cursor_eq_amid (b : GrowableBuffer) : b.cursor = amid b.behind.reverse b.ahead := by
  simp [cursor, amid, bytes, WriteTarget.tell]

theorem cursor_overwrite (b : GrowableBuffer) (new : Bytes) :
    (b.overwrite new).cursor = amid (b.behind.reverse ++ new) (b.ahead.drop new.length) := by
  simp [cursor_eq_amid, overwrite]

theorem tell_overwrite (b : GrowableBuffer) (new : Bytes) :
    WriteTarget.tell (b.overwrite new) = WriteTarget.tell b + new.length := by
  change (new.reverse ++ b.behind).length = b.behind.length + new.length
  rw [List.length_append, List.length_reverse, Nat.add_comm]

theorem length_overwrite (b : GrowableBuffer) (new : Bytes) : (b.overwrite new).bytes.length =
    b.behind.length + new.length + (b.ahead.length - new.length) := by
  simp [bytes, overwrite]
  omega

theorem bytes_placed (b : GrowableBuffer) (place : Nat) :
    (b.placed place).bytes = b.bytes.padTo place := by
  simp only [bytes, placed, List.reverse_reverse, List.take_append_drop]
  rfl

theorem length_le_placed (b : GrowableBuffer) (place : Nat) :
    b.bytes.length ≤ (b.placed place).bytes.length := by
  rw [bytes_placed]
  exact Bytes.length_le_padTo place b.bytes

theorem tell_placed (b : GrowableBuffer) (place : Nat) :
    WriteTarget.tell (b.placed place) = place :=
  List.length_reverse.trans (Bytes.length_take_padTo place b.bytes)

theorem cursor_placed (b : GrowableBuffer) (place : Nat) :
    (b.placed place).cursor = ⟨b.bytes.padTo place, place⟩ := by
  rw [cursor, bytes_placed, tell_placed]

theorem grows (op : StreamOp) (b : GrowableBuffer) :
    grow op b.cursor = some (seen cursor b (WriteTarget.apply op b)) := by
  cases op with
  | write new =>
    change some (_, b.cursor.extended new) = some (_, (b.overwrite new).cursor)
    rw [cursor_overwrite, cursor_eq_amid, extended_amid]
  | put byte =>
    change some (_, b.cursor.extended [byte]) = some (_, (b.overwrite [byte]).cursor)
    rw [cursor_overwrite, cursor_eq_amid, extended_amid]
  | skip count =>
    change _ = some (seen cursor b (.ok (b.placed (wrapped (WriteTarget.tell b + count)))))
    rw [seen, cursor_placed]
    rfl
  | seek target =>
    refine congrArg some (seek_seen cursor b (b.placed target) target fun inside => ?_)
    rw [cursor_placed]
    exact congrArg (fun bytes => Cursor.mk bytes target) (Bytes.padTo_of_le inside)

theorem inside_cursor (b : GrowableBuffer) : b.cursor.Inside := by
  rw [b.cursor_eq_amid]
  exact inside_amid _ _

theorem grow_run (script : Script) (b : GrowableBuffer) :
    runScript grow script b.cursor = some ((script.run b).1, (script.run b).2.cursor) :=
  runScript_eq grows script b

end GrowableBuffer

end ContractStore
