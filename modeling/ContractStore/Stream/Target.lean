import ContractStore.Bytes
import ContractStore.Error

/-!
Writing. Three targets take the same four operations: a counter that only measures, a buffer that
grows, and a buffer of fixed size. An operation that a target refuses leaves the target as it was,
so `apply` returns a new target only on success. The two buffers hold the bytes behind their
position in reverse, next to those ahead of it; a position outside the bytes cannot be written down.
Positions are machine words. Where the sum of a position and a count is not checked, it wraps
around, and the target moves back.
-/
namespace ContractStore

inductive StreamOp where
  | write (bytes : Bytes)
  | put (byte : UInt8)
  | skip (count : Nat)
  | seek (target : Nat)
  deriving DecidableEq, Repr

def wrapped (sum : Nat) : Nat := sum % UInt64.size

class WriteTarget (σ : Type) where
  apply : StreamOp → σ → Except CodecError σ
  tell : σ → Nat
  /-- How many bytes can still be written; none where that is not determined. -/
  remaining : σ → Option Nat

/-- Counts bytes and keeps none. The count is exact here, and wraps where it is read: one wrap of
the whole sum is what a wrap at each step comes to. -/
structure SizeCounter where
  counted : Nat
  deriving DecidableEq, Repr

namespace SizeCounter

def new : SizeCounter := ⟨0⟩

def size (c : SizeCounter) : Nat := wrapped c.counted

def apply : StreamOp → SizeCounter → SizeCounter
  | .write bytes, c => ⟨c.counted + bytes.length⟩
  | .put _, c => ⟨c.counted + 1⟩
  | .skip count, c => ⟨c.counted + count⟩
  | .seek target, _ => ⟨target⟩

instance : WriteTarget SizeCounter where
  apply op c := .ok (c.apply op)
  tell := size
  remaining _ := some 0

end SizeCounter

structure BoundedBuffer where
  behind : Bytes
  ahead : Bytes
  deriving DecidableEq, Repr

namespace BoundedBuffer

def ofBytes (bytes : Bytes) : BoundedBuffer := ⟨[], bytes⟩

def bytes (b : BoundedBuffer) : Bytes := b.behind.reverse ++ b.ahead

def overwrite (b : BoundedBuffer) (op : String) (new : Bytes) : Except CodecError BoundedBuffer :=
  match b.ahead.cut new.length with
  | some (_, rest) => .ok ⟨new.reverse ++ b.behind, rest⟩
  | none => .error (.outOfBounds op new.length b.ahead.length)

def apply : StreamOp → BoundedBuffer → Except CodecError BoundedBuffer
  | .write new, b => b.overwrite "write" new
  | .put byte, b => b.overwrite "put" [byte]
  | .skip count, b =>
    match b.ahead.cut count with
    | some (passed, rest) => .ok ⟨passed.reverse ++ b.behind, rest⟩
    | none => .error (.outOfBounds "skip" count b.ahead.length)
  | .seek target, b =>
    let all := b.bytes
    if target ≤ all.length then .ok ⟨(all.take target).reverse, all.drop target⟩
    else .error (.outOfBounds "seek" target all.length)

instance : WriteTarget BoundedBuffer where
  apply op b := b.apply op
  tell b := b.behind.length
  remaining b := some b.ahead.length

end BoundedBuffer

/-- A buffer that grows, with room for `reserved` bytes set aside at the start. -/
structure GrowableBuffer where
  reserved : Nat
  behind : Bytes
  ahead : Bytes
  deriving DecidableEq, Repr

namespace GrowableBuffer

def withCapacity (reserved : Nat) : GrowableBuffer := ⟨reserved, [], []⟩

def bytes (b : GrowableBuffer) : Bytes := b.behind.reverse ++ b.ahead

def overwrite (b : GrowableBuffer) (new : Bytes) : GrowableBuffer :=
  { b with behind := new.reverse ++ b.behind, ahead := b.ahead.drop new.length }

def placed (b : GrowableBuffer) (place : Nat) : GrowableBuffer :=
  let all := b.bytes ++ List.replicate (place - b.bytes.length) 0
  { b with behind := (all.take place).reverse, ahead := all.drop place }

def apply : StreamOp → GrowableBuffer → Except CodecError GrowableBuffer
  | .write new, b => .ok (b.overwrite new)
  | .put byte, b => .ok (b.overwrite [byte])
  | .skip count, b => .ok (b.placed (wrapped (b.behind.length + count)))
  | .seek target, b =>
    if target ≤ b.bytes.length then .ok (b.placed target)
    else .error (.outOfBounds "seek" target b.bytes.length)

instance : WriteTarget GrowableBuffer where
  apply op b := b.apply op
  tell b := b.behind.length
  remaining b :=
    if b.bytes.length ≤ b.reserved then some (b.reserved - b.behind.length) else none

end GrowableBuffer
end ContractStore
