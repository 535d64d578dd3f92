import ContractStore.Stream.Target

/-!
A script is what a value does to a write target: a list of operations, in which a step may also
refuse to go on. The encoder produces scripts, so measuring and writing are two runs of one list.
`run_append` says that a script may be cut anywhere.
-/
namespace ContractStore

abbrev Script := List (Except CodecError StreamOp)

namespace Script

def write (bytes : Bytes) : Script := [.ok (.write bytes)]

def put (byte : UInt8) : Script := [.ok (.put byte)]

def fail (cause : CodecError) : Script := [.error cause]

/-- Runs the steps in order up to the first that fails, and keeps what was done before it. -/
def run {σ : Type} [WriteTarget σ] : Script → σ → Except CodecError Unit × σ
  | [], target => (.ok (), target)
  | .error cause :: _, target => (.error cause, target)
  | .ok op :: rest, target =>
    match WriteTarget.apply op target with
    | .ok next => run rest next
    | .error cause => (.error cause, target)

/-- The number of bytes that the script writes, which memory holds. -/
def measure (script : Script) : Except CodecError Nat :=
  match script.run SizeCounter.new with
  | (.ok (), counter) => .ok counter.counted
  | (.error cause, _) => .error cause

def bytes (script : Script) : Except CodecError Bytes :=
  match script.run (GrowableBuffer.withCapacity 0) with
  | (.ok (), buffer) => .ok buffer.bytes
  | (.error cause, _) => .error cause

theorem run_append {σ : Type} [WriteTarget σ] (first second : Script) (target : σ) :
    run (first ++ second) target =
      match run first target with
      | (.ok (), next) => run second next
      | (.error cause, next) => (.error cause, next) := by
  induction first generalizing target with
  | nil => rfl
  | cons step rest ih =>
    cases step with
    | error cause => rfl
    | ok op =>
      simp only [List.cons_append, run]
      cases WriteTarget.apply op target with
      | error cause => rfl
      | ok next => exact ih next

end Script
end ContractStore
