import ContractStore.Wire.Encode
import ContractStore.Wire.Pack

/-!
Scripts that only write. Such a script is described by the bytes that it puts down, or by the one
cause for which encoding stops, a count that is too large. Measuring, writing and packing all agree
with that description.
-/
namespace ContractStore.Script

/-- The steps that encoding uses: it writes bytes, or it refuses a count that is too large. -/
inductive PlainStep : Except CodecError StreamOp → Prop where
  | write (bytes : Bytes) : PlainStep (.ok (.write bytes))
  | put (byte : UInt8) : PlainStep (.ok (.put byte))
  | refuse : PlainStep (.error .varintOverflow)

def Plain (script : Script) : Prop := ∀ step ∈ script, PlainStep step

def payload : StreamOp → Bytes
  | .write bytes => bytes
  | .put byte => [byte]
  | .skip _ => []
  | .seek _ => []

def output : Script → Except CodecError Bytes
  | [] => .ok []
  | .error cause :: _ => .error cause
  | .ok op :: rest => (output rest).map (payload op ++ ·)

theorem output_cons_eq_error {op : StreamOp} {rest : Script} {cause : CodecError}
    (h : output (.ok op :: rest) = .error cause) : output rest = .error cause := by
  cases later : output rest with
  | error reason =>
    simp only [output, later, Except.map, Except.error.injEq] at h
    rw [h]
  | ok tail => simp [output, later, Except.map] at h

theorem plain_nil : Plain [] := by
  intro step mem
  cases mem

theorem plain_append {first second : Script} (h : Plain first) (h' : Plain second) :
    Plain (first ++ second) := by
  intro step mem
  rcases List.mem_append.1 mem with mem | mem
  · exact h step mem
  · exact h' step mem

theorem plain_write (bytes : Bytes) : Plain (write bytes) := by
  intro step mem
  cases List.mem_singleton.1 mem
  exact .write bytes

theorem plain_put (byte : UInt8) : Plain (put byte) := by
  intro step mem
  cases List.mem_singleton.1 mem
  exact .put byte

theorem plain_refuse : Plain (fail .varintOverflow) := by
  intro step mem
  cases List.mem_singleton.1 mem
  exact .refuse

theorem plain_of_cons {step : Except CodecError StreamOp} {rest : Script}
    (h : Plain (step :: rest)) : PlainStep step ∧ Plain rest :=
  ⟨h step List.mem_cons_self, fun s mem => h s (List.mem_cons_of_mem _ mem)⟩

theorem output_append (first second : Script) :
    output (first ++ second) = (do
      let front ← output first
      let back ← output second
      return front ++ back) := by
  induction first with
  | nil =>
    change output second = (output second >>= fun back => pure ([] ++ back))
    cases output second <;> rfl
  | cons step rest ih =>
    cases step with
    | error cause => rfl
    | ok op =>
      simp only [List.cons_append, output, ih]
      cases output rest with
      | error cause => rfl
      | ok front =>
        cases output second with
        | error cause => rfl
        | ok back => exact congrArg Except.ok (List.append_assoc _ _ _).symm

theorem error_of_output {script : Script} (plain : Plain script) {cause : CodecError}
    (h : output script = .error cause) : cause = .varintOverflow := by
  induction script with
  | nil => cases h
  | cons step rest ih =>
    obtain ⟨kind, plainRest⟩ := plain_of_cons plain
    cases step with
    | error reason =>
      cases kind
      cases h
      rfl
    | ok op => exact ih plainRest (output_cons_eq_error h)

/-- A target that takes every write runs a plain script as one write of its whole output. -/
theorem run_eq_advance {σ : Type} [WriteTarget σ] (advance : σ → Bytes → σ)
    (nothing : ∀ target, advance target [] = target)
    (compose : ∀ target front back,
      advance (advance target front) back = advance target (front ++ back))
    (write : ∀ target bytes, WriteTarget.apply (.write bytes) target = .ok (advance target bytes))
    (put : ∀ target byte, WriteTarget.apply (.put byte) target = .ok (advance target [byte]))
    {script : Script} (plain : Plain script) (target : σ) :
    match script.output with
    | .ok bytes => script.run target = (.ok (), advance target bytes)
    | .error cause => (script.run target).1 = .error cause := by
  induction script generalizing target with
  | nil => simp [output, run, nothing]
  | cons step rest ih =>
    obtain ⟨kind, plainRest⟩ := plain_of_cons plain
    have later (bytes : Bytes) := ih plainRest (advance target bytes)
    cases kind with
    | write bytes =>
      have later := later bytes
      simp only [output, run, write, payload]
      cases out : output rest <;> simp_all [Except.map]
    | put byte =>
      have later := later [byte]
      simp only [output, run, put, payload]
      cases out : output rest <;> simp_all [Except.map]
    | refuse => rfl

theorem run_counter {script : Script} (plain : Plain script) (counter : SizeCounter) :
    match script.output with
    | .ok bytes => script.run counter = (.ok (), ⟨counter.counted + bytes.length⟩)
    | .error cause => (script.run counter).1 = .error cause := by
  refine run_eq_advance (fun c bytes => ⟨c.counted + bytes.length⟩) (fun _ => rfl) ?_
    (fun _ _ => rfl) (fun _ _ => rfl) plain counter
  intro target front back
  simp [Nat.add_assoc]

theorem run_buffer {script : Script} (plain : Plain script) (buffer : GrowableBuffer) :
    match script.output with
    | .ok bytes => script.run buffer = (.ok (), buffer.overwrite bytes)
    | .error cause => (script.run buffer).1 = .error cause := by
  refine run_eq_advance GrowableBuffer.overwrite (fun _ => rfl) ?_ (fun _ _ => rfl)
    (fun _ _ => rfl) plain buffer
  intro target front back
  simp [GrowableBuffer.overwrite, List.drop_drop]

theorem measure_eq_output {script : Script} (plain : Plain script) :
    script.measure = script.output.map List.length := by
  have ran := run_counter plain SizeCounter.new
  unfold measure
  cases out : script.output with
  | ok bytes =>
    simp only [out] at ran
    rw [ran]
    simp [SizeCounter.new, Except.map]
  | error cause =>
    simp only [out] at ran
    split
    · simp_all
    · simp_all [Except.map]

theorem bytes_eq_output {script : Script} (plain : Plain script) :
    script.bytes = script.output := by
  have ran := run_buffer plain (GrowableBuffer.withCapacity 0)
  unfold bytes
  cases out : script.output with
  | ok bytes =>
    simp only [out] at ran
    rw [ran]
    simp [GrowableBuffer.withCapacity, GrowableBuffer.overwrite, GrowableBuffer.bytes]
  | error cause =>
    simp only [out] at ran
    split
    · simp_all
    · simp_all

theorem packTwice_eq_output {measured written : Script} (plain : Plain measured)
    (plain' : Plain written) (same : measured.output = written.output) :
    packTwice measured written = written.output := by
  unfold packTwice
  rw [measure_eq_output plain, same]
  cases out : written.output with
  | error cause => rfl
  | ok bytes =>
    have ran := run_buffer plain' (GrowableBuffer.withCapacity bytes.length)
    simp only [out] at ran
    simp only [Except.map, bind, Except.bind]
    rw [ran]
    simp [GrowableBuffer.withCapacity, GrowableBuffer.overwrite, WriteTarget.tell,
      GrowableBuffer.bytes, pure, Except.pure]

end ContractStore.Script
