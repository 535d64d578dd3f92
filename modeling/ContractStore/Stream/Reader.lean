import ContractStore.Bytes
import ContractStore.Error

/-!
Reading. A reader takes a value off the front of the unread bytes; when it fails, the bytes that it
took before the failure stay taken. `ReadBuffer` puts a position on top, so that a caller can tell
where it is and move back.
-/
namespace ContractStore

/-- A reader's state is what is still unread. -/
abbrev Reader := EStateM CodecError Bytes

namespace Reader

def read (n : Nat) : Reader Bytes := fun unread =>
  match unread.cut n with
  | some (taken, rest) => .ok taken rest
  | none => .error (.outOfBounds "read" n unread.length) unread

def raw (n : Nat) : Reader { bytes : Bytes // bytes.length = n } := fun unread =>
  match h : unread.cut n with
  | some (taken, rest) => .ok ⟨taken, Bytes.length_of_cut h⟩ rest
  | none => .error (.outOfBounds "read" n unread.length) unread

def get : Reader UInt8
  | [] => .error (.outOfBounds "get" 1 0) []
  | b :: rest => .ok b rest

def ofExcept : Except CodecError α → Reader α
  | .ok value => pure value
  | .error cause => throw cause

def repeatOnto (item : Reader α) : Nat → List α → Bytes → EStateM.Result CodecError Bytes (List α)
  | 0, values, unread => .ok values.reverse unread
  | n + 1, values, unread =>
    match item unread with
    | .ok value rest => repeatOnto item n (value :: values) rest
    | .error cause rest => .error cause rest

def repeated (item : Reader α) (n : Nat) : Reader (List α) := repeatOnto item n []

theorem bind_of_ok {reader : Reader α} {next : α → Reader β} {unread rest : Bytes} {x : α}
    (read : reader unread = .ok x rest) : (reader >>= next) unread = next x rest := by
  change EStateM.bind reader next unread = _
  rw [EStateM.bind, read]

theorem bind_of_error {reader : Reader α} {next : α → Reader β} {unread rest : Bytes}
    {cause : CodecError} (failed : reader unread = .error cause rest) :
    (reader >>= next) unread = .error cause rest := by
  change EStateM.bind reader next unread = _
  rw [EStateM.bind, failed]

theorem ok_of_bind {reader : Reader α} {next : α → Reader β} {unread rest : Bytes} {y : β}
    (read : (reader >>= next) unread = .ok y rest) :
    ∃ x between, reader unread = .ok x between ∧ next x between = .ok y rest := by
  cases first : reader unread with
  | ok x between => exact ⟨x, between, rfl, (bind_of_ok first).symm.trans read⟩
  | error cause between => cases (bind_of_error first).symm.trans read

theorem repeatOnto_eq (item : Reader α) (n : Nat) (values : List α) (unread : Bytes) :
    repeatOnto item n values unread = (do
      let more ← repeated item n
      pure (values.reverse ++ more) : Reader (List α)) unread := by
  induction n generalizing values unread with
  | zero => simp [repeatOnto, repeated, bind, EStateM.bind, pure, EStateM.pure]
  | succ n ih =>
    simp only [repeatOnto, repeated, bind, EStateM.bind, pure, EStateM.pure]
    cases item unread with
    | error cause rest => rfl
    | ok value rest =>
      simp only
      rw [ih (value :: values), ih [value]]
      simp only [repeated, bind, EStateM.bind, pure, EStateM.pure]
      cases repeatOnto item n [] rest <;> simp

theorem repeated_zero (item : Reader α) : repeated item 0 = pure [] := rfl

theorem repeated_succ (item : Reader α) (n : Nat) :
    repeated item (n + 1) = (do
      let value ← item
      let more ← repeated item n
      pure (value :: more)) := by
  funext unread
  simp only [repeated, repeatOnto, bind, EStateM.bind, pure, EStateM.pure]
  cases item unread with
  | error cause rest => rfl
  | ok value rest => exact repeatOnto_eq item n [value] rest

theorem length_of_repeatOnto {item : Reader α} {n : Nat} {values found : List α}
    {unread rest : Bytes} (h : repeatOnto item n values unread = .ok found rest) :
    found.length = values.length + n := by
  induction n generalizing values unread with
  | zero =>
    simp only [repeatOnto, EStateM.Result.ok.injEq] at h
    simp [← h.1]
  | succ n ih =>
    simp only [repeatOnto] at h
    split at h
    · rw [ih h, List.length_cons]
      omega
    · cases h

theorem length_of_repeated {item : Reader α} {n : Nat} {found : List α} {unread rest : Bytes}
    (h : repeated item n unread = .ok found rest) : found.length = n := by
  simpa using length_of_repeatOnto h

def replicated (item : Reader α) (n : Nat) : Reader { values : List α // values.length = n } :=
  fun unread =>
    match h : repeated item n unread with
    | .ok values rest => .ok ⟨values, length_of_repeated h⟩ rest
    | .error cause rest => .error cause rest

theorem replicated_of_ok {item : Reader α} {n : Nat} {values : List α} {unread rest : Bytes}
    (found : repeated item n unread = .ok values rest) :
    replicated item n unread = .ok ⟨values, length_of_repeated found⟩ rest := by
  unfold replicated
  split
  · rename_i again
    cases again.symm.trans found
    rfl
  · rename_i again
    cases again.symm.trans found

theorem replicated_of_error {item : Reader α} {n : Nat} {cause : CodecError} {unread rest : Bytes}
    (failed : repeated item n unread = .error cause rest) :
    replicated item n unread = .error cause rest := by
  unfold replicated
  split
  · rename_i again
    cases again.symm.trans failed
  · rename_i again
    cases again.symm.trans failed
    rfl

theorem ok_of_replicated {item : Reader α} {n : Nat} {unread rest : Bytes}
    {values : { values : List α // values.length = n }}
    (read : replicated item n unread = .ok values rest) :
    repeated item n unread = .ok values.1 rest := by
  cases found : repeated item n unread with
  | ok taken between => cases (replicated_of_ok found).symm.trans read; rfl
  | error cause between => cases (replicated_of_error found).symm.trans read

def whole (value : Reader α) (bytes : Bytes) : Except CodecError α :=
  match value bytes with
  | .ok value [] => .ok value
  | .ok _ (b :: rest) => .error (.trailingBytes (b :: rest).length)
  | .error cause _ => .error cause

end Reader

structure ReadBuffer where
  data : Bytes
  pos : Nat
  pos_le : pos ≤ data.length

namespace ReadBuffer

def ofBytes (data : Bytes) : ReadBuffer := ⟨data, 0, Nat.zero_le _⟩

def unread (b : ReadBuffer) : Bytes := b.data.drop b.pos

def tell (b : ReadBuffer) : Nat := b.pos

def remaining (b : ReadBuffer) : Nat := b.data.length - b.pos

/-- Runs a reader at the position and moves past what it took, also where it failed. -/
def run (b : ReadBuffer) (reader : Reader α) : Except CodecError α × ReadBuffer :=
  match reader b.unread with
  | .ok value rest => (.ok value, ⟨b.data, b.data.length - rest.length, Nat.sub_le ..⟩)
  | .error cause rest => (.error cause, ⟨b.data, b.data.length - rest.length, Nat.sub_le ..⟩)

def read (b : ReadBuffer) (n : Nat) : Except CodecError Bytes × ReadBuffer :=
  b.run (Reader.read n)

def get (b : ReadBuffer) : Except CodecError UInt8 × ReadBuffer := b.run Reader.get

def skip (b : ReadBuffer) (n : Nat) : Except CodecError Unit × ReadBuffer :=
  b.run (do let _ ← Reader.read n)

def readArray (b : ReadBuffer) (n : Nat) :
    Except CodecError { bytes : Bytes // bytes.length = n } × ReadBuffer :=
  b.run (Reader.raw n)

/-- Moves to `target`; past the end it fails and stays. -/
def seek (b : ReadBuffer) (target : Nat) : Except CodecError Unit × ReadBuffer :=
  if h : target ≤ b.data.length then (.ok (), ⟨b.data, target, h⟩)
  else (.error (.outOfBounds "seek" target b.data.length), b)

end ReadBuffer
end ContractStore
