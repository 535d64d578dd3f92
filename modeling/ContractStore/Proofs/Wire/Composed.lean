import ContractStore.Wire.Decode

/-!
What readers are made of. A composed reader comes to its bytes by `get` and `read` alone; in between
it computes, and it may fail anywhere. Every decoder is composed (`WireType.composed_decode`), so
what these two steps keep is kept by all of them.
-/
namespace ContractStore

namespace Reader
variable {α β : Type}

inductive Composed : {α : Type} → Reader α → Prop where
  | give {α : Type} (value : α) : Composed (pure value)
  | refuse {α : Type} (cause : CodecError) : Composed (throw cause : Reader α)
  | get : Composed get
  | read (n : Nat) : Composed (read n)
  | bind {α β : Type} {first : Reader α} {next : α → Reader β} (front : Composed first)
      (back : ∀ x, Composed (next x)) : Composed (first >>= next)

/-- A fact that holds of every value read may be put into the type of the values. -/
theorem Composed.restrict {p : α → Prop} [DecidablePred p] {reader : Reader α}
    {narrow : Reader { x : α // p x }} (composed : Composed reader)
    (ok : ∀ unread x rest, reader unread = .ok x rest → ∃ h, narrow unread = .ok ⟨x, h⟩ rest)
    (error : ∀ unread cause rest, reader unread = .error cause rest →
      narrow unread = .error cause rest) : Composed narrow := by
  -- the second check never fails, so its cause is no matter
  have checked : narrow = reader >>= fun x =>
      if h : p x then pure ⟨x, h⟩ else throw .varintOverflow := by
    funext unread
    cases read : reader unread with
    | ok x rest =>
      obtain ⟨h, found⟩ := ok unread x rest read
      rw [found, bind_of_ok read, dif_pos h]
      rfl
    | error cause rest => rw [error unread cause rest read, bind_of_error read]
  rw [checked]
  refine .bind composed fun x => ?_
  split
  · exact .give _
  · exact .refuse _

theorem composed_raw (n : Nat) : Composed (raw n) := by
  apply Composed.restrict (.read n)
  · intro unread bytes rest found
    unfold Reader.read at found
    unfold raw
    split at found
    · rename_i cut
      cases found
      refine ⟨Bytes.length_of_cut cut, ?_⟩
      split <;> rename_i again <;> cases cut.symm.trans again
      rfl
    · cases found
  · intro unread cause rest failed
    unfold Reader.read at failed
    unfold raw
    split at failed
    · cases failed
    · rename_i cut
      cases failed
      split <;> rename_i again <;> cases cut.symm.trans again
      rfl

theorem composed_ofExcept (result : Except CodecError α) : Composed (ofExcept result) := by
  cases result with
  | ok value => exact .give value
  | error cause => exact .refuse cause

theorem composed_varint : Composed Varint.read := by
  have groups (left weight value : Nat) : Composed (Varint.readGroups left weight value) := by
    induction left generalizing weight value with
    | zero => exact .refuse _
    | succ left ih =>
      refine .bind .get fun byte => ?_
      dsimp only
      split
      · exact .refuse _
      · split
        · exact .give _
        · exact ih _ _
  exact groups Varint.maxGroups 1 0

theorem composed_expectCount (what : String) (expected : Nat) :
    Composed (expectCount what expected) := by
  refine .bind composed_varint fun got => ?_
  split
  · exact .give _
  · exact .refuse _

theorem composed_expectSize (what : String) (size : Nat) : Composed (expectSize what size) :=
  .bind (composed_ofExcept _) fun expected => composed_expectCount what expected

theorem composed_text : Composed text := by
  refine .bind composed_varint fun length => .bind (.read length) fun utf8 => ?_
  split
  · exact .give _
  · exact .refuse _

theorem composed_bits (bytes : Nat) : Composed (bits bytes) := .bind (.read bytes) fun _ => .give _

theorem composed_repeated {item : Reader α} (each : Composed item) (n : Nat) :
    Composed (repeated item n) := by
  induction n with
  | zero => exact .give []
  | succ n ih =>
    rw [repeated_succ]
    exact .bind each fun x => .bind ih fun xs => .give _

theorem composed_replicated {item : Reader α} (each : Composed item) (n : Nat) :
    Composed (replicated item n) :=
  .restrict (composed_repeated each n) (fun _ _ _ found => ⟨_, replicated_of_ok found⟩)
    fun _ _ _ failed => replicated_of_error failed

theorem composed_counted {item : Reader α} (each : Composed item) : Composed (counted item) :=
  .bind composed_varint fun count => composed_repeated each count

theorem composed_pair {key : Reader α} {value : Reader β} (left : Composed key)
    (right : Composed value) : Composed (do
      expectCount "map pair" 2
      let k ← key
      let v ← value
      return (k, v)) :=
  .bind (composed_expectCount _ _) fun _ => .bind left fun _ => .bind right fun _ => .give _

end Reader

mutual

theorem WireType.composed_decode : (t : WireType) → Reader.Composed t.decode
  | .int kind => Reader.composed_bits kind.bytes
  | .float kind => Reader.composed_bits kind.bytes
  | .bool => .bind .get fun _ => .give _
  | .varint => .bind Reader.composed_varint fun _ => .give _
  | .string => Reader.composed_text
  | .name => .bind Reader.composed_text fun _ => .give _
  | .checksum kind =>
    .bind (Reader.composed_expectCount _ _) fun _ => Reader.composed_raw kind.bytes
  | .vec item => Reader.composed_counted item.composed_decode
  | .array item size =>
    .bind (Reader.composed_expectSize _ _) fun _ =>
      Reader.composed_replicated item.composed_decode size
  | .set _ item => .bind (Reader.composed_counted item.composed_decode) fun _ => .give _
  | .map _ key value =>
    .bind (Reader.composed_counted
      (Reader.composed_pair key.composed_decode value.composed_decode)) fun _ => .give _
  | .tuple row => .bind (Reader.composed_expectSize _ _) fun _ => row.composed_decode
  | .enum decl => by
    refine .bind (Reader.composed_bits decl.repr.bytes) fun _ => ?_
    split
    · exact .give _
    · exact .refuse _
  | .record _ _ fields => .bind (Reader.composed_expectSize _ _) fun _ => fields.composed_decode

theorem WireRow.composed_decode : (r : WireRow) → Reader.Composed r.decode
  | .nil => .give ()
  | .cons _ type rest =>
    .bind type.composed_decode fun _ => .bind rest.composed_decode fun _ => .give _

end

end ContractStore
