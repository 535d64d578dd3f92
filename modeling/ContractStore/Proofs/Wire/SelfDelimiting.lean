import ContractStore.Proofs.Wire.RoundTrip

/-!
Where a value ends is decided by its own bytes. What a reader took off the front it takes again,
whatever follows, and from any proper front of it the reader runs out of bytes. No encoder is
involved, so this holds for redundant counts, repeated keys and entries in any order as well
(`WireType.decoding_is_self_delimiting`).
-/
namespace ContractStore

namespace Reader
variable {α β : Type}

/-- On every proper front of `taken` the reader runs out of bytes. -/
def Starves (reader : Reader α) (taken : Bytes) : Prop :=
  ∀ front more, taken = front ++ more → more ≠ [] →
    ∃ op needed remaining left, reader front = .error (.outOfBounds op needed remaining) left

def SelfDelimiting (reader : Reader α) : Prop :=
  ∀ unread value rest, reader unread = .ok value rest →
    ∃ taken, unread = taken ++ rest ∧ Reads reader taken value ∧ Starves reader taken

theorem starves_nil (reader : Reader α) : Starves reader [] := by
  intro front more split missing
  exact absurd (List.append_eq_nil_iff.1 split.symm).2 missing

theorem selfDelimiting_pure (value : α) : SelfDelimiting (pure value) := by
  intro unread found rest read
  cases read
  exact ⟨[], rfl, reads_pure value, starves_nil _⟩

theorem selfDelimiting_throw (cause : CodecError) : SelfDelimiting (throw cause : Reader α) := by
  intro unread found rest read
  cases read

theorem starves_bind {reader : Reader α} {next : α → Reader β} {first second : Bytes} {x : α}
    (reads : Reads reader first x) (starves : Starves reader first)
    (later : Starves (next x) second) : Starves (reader >>= next) (first ++ second) := by
  intro front more split missing
  -- the front ends inside what the second reader takes, or already inside what the first takes
  rcases List.append_eq_append_iff.1 split with ⟨inner, rfl, rest⟩ | ⟨cut, whole, rfl⟩
  · obtain ⟨op, needed, remaining, left, failed⟩ := later inner more rest missing
    exact ⟨op, needed, remaining, left, (bind_of_ok (reads inner)).trans failed⟩
  · cases cut with
    | nil =>
      rw [List.append_nil] at whole
      subst whole
      obtain ⟨op, needed, remaining, left, failed⟩ := later [] second rfl missing
      have taken := reads []
      rw [List.append_nil] at taken
      exact ⟨op, needed, remaining, left, (bind_of_ok taken).trans failed⟩
    | cons b cut =>
      obtain ⟨op, needed, remaining, left, failed⟩ := starves front (b :: cut) whole (by simp)
      exact ⟨op, needed, remaining, left, bind_of_error failed⟩

theorem selfDelimiting_bind {reader : Reader α} {next : α → Reader β}
    (first : SelfDelimiting reader) (later : ∀ x, SelfDelimiting (next x)) :
    SelfDelimiting (reader >>= next) := by
  intro unread value rest read
  obtain ⟨x, between, taken, taken'⟩ := ok_of_bind read
  obtain ⟨front, rfl, reads, starves⟩ := first unread x between taken
  obtain ⟨back, rfl, reads', starves'⟩ := later x between value rest taken'
  refine ⟨front ++ back, (List.append_assoc _ _ _).symm, reads_bind reads reads', ?_⟩
  exact starves_bind reads starves starves'

theorem selfDelimiting_get : SelfDelimiting get := by
  intro unread value rest read
  cases unread with
  | nil => cases read
  | cons byte unread =>
    cases read
    refine ⟨[value], rfl, reads_get value, ?_⟩
    intro front more split missing
    have nothing : front = [] := by
      have size := congrArg List.length split
      have long := List.length_pos_iff.2 missing
      simp only [List.length_singleton, List.length_append] at size
      exact List.length_eq_zero_iff.1 (by omega)
    subst nothing
    exact ⟨"get", 1, 0, [], rfl⟩

theorem cut_of_short {front more : Bytes} (missing : more ≠ []) :
    front.cut (front ++ more).length = none := by
  have long := List.length_pos_iff.2 missing
  rw [Bytes.cut_eq, List.length_append, if_neg (by omega)]

theorem append_of_cut {unread taken rest : Bytes} {n : Nat}
    (found : unread.cut n = some (taken, rest)) : unread = taken ++ rest := by
  rw [Bytes.cut_eq] at found
  split at found
  · cases found
    exact (List.take_append_drop n unread).symm
  · cases found

theorem selfDelimiting_read (n : Nat) : SelfDelimiting (Reader.read n) := by
  intro unread value rest read
  unfold Reader.read at read
  split at read
  · rename_i taken between found
    cases read
    obtain rfl := Bytes.length_of_cut found
    refine ⟨value, append_of_cut found, reads_read value, ?_⟩
    rintro front more rfl missing
    refine ⟨"read", (front ++ more).length, front.length, front, ?_⟩
    unfold Reader.read
    rw [cut_of_short missing]
  · cases read

theorem selfDelimiting_raw (n : Nat) : SelfDelimiting (raw n) := by
  intro unread value rest read
  unfold raw at read
  split at read
  · rename_i taken between found
    cases read
    refine ⟨taken, append_of_cut found, reads_raw ⟨taken, Bytes.length_of_cut found⟩, ?_⟩
    obtain rfl := Bytes.length_of_cut found
    rintro front more rfl missing
    refine ⟨"read", (front ++ more).length, front.length, front, ?_⟩
    unfold raw
    split
    · rename_i cut
      rw [cut_of_short missing] at cut
      cases cut
    · rfl
  · cases read

theorem selfDelimiting_ofExcept (result : Except CodecError α) :
    SelfDelimiting (ofExcept result) := by
  cases result with
  | ok value => exact selfDelimiting_pure value
  | error cause => exact selfDelimiting_throw cause

theorem selfDelimiting_varint : SelfDelimiting Varint.read := by
  have groups (left weight value : Nat) :
      SelfDelimiting (Varint.readGroups left weight value) := by
    induction left generalizing weight value with
    | zero => exact selfDelimiting_throw _
    | succ left ih =>
      refine selfDelimiting_bind selfDelimiting_get fun byte => ?_
      dsimp only
      split
      · exact selfDelimiting_throw _
      · split
        · exact selfDelimiting_pure _
        · exact ih _ _
  exact groups Varint.maxGroups 1 0

theorem selfDelimiting_expectCount (what : String) (expected : Nat) :
    SelfDelimiting (expectCount what expected) := by
  refine selfDelimiting_bind selfDelimiting_varint fun got => ?_
  split
  · exact selfDelimiting_pure _
  · exact selfDelimiting_throw _

theorem selfDelimiting_expectSize (what : String) (size : Nat) :
    SelfDelimiting (expectSize what size) :=
  selfDelimiting_bind (selfDelimiting_ofExcept _) fun expected =>
    selfDelimiting_expectCount what expected

theorem selfDelimiting_text : SelfDelimiting text := by
  refine selfDelimiting_bind selfDelimiting_varint fun length => ?_
  refine selfDelimiting_bind (selfDelimiting_read length) fun utf8 => ?_
  split
  · exact selfDelimiting_pure _
  · exact selfDelimiting_throw _

theorem selfDelimiting_bits (bytes : Nat) : SelfDelimiting (bits bytes) :=
  selfDelimiting_bind (selfDelimiting_read bytes) fun _ => selfDelimiting_pure _

theorem selfDelimiting_repeated {item : Reader α} (each : SelfDelimiting item) (n : Nat) :
    SelfDelimiting (repeated item n) := by
  induction n with
  | zero => exact selfDelimiting_pure []
  | succ n ih =>
    rw [repeated_succ]
    refine selfDelimiting_bind each fun x => selfDelimiting_bind ih fun xs => ?_
    exact selfDelimiting_pure _

theorem selfDelimiting_replicated {item : Reader α} (each : SelfDelimiting item) (n : Nat) :
    SelfDelimiting (replicated item n) := by
  intro unread value rest read
  obtain ⟨taken, rfl, reads, starves⟩ :=
    selfDelimiting_repeated each n unread value.1 rest (ok_of_replicated read)
  refine ⟨taken, rfl, ?_, ?_⟩
  · intro more
    exact replicated_of_ok (reads more)
  · intro front more split missing
    obtain ⟨op, needed, remaining, left, failed⟩ := starves front more split missing
    exact ⟨op, needed, remaining, left, replicated_of_error failed⟩

theorem selfDelimiting_counted {item : Reader α} (each : SelfDelimiting item) :
    SelfDelimiting (counted item) :=
  selfDelimiting_bind selfDelimiting_varint fun count => selfDelimiting_repeated each count

theorem selfDelimiting_pair {key : Reader α} {value : Reader β} (left : SelfDelimiting key)
    (right : SelfDelimiting value) : SelfDelimiting (do
      expectCount "map pair" 2
      let k ← key
      let v ← value
      return (k, v)) := by
  refine selfDelimiting_bind (selfDelimiting_expectCount _ _) fun _ => ?_
  refine selfDelimiting_bind left fun k => selfDelimiting_bind right fun v => ?_
  exact selfDelimiting_pure _

end Reader

mutual

theorem WireType.selfDelimiting_decode : (t : WireType) → Reader.SelfDelimiting t.decode
  | .int kind => Reader.selfDelimiting_bits kind.bytes
  | .float kind => Reader.selfDelimiting_bits kind.bytes
  | .bool =>
    Reader.selfDelimiting_bind Reader.selfDelimiting_get fun _ => Reader.selfDelimiting_pure _
  | .varint =>
    Reader.selfDelimiting_bind Reader.selfDelimiting_varint fun _ => Reader.selfDelimiting_pure _
  | .string => Reader.selfDelimiting_text
  | .name =>
    Reader.selfDelimiting_bind Reader.selfDelimiting_text fun _ => Reader.selfDelimiting_pure _
  | .checksum kind =>
    Reader.selfDelimiting_bind (Reader.selfDelimiting_expectCount _ _) fun _ =>
      Reader.selfDelimiting_raw kind.bytes
  | .vec item => Reader.selfDelimiting_counted item.selfDelimiting_decode
  | .array item size =>
    Reader.selfDelimiting_bind (Reader.selfDelimiting_expectSize _ _) fun _ =>
      Reader.selfDelimiting_replicated item.selfDelimiting_decode size
  | .set _ item =>
    Reader.selfDelimiting_bind (Reader.selfDelimiting_counted item.selfDelimiting_decode) fun _ =>
      Reader.selfDelimiting_pure _
  | .map _ key value => by
    have each := Reader.selfDelimiting_pair key.selfDelimiting_decode value.selfDelimiting_decode
    refine Reader.selfDelimiting_bind (Reader.selfDelimiting_counted each) fun _ => ?_
    exact Reader.selfDelimiting_pure _
  | .tuple row =>
    Reader.selfDelimiting_bind (Reader.selfDelimiting_expectSize _ _) fun _ =>
      row.selfDelimiting_decode
  | .enum decl => by
    refine Reader.selfDelimiting_bind (Reader.selfDelimiting_bits decl.repr.bytes) fun _ => ?_
    split
    · exact Reader.selfDelimiting_pure _
    · exact Reader.selfDelimiting_throw _
  | .record _ _ fields =>
    Reader.selfDelimiting_bind (Reader.selfDelimiting_expectSize _ _) fun _ =>
      fields.selfDelimiting_decode

theorem WireRow.selfDelimiting_decode : (r : WireRow) → Reader.SelfDelimiting r.decode
  | .nil => Reader.selfDelimiting_pure ()
  | .cons _ type rest => by
    refine Reader.selfDelimiting_bind type.selfDelimiting_decode fun _ => ?_
    refine Reader.selfDelimiting_bind rest.selfDelimiting_decode fun _ => ?_
    exact Reader.selfDelimiting_pure _

end

theorem Reader.SelfDelimiting.of_run {α : Type} {reader : Reader α} (h : reader.SelfDelimiting)
    {d : Bytes} {value : α} {after : ReadBuffer}
    (ran : (ReadBuffer.ofBytes d).run reader = (.ok value, after)) :
    (d.take after.tell).length = after.tell ∧ Reader.Reads reader (d.take after.tell) value ∧
      Reader.Starves reader (d.take after.tell) := by
  unfold ReadBuffer.run ReadBuffer.unread ReadBuffer.ofBytes at ran
  rw [List.drop_zero] at ran
  split at ran
  · rename_i found rest read
    cases ran
    obtain ⟨taken, rfl, reads, starves⟩ := h d value rest read
    have consumed : (taken ++ rest).length - rest.length = taken.length := by
      rw [List.length_append]
      omega
    simp only [ReadBuffer.tell, consumed, List.take_left']
    exact ⟨trivial, reads, starves⟩
  · cases ran

namespace WireType

/-- The bytes of an accepted value decide it, whatever follows; fewer of them are not enough. -/
theorem decoding_is_self_delimiting {t : WireType} {d : Bytes} {value : t.Carrier}
    {after : ReadBuffer} (accepted : (ReadBuffer.ofBytes d).run t.decode = (.ok value, after)) :
    let taken := d.take after.tell
    (∀ e, ∃ stop, (ReadBuffer.ofBytes (taken ++ e)).run t.decode = (.ok value, stop) ∧
        stop.tell = after.tell) ∧
      (∀ front, front <+: taken → front ≠ taken →
        ∃ op needed remaining, ((ReadBuffer.ofBytes front).run t.decode).1 =
          .error (.outOfBounds op needed remaining)) ∧
      t.unpack taken = .ok value ∧
      ∀ e, e ≠ [] → t.unpack (taken ++ e) = .error (.trailingBytes e.length) := by
  intro taken
  obtain ⟨length, reads, starves⟩ := t.selfDelimiting_decode.of_run accepted
  refine ⟨?_, ?_, Reader.whole_of_reads reads, ?_⟩
  · intro e
    exact ⟨_, ReadBuffer.run_of_reads reads e, length⟩
  · rintro front ⟨more, whole⟩ proper
    have missing : more ≠ [] := by
      rintro rfl
      exact proper ((List.append_nil front).symm.trans whole)
    obtain ⟨op, needed, remaining, left, failed⟩ := starves front more whole.symm missing
    refine ⟨op, needed, remaining, ?_⟩
    unfold ReadBuffer.run ReadBuffer.unread ReadBuffer.ofBytes
    rw [List.drop_zero, failed]
  · intro e more
    obtain ⟨b, rest, rfl⟩ := List.exists_cons_of_ne_nil more
    unfold unpack Reader.whole
    rw [reads (b :: rest)]

/-- A count and a pair's arity in longer forms, a truth value that is neither 0 nor 1, and a key
that comes twice. -/
theorem redundant_map_ends_where_it_ends :
    let t : WireType := .map .byBytes (.int .u8) .bool
    let d : Bytes := [0x82, 0x80, 0, 2, 7, 9, 0x82, 0, 7, 0, 99]
    let value : t.Carrier := SortedMap.ofList [((7 : BitVec 8), false)]
    (ReadBuffer.ofBytes d).run t.decode = (.ok value, ⟨d, 10, by decide⟩) ∧
      t.unpack (d.take 10) = .ok value ∧ t.unpack d = .error (.trailingBytes 1) ∧
      ∃ op needed remaining, ((ReadBuffer.ofBytes (d.take 7)).run t.decode).1 =
        .error (.outOfBounds op needed remaining) := by
  intro t d value
  have accepted : (ReadBuffer.ofBytes d).run t.decode = (.ok value, ⟨d, 10, by decide⟩) := by
    rfl
  obtain ⟨_, short, exact, long⟩ := decoding_is_self_delimiting accepted
  exact ⟨accepted, exact, long [99] (by decide), short (d.take 7) (by decide) (by decide)⟩

end WireType
end ContractStore
