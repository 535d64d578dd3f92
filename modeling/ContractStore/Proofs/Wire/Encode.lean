import ContractStore.Proofs.Except
import ContractStore.Proofs.Stream.Script

/-!
The bytes of a value, as a function. `WireType.encode` states the format without scripts, places or
the order in which hashed entries are visited. Every script of a value, whatever the order of the
visit, writes these bytes (`WireType.writes_scriptAt`), so packing is encoding (`pack_eq_encode`).
-/
namespace ContractStore

namespace Encoding
variable {α β : Type}

def count (length : Nat) : Except CodecError Bytes := (Varint.countOf length).map Varint.encode

def text (s : String) : Except CodecError Bytes :=
  (count (Bytes.ofString s).length).map (· ++ Bytes.ofString s)

def sized (size : Nat) (fields : Except CodecError Bytes) : Except CodecError Bytes := do
  let front ← count size
  let back ← fields
  return front ++ back

def pair (key : α → Except CodecError Bytes) (value : β → Except CodecError Bytes) (entry : α × β) :
    Except CodecError Bytes := do
  let k ← key entry.1
  let v ← value entry.2
  return Varint.encode mapPairArity ++ (k ++ v)

def counted (item : α → Except CodecError Bytes) (items : List α) : Except CodecError Bytes := do
  let front ← count items.length
  let packed ← items.mapM item
  return front ++ packed.flatten

def sorted (item : α → Except CodecError Bytes) (items : List α) : Except CodecError Bytes := do
  let packed ← items.mapM item
  let front ← count packed.length
  return front ++ (packed.mergeSort Script.bytesLE).flatten

theorem count_of_small {length : Nat} (small : length < Varint.bound) :
    count length = .ok (Varint.encode length) := by
  simp [count, Varint.countOf, small, Except.map]

theorem count_eq_error {length : Nat} {cause : CodecError} (h : count length = .error cause) :
    cause = .varintOverflow := by
  by_cases small : length < Varint.bound
  · rw [count_of_small small] at h
    cases h
  · simp only [count, Varint.countOf, small, if_false, Except.map, Except.error.injEq] at h
    exact h.symm

theorem text_of_fits {s : String} (fits : (Bytes.ofString s).length < Varint.bound) :
    text s = .ok (Varint.encode (Bytes.ofString s).length ++ Bytes.ofString s) := by
  unfold text
  rw [count_of_small fits]
  rfl

theorem text_of_not_fits {s : String} (long : ¬ (Bytes.ofString s).length < Varint.bound) :
    text s = .error .varintOverflow := by
  simp [text, count, Varint.countOf, long, Except.map]

end Encoding

mutual

def WireType.encode : (t : WireType) → t.Carrier → Except CodecError Bytes
  | .int kind, pattern => .ok (Bytes.ofNatLE kind.bytes pattern.toNat)
  | .float kind, pattern => .ok (Bytes.ofNatLE kind.bytes pattern.toNat)
  | .bool, (b : Bool) => .ok [if b then 1 else 0]
  | .varint, n => .ok (Varint.encode n.toNat)
  | .string, s => Encoding.text s
  | .name, n => Encoding.text n.text
  | .checksum kind, (bytes : { bytes : Bytes // bytes.length = kind.bytes }) =>
    .ok (Varint.encode kind.bytes ++ bytes.1)
  | .vec item, items => Encoding.counted item.encode items
  | .array item _, items => Encoding.counted item.encode items.1
  | .set .byValue item, items => Encoding.counted item.encode items.keys
  | .set .byBytes item, items => Encoding.sorted item.encode items.keys
  | .map .byValue key value, pairs =>
    Encoding.counted (Encoding.pair key.encode value.encode) pairs.entries
  | .map .byBytes key value, pairs =>
    Encoding.sorted (Encoding.pair key.encode value.encode) pairs.entries
  | .tuple row, items => Encoding.sized row.length (row.encode items)
  | .enum decl, v => .ok (Bytes.ofNatLE decl.repr.bytes (decl.pattern v).toNat)
  | .record _ hasBase fields, values =>
    Encoding.sized (fields.wireCount hasBase) (fields.encode values)

def WireRow.encode : (r : WireRow) → r.Carrier → Except CodecError Bytes
  | .nil, () => .ok []
  | .cons _ type rest, (x, more) => do
    let front ← type.encode x
    let back ← rest.encode more
    return front ++ back

end

theorem pairwise_mergeSort_bytesLE {α : Type} (view : α → Bytes) (xs : List α) :
    (xs.mergeSort fun a b => Script.bytesLE (view a) (view b)).Pairwise fun a b =>
      Script.bytesLE (view a) (view b) = true := by
  apply List.pairwise_mergeSort
  · intro a b c
    exact Std.TransOrd.isLE_trans
  · intro a b
    unfold Script.bytesLE
    rw [Std.OrientedOrd.eq_swap (a := view b)]
    cases compare (view a) (view b) <;> rfl

theorem mergeSort_bytesLE_of_perm {xs ys : List Bytes} (perm : xs.Perm ys) :
    xs.mergeSort Script.bytesLE = ys.mergeSort Script.bytesLE := by
  have ascends (zs : List Bytes) :
      (zs.mergeSort Script.bytesLE).Pairwise fun a b => Script.bytesLE a b = true :=
    pairwise_mergeSort_bytesLE id zs
  refine List.Perm.eq_of_pairwise (fun a b _ _ below above => ?_) (ascends xs) (ascends ys) ?_
  · exact Std.LawfulEqCmp.eq_of_compare (Std.OrientedCmp.isLE_antisymm below above)
  · exact (List.mergeSort_perm xs _).trans (perm.trans (List.mergeSort_perm ys _).symm)

namespace Script
variable {α : Type}

structure Writes (script : Script) (result : Except CodecError Bytes) : Prop where
  plain : script.Plain
  output : script.output = result

theorem writes_write (bytes : Bytes) : Writes (write bytes) (.ok bytes) :=
  ⟨plain_write bytes, congrArg Except.ok (List.append_nil bytes)⟩

theorem writes_put (byte : UInt8) : Writes (put byte) (.ok [byte]) := ⟨plain_put byte, rfl⟩

theorem writes_append {first second : Script} {front back : Except CodecError Bytes}
    (h : Writes first front) (h' : Writes second back) :
    Writes (first ++ second) (do
      let x ← front
      let y ← back
      return x ++ y) := by
  refine ⟨plain_append h.plain h'.plain, ?_⟩
  rw [output_append, h.output, h'.output]

theorem writes_varint (n : Nat) : Writes (Varint.script n) (.ok (Varint.encode n)) := by
  unfold Varint.script
  constructor
  · intro step mem
    obtain ⟨byte, _, rfl⟩ := List.mem_map.1 mem
    exact .put byte
  · induction Varint.encode n with
    | nil => rfl
    | cons byte rest ih =>
      rw [List.map_cons, output, ih]
      rfl

theorem writes_count (length : Nat) :
    Writes (Varint.countScript length) (Encoding.count length) := by
  unfold Varint.countScript Encoding.count Varint.countOf
  by_cases small : length < Varint.bound
  · rw [if_pos small]
    exact writes_varint length
  · rw [if_neg small]
    exact ⟨plain_refuse, rfl⟩

theorem writes_text (s : String) : Writes (ofText s) (Encoding.text s) := by
  have front := writes_count (Bytes.ofString s).length
  have back : Writes (if (Bytes.ofString s).isEmpty then [] else write (Bytes.ofString s))
      (.ok (Bytes.ofString s)) := by
    split
    · rename_i empty
      rw [List.isEmpty_iff.1 empty]
      exact ⟨plain_nil, rfl⟩
    · exact writes_write _
  have both := writes_append front back
  unfold Encoding.text
  cases count : Encoding.count (Bytes.ofString s).length <;> rw [count] at both <;> exact both

theorem writes_sized {size : Nat} {fields : Script} {result : Except CodecError Bytes}
    (h : Writes fields result) :
    Writes (Varint.countScript size ++ fields) (Encoding.sized size result) :=
  writes_append (writes_count size) h

theorem writes_items {script : Nat → α → Script} {item : α → Except CodecError Bytes}
    (each : ∀ i x, Writes (script i x) (item x)) (items : List α) (start : Nat) :
    Writes ((items.zipIdx start).flatMap fun (x, i) => script i x)
      ((items.mapM item).map List.flatten) := by
  induction items generalizing start with
  | nil => exact ⟨plain_nil, rfl⟩
  | cons x rest ih =>
    have both := writes_append (each start x) (ih (start + 1))
    rw [List.zipIdx_cons, List.flatMap_cons, List.mapM_cons]
    cases front : item x with
    | error cause =>
      rw [front] at both
      exact both
    | ok bytes =>
      rw [front] at both
      cases back : rest.mapM item <;> rw [back] at both <;> exact both

theorem writes_pieces (pieces : List Bytes) :
    Writes (pieces.flatMap write) (.ok pieces.flatten) := by
  induction pieces with
  | nil => exact ⟨plain_nil, rfl⟩
  | cons piece rest ih => exact writes_append (writes_write piece) ih

theorem writes_counted {script : Nat → α → Script} {item : α → Except CodecError Bytes}
    (each : ∀ i x, Writes (script i x) (item x)) (items : List α) :
    Writes (counted items script) (Encoding.counted item items) := by
  have both := writes_append (writes_count items.length) (writes_items each items 0)
  unfold Encoding.counted
  cases back : items.mapM item <;> rw [back] at both <;> exact both

/-- The items may come in any order: their packed forms are sorted, and there is one failure. -/
theorem writes_sorted {script : Nat → α → Script} {item : α → Except CodecError Bytes}
    (each : ∀ i x, Writes (script i x) (item x)) {visited items : List α}
    (perm : visited.Perm items) : Writes (sorted visited script) (Encoding.sorted item items) := by
  have apart : (visited.zipIdx.mapM fun (x, i) => (script i x).bytes) = visited.mapM item := by
    have forget : (fun p : α × Nat => (script p.2 p.1).bytes) = fun p => item p.1 := by
      funext p
      rw [bytes_eq_output (each p.2 p.1).plain, (each p.2 p.1).output]
    have paired := List.mapM_map (f := Prod.fst) (g := item) (l := visited.zipIdx)
    rw [List.zipIdx_map_fst] at paired
    rw [paired]
    exact congrArg (fun f => visited.zipIdx.mapM f) forget
  -- which item fails first depends on the order, but all that fail do so for one cause
  have onlyOverflow {xs : List α} {cause : CodecError} (h : xs.mapM item = .error cause) :
      cause = .varintOverflow := by
    obtain ⟨x, _, failed⟩ := mapM_eq_error h
    exact error_of_output (each 0 x).plain ((each 0 x).output.trans failed)
  unfold sorted Encoding.sorted
  rw [apart]
  cases packed : items.mapM item with
  | ok ys =>
    obtain ⟨zs, found, same⟩ := mapM_perm perm packed
    rw [found]
    simp only [bind, Except.bind]
    rw [mergeSort_bytesLE_of_perm same, ← same.length_eq]
    have both := writes_append (writes_count zs.length) (writes_pieces (ys.mergeSort bytesLE))
    exact both
  | error cause =>
    cases packed' : visited.mapM item with
    | ok zs =>
      obtain ⟨ys, found, _⟩ := mapM_perm perm.symm packed'
      simp [found] at packed
    | error cause' =>
      rw [onlyOverflow packed, onlyOverflow packed']
      exact ⟨plain_refuse, rfl⟩

theorem writes_pair {α β : Type} {key : α → Except CodecError Bytes}
    {value : β → Except CodecError Bytes} {entry : α × β} {first second : Script}
    (h : Writes first (key entry.1)) (h' : Writes second (value entry.2)) :
    Writes (Varint.script mapPairArity ++ (first ++ second)) (Encoding.pair key value entry) := by
  have all := writes_append (writes_varint mapPairArity) (writes_append h h')
  unfold Encoding.pair
  cases front : key entry.1 <;> rw [front] at all
  · exact all
  · cases back : value entry.2 <;> rw [back] at all <;> exact all

end Script

/-! The induction follows the nesting of types: one case a constructor. -/

mutual

theorem WireType.writes_scriptAt (visit : Visit) (place : List Nat) :
    (t : WireType) → (value : t.Carrier) →
      Script.Writes (t.scriptAt visit place value) (t.encode value)
  | .int _, _ => Script.writes_write _
  | .float _, _ => Script.writes_write _
  | .bool, _ => Script.writes_put _
  | .varint, _ => Script.writes_varint _
  | .string, s => Script.writes_text s
  | .name, n => Script.writes_text n.text
  | .checksum kind, _ =>
    Script.writes_append (Script.writes_varint kind.bytes) (Script.writes_write _)
  | .vec item, _ =>
    Script.writes_counted (fun i x => item.writes_scriptAt visit (i :: place) x) _
  | .array item _, _ =>
    Script.writes_counted (fun i x => item.writes_scriptAt visit (i :: place) x) _
  | .set .byValue item, _ =>
    Script.writes_counted (fun i x => item.writes_scriptAt visit (i :: place) x) _
  | .set .byBytes item, items =>
    Script.writes_sorted (fun i x => item.writes_scriptAt visit (i :: place) x)
      (visit.perm place items.keys)
  | .map .byValue key value, _ =>
    Script.writes_counted (fun i entry => Script.writes_pair
      (key.writes_scriptAt visit (0 :: i :: place) entry.1)
      (value.writes_scriptAt visit (1 :: i :: place) entry.2)) _
  | .map .byBytes key value, pairs =>
    Script.writes_sorted (fun i entry => Script.writes_pair
      (key.writes_scriptAt visit (0 :: i :: place) entry.1)
      (value.writes_scriptAt visit (1 :: i :: place) entry.2)) (visit.perm place pairs.entries)
  | .tuple row, items => Script.writes_sized (row.writes_scriptAt visit place 0 items)
  | .enum _, _ => Script.writes_write _
  | .record _ _ fields, values => Script.writes_sized (fields.writes_scriptAt visit place 0 values)

theorem WireRow.writes_scriptAt (visit : Visit) (place : List Nat) (index : Nat) :
    (r : WireRow) → (values : r.Carrier) →
      Script.Writes (r.scriptAt visit place index values) (r.encode values)
  | .nil, () => ⟨Script.plain_nil, rfl⟩
  | .cons _ type rest, (x, more) =>
    Script.writes_append (type.writes_scriptAt visit (index :: place) x)
      (rest.writes_scriptAt visit place (index + 1) more)

end

namespace Visit

def reversed : Visit :=
  ⟨fun _ _ entries => entries.reverse, fun _ _ entries => entries.reverse_perm⟩

end Visit

namespace WireType

/-- Packing, with an order of its own for the hashed entries in each of the two passes. -/
def packVisiting (measured written : Visit) (t : WireType) (value : t.Carrier) :
    Except CodecError Bytes :=
  packTwice (t.scriptAt measured [] value) (t.scriptAt written [] value)

theorem packVisiting_eq_encode (measured written : Visit) (t : WireType) (value : t.Carrier) :
    t.packVisiting measured written value = t.encode value := by
  have first := t.writes_scriptAt measured [] value
  have second := t.writes_scriptAt written [] value
  unfold packVisiting
  rw [Script.packTwice_eq_output first.plain second.plain (first.output.trans second.output.symm),
    second.output]

theorem pack_eq_packVisiting (t : WireType) (value : t.Carrier) :
    t.pack value = t.packVisiting .stored .stored value := rfl

theorem pack_eq_encode (t : WireType) (value : t.Carrier) : t.pack value = t.encode value := by
  rw [pack_eq_packVisiting, packVisiting_eq_encode]

def packSizeVisiting (visit : Visit) (t : WireType) (value : t.Carrier) : Except CodecError Nat :=
  (t.scriptAt visit [] value).measure

theorem packSizeVisiting_eq_encode (visit : Visit) (t : WireType) (value : t.Carrier) :
    t.packSizeVisiting visit value = (t.encode value).map List.length := by
  have written := t.writes_scriptAt visit [] value
  unfold packSizeVisiting
  rw [Script.measure_eq_output written.plain, written.output]

theorem packSize_eq_encode (t : WireType) (value : t.Carrier) :
    t.packSize value = (t.encode value).map List.length :=
  packSizeVisiting_eq_encode .stored t value

end WireType
end ContractStore
