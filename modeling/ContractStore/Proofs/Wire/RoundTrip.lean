import ContractStore.Proofs.SortedMap
import ContractStore.Proofs.Wire.Encode
import ContractStore.Proofs.Wire.Varint

/-!
Decoding undoes encoding. What `encode` gives for a value is read back as that value, and not a byte
past it is touched (`reads_decode`). Hashed entries come back in the order of their bytes; the map
that is rebuilt from them does not depend on it.
-/
namespace ContractStore

namespace Encoding
variable {α β : Type}

theorem count_eq_ok {length : Nat} {bytes : Bytes} (h : count length = .ok bytes) :
    length < Varint.bound ∧ bytes = Varint.encode length := by
  unfold count at h
  cases counted : Varint.countOf length with
  | error cause => simp [counted, Except.map] at h
  | ok n =>
    obtain ⟨small, rfl⟩ := Varint.countOf_eq_ok counted
    simp only [counted, Except.map, Except.ok.injEq] at h
    exact ⟨small, h.symm⟩

theorem text_eq_ok {s : String} {bytes : Bytes} (h : text s = .ok bytes) :
    (Bytes.ofString s).length < Varint.bound ∧
      bytes = Varint.encode (Bytes.ofString s).length ++ Bytes.ofString s := by
  unfold text at h
  cases front : count (Bytes.ofString s).length with
  | error cause => simp [front, Except.map] at h
  | ok counted =>
    obtain ⟨small, rfl⟩ := count_eq_ok front
    simp only [front, Except.map, Except.ok.injEq] at h
    exact ⟨small, h.symm⟩

theorem sized_eq_ok {size : Nat} {fields : Except CodecError Bytes} {bytes : Bytes}
    (h : sized size fields = .ok bytes) :
    ∃ back, size < Varint.bound ∧ fields = .ok back ∧ bytes = Varint.encode size ++ back := by
  obtain ⟨front, counted, h⟩ := bind_eq_ok h
  obtain ⟨back, written, h⟩ := bind_eq_ok h
  obtain ⟨small, rfl⟩ := count_eq_ok counted
  cases h
  exact ⟨back, small, written, rfl⟩

theorem pair_eq_ok {key : α → Except CodecError Bytes} {value : β → Except CodecError Bytes}
    {entry : α × β} {bytes : Bytes} (h : pair key value entry = .ok bytes) :
    ∃ k v, key entry.1 = .ok k ∧ value entry.2 = .ok v ∧
      bytes = Varint.encode mapPairArity ++ (k ++ v) := by
  obtain ⟨k, first, h⟩ := bind_eq_ok h
  obtain ⟨v, second, h⟩ := bind_eq_ok h
  cases h
  exact ⟨k, v, first, second, rfl⟩

theorem counted_eq_ok {item : α → Except CodecError Bytes} {items : List α} {bytes : Bytes}
    (h : counted item items = .ok bytes) :
    ∃ packed, items.length < Varint.bound ∧ items.mapM item = .ok packed ∧
      bytes = Varint.encode items.length ++ packed.flatten := by
  obtain ⟨front, count, h⟩ := bind_eq_ok h
  obtain ⟨packed, written, h⟩ := bind_eq_ok h
  obtain ⟨small, rfl⟩ := count_eq_ok count
  cases h
  exact ⟨packed, small, written, rfl⟩

theorem sorted_eq_ok {item : α → Except CodecError Bytes} {items : List α} {bytes : Bytes}
    (h : sorted item items = .ok bytes) :
    ∃ arranged : List α, arranged.Perm items ∧ counted item arranged = .ok bytes := by
  obtain ⟨packed, written, h⟩ := bind_eq_ok h
  obtain ⟨front, count, h⟩ := bind_eq_ok h
  cases h
  -- sorting the packed forms arranges the items that they are of
  have images := (List.mergeSort_perm packed Script.bytesLE).map (Except.ok (ε := CodecError))
  rw [← mapM_eq_ok_iff.1 written] at images
  obtain ⟨arranged, perm, found⟩ := perm_of_perm_map images
  have written := mapM_eq_ok_iff.2 found
  refine ⟨arranged, perm, ?_⟩
  unfold counted
  rw [written, ← length_of_mapM written, List.length_mergeSort, count]
  rfl

theorem readsAll_of_mapM {reader : Reader α} {item : α → Except CodecError Bytes}
    (each : ∀ x bytes, item x = .ok bytes → Reader.Reads reader bytes x) {items : List α}
    {packed : List Bytes} (h : items.mapM item = .ok packed) :
    Reader.ReadsAll reader packed.flatten items := by
  have images := mapM_eq_ok_iff.1 h
  clear h
  induction items generalizing packed with
  | nil =>
    cases List.map_eq_nil_iff.1 images.symm
    exact .nil
  | cons x rest ih =>
    obtain ⟨piece, pieces, rfl, first, later⟩ := List.map_eq_cons_iff.1 images.symm
    exact .cons (each x piece first.symm) (ih later.symm)

theorem reads_counted {reader : Reader α} {item : α → Except CodecError Bytes}
    (each : ∀ x bytes, item x = .ok bytes → Reader.Reads reader bytes x) {items : List α}
    {bytes : Bytes} (h : counted item items = .ok bytes) :
    Reader.Reads (Reader.counted reader) bytes items := by
  obtain ⟨packed, small, written, rfl⟩ := counted_eq_ok h
  exact Reader.reads_counted small (readsAll_of_mapM each written)

theorem reads_pair {key : Reader α} {value : Reader β} {first : α → Except CodecError Bytes}
    {second : β → Except CodecError Bytes}
    (left : ∀ x bytes, first x = .ok bytes → Reader.Reads key bytes x)
    (right : ∀ y bytes, second y = .ok bytes → Reader.Reads value bytes y) (entry : α × β)
    (bytes : Bytes) (h : pair first second entry = .ok bytes) :
    Reader.Reads (do
      Reader.expectCount "map pair" 2
      let k ← key
      let v ← value
      return (k, v)) bytes entry := by
  obtain ⟨k, v, packedKey, packedValue, rfl⟩ := pair_eq_ok h
  have arity : Reader.Reads (Reader.expectCount "map pair" mapPairArity) _ () :=
    Reader.reads_expectCount "map pair" (by decide)
  refine Reader.reads_bind arity (Reader.reads_bind (left _ k packedKey) ?_)
  exact Reader.reads_map (fun v => (entry.1, v)) (right _ v packedValue)

theorem reads_set {cmp : α → α → Ordering} [Std.TransCmp cmp] [Std.LawfulEqCmp cmp]
    {reader : Reader α} {item : α → Except CodecError Bytes}
    (each : ∀ x bytes, item x = .ok bytes → Reader.Reads reader bytes x)
    {elements : SortedMap cmp Unit} {items : List α} (perm : items.Perm elements.keys)
    {bytes : Bytes} (h : counted item items = .ok bytes) :
    Reader.Reads (do
      let items ← Reader.counted reader
      return (SortedMap.ofList (items.map fun x => (x, ())) : SortedMap cmp Unit)) bytes
      elements := by
  have rebuilt := SortedMap.ofList_of_perm_keys perm
  have mapped := Reader.reads_map
    (fun items => (SortedMap.ofList (items.map fun x => (x, ())) : SortedMap cmp Unit))
    (reads_counted each h)
  rwa [rebuilt] at mapped

theorem reads_map {cmp : α → α → Ordering} [Std.TransCmp cmp] [Std.LawfulEqCmp cmp]
    {reader : Reader (α × β)} {item : α × β → Except CodecError Bytes}
    (each : ∀ x bytes, item x = .ok bytes → Reader.Reads reader bytes x)
    {pairs : SortedMap cmp β} {items : List (α × β)} (perm : items.Perm pairs.entries)
    {bytes : Bytes} (h : counted item items = .ok bytes) :
    Reader.Reads (do
      let items ← Reader.counted reader
      return (SortedMap.ofList items : SortedMap cmp β)) bytes pairs := by
  have mapped := Reader.reads_map (fun items => (SortedMap.ofList items : SortedMap cmp β))
    (reads_counted each h)
  rwa [SortedMap.ofList_of_perm perm] at mapped

end Encoding

namespace EnumDecl

theorem ofPattern?_pattern (e : EnumDecl) (v : e.Variant) :
    e.ofPattern? (e.pattern v) = some v := by
  unfold ofPattern?
  cases found : (List.finRange e.variants.length).find? fun w => e.pattern w == e.pattern v with
  | none =>
    have missing := List.find?_eq_none.1 found v (List.mem_finRange v)
    simp at missing
  | some w =>
    have same := List.find?_some found
    rw [e.pattern_injective (eq_of_beq same)]

end EnumDecl

mutual

theorem WireType.reads_decode : (t : WireType) → (value : t.Carrier) → (bytes : Bytes) →
    t.encode value = .ok bytes → Reader.Reads t.decode bytes value
  | .int kind, pattern, _, h => by
    cases h
    exact Reader.reads_bits pattern
  | .float kind, pattern, _, h => by
    cases h
    exact Reader.reads_bits pattern
  | .bool, (b : Bool), _, h => by
    cases h
    cases b <;> exact Reader.reads_map (· != 0) (Reader.reads_get _)
  | .varint, (n : BitVec 32), _, h => by
    cases h
    have number : BitVec.ofNat 32 n.toNat = n := by
      rw [BitVec.ofNat_toNat, BitVec.setWidth_eq]
    have mapped := Reader.reads_map (BitVec.ofNat 32) (Varint.reads_encode n.isLt)
    rwa [number] at mapped
  | .string, s, _, h => by
    obtain ⟨small, rfl⟩ := Encoding.text_eq_ok h
    exact Reader.reads_text s small
  | .name, n, _, h => by
    obtain ⟨small, rfl⟩ := Encoding.text_eq_ok h
    exact Reader.reads_map Name.mk (Reader.reads_text n.text small)
  | .checksum kind, bytes, _, h => by
    cases h
    refine Reader.reads_bind (Reader.reads_expectCount kind.name (by cases kind <;> decide)) ?_
    exact Reader.reads_raw bytes
  | .vec item, _, _, h => Encoding.reads_counted item.reads_decode h
  | .array item size, items, _, h => by
    obtain ⟨packed, small, written, rfl⟩ := Encoding.counted_eq_ok h
    rw [items.2] at small ⊢
    exact Reader.reads_bind (Reader.reads_expectSize "fixed array" small)
      (Reader.reads_replicated items (Encoding.readsAll_of_mapM item.reads_decode written))
  | .set .byValue item, items, _, h =>
    Encoding.reads_set item.reads_decode (.refl _) h
  | .set .byBytes item, items, _, h => by
    obtain ⟨arranged, perm, written⟩ := Encoding.sorted_eq_ok h
    exact Encoding.reads_set item.reads_decode perm written
  | .map .byValue key value, pairs, _, h =>
    Encoding.reads_map (Encoding.reads_pair key.reads_decode value.reads_decode) (.refl _) h
  | .map .byBytes key value, pairs, _, h => by
    obtain ⟨arranged, perm, written⟩ := Encoding.sorted_eq_ok h
    exact Encoding.reads_map (Encoding.reads_pair key.reads_decode value.reads_decode) perm written
  | .tuple row, items, _, h => by
    obtain ⟨back, small, written, rfl⟩ := Encoding.sized_eq_ok h
    exact Reader.reads_bind (Reader.reads_expectSize "tuple" small)
      (row.reads_decode items back written)
  | .enum decl, v, _, h => by
    cases h
    have found := decl.ofPattern?_pattern v
    have taken := Reader.reads_bits (decl.pattern v)
    intro rest
    simp only [WireType.decode, bind, EStateM.bind, taken rest, found]
    rfl
  | .record typeName hasBase fields, values, _, h => by
    obtain ⟨back, small, written, rfl⟩ := Encoding.sized_eq_ok h
    exact Reader.reads_bind (Reader.reads_expectSize typeName small)
      (fields.reads_decode values back written)

theorem WireRow.reads_decode : (r : WireRow) → (values : r.Carrier) → (bytes : Bytes) →
    r.encode values = .ok bytes → Reader.Reads r.decode bytes values
  | .nil, (), _, h => by
    cases h
    exact Reader.reads_pure ()
  | .cons _ type rest, (x, more), _, h => by
    obtain ⟨front, first, h⟩ := bind_eq_ok h
    obtain ⟨back, later, h⟩ := bind_eq_ok h
    cases h
    refine Reader.reads_bind (type.reads_decode x front first) ?_
    exact Reader.reads_map (fun more => (x, more)) (rest.reads_decode more back later)

end

theorem ReadBuffer.run_of_reads {α : Type} {reader : Reader α} {bytes : Bytes} {value : α}
    (h : Reader.Reads reader bytes value) (rest : Bytes) :
    (ReadBuffer.ofBytes (bytes ++ rest)).run reader =
      (.ok value,
        ⟨bytes ++ rest, bytes.length, (List.sublist_append_left bytes rest).length_le⟩) := by
  have taken := h rest
  have consumed : (bytes ++ rest).length - rest.length = bytes.length := by
    rw [List.length_append]
    omega
  unfold ReadBuffer.run ReadBuffer.unread ReadBuffer.ofBytes
  rw [List.drop_zero, taken]
  simp only [consumed]

namespace WireType

theorem unpack_of_encode {t : WireType} {value : t.Carrier} {bytes : Bytes}
    (h : t.encode value = .ok bytes) : t.unpack bytes = .ok value :=
  Reader.whole_of_reads (t.reads_decode value bytes h)

theorem encode_injective {t : WireType} {value other : t.Carrier} {bytes : Bytes}
    (h : t.encode value = .ok bytes) (h' : t.encode other = .ok bytes) : value = other :=
  Except.ok.inj ((unpack_of_encode h).symm.trans (unpack_of_encode h'))

/-- Whatever stands behind a packed value, reading gives the value and stops at the end of it. -/
theorem read_of_packed (measured written : Visit) (t : WireType) (value : t.Carrier)
    {bytes : Bytes} (packed : t.packVisiting measured written value = .ok bytes) (rest : Bytes) :
    (ReadBuffer.ofBytes (bytes ++ rest)).run t.decode =
        (.ok value,
          ⟨bytes ++ rest, bytes.length, (List.sublist_append_left bytes rest).length_le⟩) ∧
      t.unpack bytes = .ok value := by
  rw [packVisiting_eq_encode] at packed
  have reads := t.reads_decode value bytes packed
  exact ⟨ReadBuffer.run_of_reads reads rest, Reader.whole_of_reads reads⟩

/-- A record with a base and a hashed map, visited in ascending and then in descending order. -/
theorem read_of_packed_record :
    let base : WireType := .record "Base" false (.cons "id" (.int .u16) .nil)
    let tags : WireType := .map .byBytes .string (.vec .bool)
    let t : WireType := .record "Row" true (.cons "base" base (.cons "tags" tags .nil))
    let value : t.Carrier := ((258#16, ()), SortedMap.ofList [("b", [true]), ("", [])], ())
    let bytes : Bytes := [2, 1, 2, 1, 2, 2, 0, 0, 2, 1, 98, 1, 1]
    t.packVisiting .stored .reversed value = .ok bytes ∧
      (ReadBuffer.ofBytes (bytes ++ [7])).run t.decode =
          (.ok value,
            ⟨bytes ++ [7], bytes.length, (List.sublist_append_left bytes [7]).length_le⟩) ∧
        t.unpack bytes = .ok value := by
  intro base tags t value bytes
  -- the entries come in the order of their keys; here that is the order of their bytes as well
  have arranged : [[2, 0, 0], [2, 1, 98, 1, 1]].mergeSort Script.bytesLE =
      [[2, 0, 0], [2, 1, 98, 1, 1]] := List.mergeSort_of_pairwise (by decide +kernel)
  have tagged : tags.encode value.2.1 = .ok [2, 2, 0, 0, 2, 1, 98, 1, 1] := by
    have pieces : [("", []), ("b", [true])].mapM
        (Encoding.pair (encode .string) (encode (.vec .bool))) =
          .ok [[2, 0, 0], [2, 1, 98, 1, 1]] := rfl
    refine (congrArg (· >>= _) pieces).trans ?_
    exact congrArg (fun sorted => Except.ok ([2] ++ sorted.flatten)) arranged
  have packed : t.packVisiting .stored .reversed value = .ok bytes := by
    rw [packVisiting_eq_encode]
    exact congrArg (fun tail => (do
      let back ← tail
      return [2, 1, 2, 1] ++ back ++ [] : Except CodecError Bytes)) tagged
  exact ⟨packed, read_of_packed .stored .reversed t value packed [7]⟩

end WireType
end ContractStore
