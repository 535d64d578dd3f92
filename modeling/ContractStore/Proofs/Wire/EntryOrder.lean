import Mathlib
import ContractStore.Proofs.Wire.Containers

/-!
The order of hashed entries. Whole pairs are sorted, but no packed key is the front of another one
of its type, so two pairs are told apart inside their keys and no byte of a value is looked at.
Sorting pairs is sorting by key (`packVisiting_eq_listPairs`), and a value under a key that is there
already changes in place (`hashed_entries_are_ordered_by_key`).
-/
namespace ContractStore

namespace Bytes

/-- Strings that part before either ends are ordered where they part. -/
theorem compare_append {a b : Bytes} (front : ¬ a <+: b) (front' : ¬ b <+: a) (u v : Bytes) :
    compare (a ++ u) (b ++ v) = compare a b := by
  induction a generalizing b with
  | nil => exact absurd List.nil_prefix front
  | cons x a ih =>
    cases b with
    | nil => exact absurd List.nil_prefix front'
    | cons y b =>
      rw [List.cons_append, List.cons_append, List.compare_cons_cons, List.compare_cons_cons]
      cases order : compare x y with
      | lt => rfl
      | gt => rfl
      | eq =>
        cases Std.LawfulEqCmp.eq_of_compare order
        rw [List.cons_prefix_cons] at front front'
        rw [ih (fun h => front ⟨rfl, h⟩) fun h => front' ⟨rfl, h⟩]

theorem compare_append_left (front a b : Bytes) :
    compare (front ++ a) (front ++ b) = compare a b := by
  induction front with
  | nil => rfl
  | cons x front ih =>
    have self : compare x x = .eq := Std.ReflCmp.compare_self
    rw [List.cons_append, List.cons_append, List.compare_cons_cons, self, ih]
    rfl

end Bytes

namespace Encoding
variable {α : Type} {item : α → Except CodecError Bytes} {items arranged : List α}

theorem sorted_eq_counted (perm : arranged.Perm items)
    (ascends : ∀ pieces, arranged.mapM item = .ok pieces →
      pieces.Pairwise fun a b => Script.bytesLE a b = true)
    (overflow : ∀ x cause, item x = .error cause → cause = .varintOverflow) :
    sorted item items = counted item arranged := by
  cases packed : arranged.mapM item with
  | ok pieces =>
    obtain ⟨pieces', packed', same⟩ := mapM_perm perm.symm packed
    have unique : pieces'.mergeSort Script.bytesLE = pieces := by
      rw [mergeSort_bytesLE_of_perm same, List.mergeSort_of_pairwise (ascends pieces packed)]
    have length : pieces'.length = arranged.length := by
      rw [same.length_eq, length_of_mapM packed]
    unfold sorted counted
    rw [packed, packed']
    simp only [bind, Except.bind]
    rw [unique, length]
  | error cause =>
    have large {xs : List α} {cause : CodecError} (failed : xs.mapM item = .error cause) :
        cause = .varintOverflow := by
      obtain ⟨x, _, failed⟩ := mapM_eq_error failed
      exact overflow x cause failed
    cases packed' : items.mapM item with
    | ok pieces =>
      obtain ⟨_, found, _⟩ := mapM_perm perm packed'
      cases found.symm.trans packed
    | error cause' =>
      unfold sorted counted
      rw [packed, packed', large packed, large packed']
      cases front : count arranged.length with
      | ok counted => rfl
      | error cause =>
        rw [count_eq_error front]
        rfl

end Encoding

namespace WireType

/-- No packed value is a proper front of another one. -/
theorem eq_of_encode_front {t : WireType} {x y : t.Carrier} {a b : Bytes}
    (h : t.encode x = .ok a) (h' : t.encode y = .ok b) (front : a <+: b) : x = y := by
  obtain ⟨more, rfl⟩ := front
  have whole : a ++ more = (a ++ more) ++ [] := (List.append_nil _).symm
  exact (Reader.eq_of_reads_append (t.reads_decode x a h) (t.reads_decode y _ h') whole).1

theorem compare_pair {key : WireType} {β : Type} {value : β → Except CodecError Bytes}
    {p q : key.Carrier × β} {a b : Bytes} (apart : p.1 ≠ q.1)
    (h : Encoding.pair key.encode value p = .ok a) (h' : Encoding.pair key.encode value q = .ok b) :
    ∃ x y, key.encode p.1 = .ok x ∧ key.encode q.1 = .ok y ∧ compare a b = compare x y := by
  obtain ⟨x, v, packed, -, rfl⟩ := Encoding.pair_eq_ok h
  obtain ⟨y, v', packed', -, rfl⟩ := Encoding.pair_eq_ok h'
  have front : ¬ x <+: y := fun front => apart (eq_of_encode_front packed packed' front)
  have front' : ¬ y <+: x := fun front => apart (eq_of_encode_front packed' packed front).symm
  refine ⟨x, y, packed, packed', ?_⟩
  rw [Bytes.compare_append_left, Bytes.compare_append front front']

def packed (t : WireType) (value : t.Carrier) : Bytes := (t.pack value).toOption.getD []

def byPackedKey (key : WireType) {ν : Type} (pairs : List (key.Carrier × ν)) :
    List (key.Carrier × ν) :=
  pairs.mergeSort fun a b => Script.bytesLE (key.packed a.1) (key.packed b.1)

/-- The packed keys ascend strictly, compared from the left byte by byte. -/
def KeysAscend (key : WireType) {ν : Type} (pairs : List (key.Carrier × ν)) : Prop :=
  pairs.Pairwise fun a b =>
    ∃ x y, key.pack a.1 = .ok x ∧ key.pack b.1 = .ok y ∧ compare x y = .lt

section Order
variable {key value : WireType} {ν : Type} {pairs : List (key.Carrier × ν)}

theorem byPackedKey_perm (pairs : List (key.Carrier × ν)) :
    (byPackedKey key pairs).Perm pairs :=
  List.mergeSort_perm pairs _

/-- Which values the pairs have plays no part in their order. -/
theorem byPackedKey_map {f : key.Carrier × ν → key.Carrier × ν} (keeps : ∀ p, (f p).1 = p.1) :
    byPackedKey key (pairs.map f) = (byPackedKey key pairs).map f := by
  unfold byPackedKey
  symm
  apply List.map_mergeSort
  intro a _ b _
  rw [keeps, keeps]

theorem packed_of_encode {t : WireType} {value : t.Carrier} {bytes : Bytes}
    (h : t.encode value = .ok bytes) : t.packed value = bytes := by
  unfold packed
  rw [pack_eq_encode, h]
  rfl

theorem compare_of_bytesLE {a b : Bytes} (below : Script.bytesLE a b = true) (apart : a ≠ b) :
    compare a b = .lt := by
  unfold Script.bytesLE at below
  cases order : compare a b with
  | lt => rfl
  | eq => exact absurd (Std.LawfulEqCmp.eq_of_compare order) apart
  | gt => simp [order] at below

theorem keysAscend_byPackedKey {f : ν → Except CodecError Bytes} {pieces : List Bytes}
    (packed : (byPackedKey key pairs).mapM (Encoding.pair key.encode f) = .ok pieces)
    (distinct : (pairs.map Prod.fst).Nodup) : KeysAscend key (byPackedKey key pairs) := by
  have perm := (byPackedKey_perm pairs).map Prod.fst
  have apart := List.pairwise_map.1 (perm.nodup_iff.2 distinct)
  have ascends := pairwise_mergeSort_bytesLE (fun pair => key.packed pair.1) pairs
  apply (apart.and ascends).imp_of_mem
  intro a b inside inside' both
  obtain ⟨differ, below⟩ := both
  obtain ⟨_, first⟩ := each_of_mapM packed inside
  obtain ⟨_, second⟩ := each_of_mapM packed inside'
  obtain ⟨x, _, packedKey, -⟩ := Encoding.pair_eq_ok first
  obtain ⟨y, _, packedKey', -⟩ := Encoding.pair_eq_ok second
  rw [packed_of_encode packedKey, packed_of_encode packedKey'] at below
  rw [← pack_eq_encode] at packedKey packedKey'
  refine ⟨x, y, packedKey, packedKey', compare_of_bytesLE below ?_⟩
  rintro rfl
  rw [pack_eq_encode] at packedKey packedKey'
  exact differ (encode_injective packedKey packedKey')

theorem pieces_ascend {f : ν → Except CodecError Bytes} {pieces : List Bytes}
    (ascend : KeysAscend key pairs) (packed : pairs.mapM (Encoding.pair key.encode f) = .ok pieces)
    (distinct : (pairs.map Prod.fst).Nodup) :
    pieces.Pairwise fun a b => Script.bytesLE a b = true := by
  have related := (List.pairwise_map.1 distinct).and ascend
  refine pairwise_of_mapM ?_ packed related
  intro p q a b first second both
  obtain ⟨apart, x, y, packedKey, packedKey', below⟩ := both
  rw [pack_eq_encode] at packedKey packedKey'
  obtain ⟨x', y', found, found', order⟩ := compare_pair apart first second
  cases packedKey.symm.trans found
  cases packedKey'.symm.trans found'
  simp [Script.bytesLE, order, below]

theorem overflow_of_pair {entry : key.Carrier × value.Carrier} {cause : CodecError}
    (h : Encoding.pair key.encode value.encode entry = .error cause) : cause = .varintOverflow := by
  have written := Script.writes_pair (key.writes_scriptAt .stored [] entry.1)
    (value.writes_scriptAt .stored [] entry.2)
  exact Script.error_of_output written.plain (written.output.trans h)

theorem packVisiting_eq_listPairs (measured written : Visit) (key value : WireType)
    (m : (map .byBytes key value).Carrier) :
    (map .byBytes key value).packVisiting measured written m =
      listPairs key value (byPackedKey key m.entries) := by
  have perm : (byPackedKey key m.entries).Perm m.entries := byPackedKey_perm _
  have distinct := (perm.map Prod.fst).nodup_iff.2 (SortedMap.nodup_keys m)
  rw [packVisiting_eq_encode, listPairs_eq_counted]
  apply Encoding.sorted_eq_counted perm
  · intro pieces packed
    exact pieces_ascend (keysAscend_byPackedKey packed (SortedMap.nodup_keys m)) packed distinct
  · intro entry cause
    exact overflow_of_pair

theorem eq_of_listPairs {pairs pairs' : List (key.Carrier × value.Carrier)} {bytes : Bytes}
    (h : listPairs key value pairs = .ok bytes) (h' : listPairs key value pairs' = .ok bytes) :
    pairs' = pairs := by
  have same : bytes ++ [] = bytes ++ [] := rfl
  exact (Reader.eq_of_reads_append (reads_listPairs h') (reads_listPairs h) same).1

end Order

/-- A hashed map packs to its pairs in the strictly ascending order of their packed keys, and to no
other list of pairs. A value under a key that is there is exchanged where it stands. -/
theorem hashed_entries_are_ordered_by_key (key value : WireType)
    (m : (map .byBytes key value).Carrier) :
    let pairs := byPackedKey key m.entries
    pairs.Perm m.entries ∧
      (∀ measured written,
        (map .byBytes key value).packVisiting measured written m = listPairs key value pairs) ∧
        (∀ bytes, listPairs key value pairs = .ok bytes →
          KeysAscend key pairs ∧
            ∀ pairs', listPairs key value pairs' = .ok bytes → pairs' = pairs) ∧
          ∀ k v, m.contains k = true → ∀ measured written,
            (map .byBytes key value).packVisiting measured written (m.insert k v) =
              listPairs key value (pairs.map (SortedMap.withValue key.cmp k v)) := by
  intro pairs
  constructor
  · exact byPackedKey_perm m.entries
  constructor
  · intro measured written
    exact packVisiting_eq_listPairs measured written key value m
  constructor
  · intro bytes listed
    constructor
    · rw [listPairs_eq_counted] at listed
      obtain ⟨pieces, -, packed, -⟩ := Encoding.counted_eq_ok listed
      exact keysAscend_byPackedKey packed (SortedMap.nodup_keys m)
    · intro pairs' listed'
      exact eq_of_listPairs listed listed'
  · intro k v found measured written
    have packs := packVisiting_eq_listPairs measured written key value (m.insert k v)
    rw [SortedMap.entries_insert_of_contains v found] at packs
    rw [packs, byPackedKey_map (SortedMap.fst_withValue k v)]

/-- Keys of different lengths, whose order as values is the other one, and a value between them
that changes from the least to the greatest. -/
theorem shorter_key_stays_in_front :
    let key : WireType := .vec (.int .u8)
    let t : WireType := .map .byBytes key (.int .u8)
    let m : t.Carrier := SortedMap.ofList [([1#8, 1#8], 7#8), ([2#8], 0#8)]
    let pairs : List (key.Carrier × BitVec 8) := [([2#8], 0#8), ([1#8, 1#8], 7#8)]
    let bytes : Bytes := [2, 2, 1, 2, 0, 2, 2, 1, 1, 7]
    m.keys = [[1#8, 1#8], [2#8]] ∧ byPackedKey key m.entries = pairs ∧
      t.packVisiting .stored .reversed m = .ok bytes ∧ KeysAscend key pairs ∧
        m.contains [2#8] = true ∧
          t.packVisiting .reversed .stored (m.insert [2#8] 255#8) =
            .ok [2, 2, 1, 2, 255, 2, 2, 1, 1, 7] := by
  intro key t m pairs bytes
  have arranged : byPackedKey key m.entries = pairs := by cbv
  have found : m.contains [2#8] = true := by cbv
  obtain ⟨-, packs, listed, changed⟩ := hashed_entries_are_ordered_by_key key (.int .u8) m
  rw [arranged] at packs listed changed
  have first : listPairs key (.int .u8) pairs = .ok bytes := by cbv
  have second : listPairs key (.int .u8) (pairs.map (SortedMap.withValue key.cmp [2#8] 255#8)) =
      .ok [2, 2, 1, 2, 255, 2, 2, 1, 1, 7] := by cbv
  refine ⟨by cbv, arranged, (packs _ _).trans first, (listed bytes first).1, found, ?_⟩
  exact (changed [2#8] 255#8 found _ _).trans second

end WireType

end ContractStore
