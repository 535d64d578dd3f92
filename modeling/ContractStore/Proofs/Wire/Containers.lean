import Mathlib
import ContractStore.Proofs.Wire.Repack

/-!
Sets and maps from lists. A container is read from any list of entries behind their number, with
repetitions and in any order: a set is what is listed, and a map has under each key the value that
is listed last (`last_pair_wins`). What order the pairs of different keys come in does not show
when the container is packed again, whichever way its own entries are arranged.
-/
namespace ContractStore

namespace SortedMap

/-- The same pairs, where those of one key come in the same order. -/
structure Rearranged {κ ν : Type} (cmp : κ → κ → Ordering) (pairs pairs' : List (κ × ν)) :
    Prop where
  perm : pairs'.Perm pairs
  within (k : κ) : under cmp k pairs' = under cmp k pairs

theorem rearranged_swap {κ ν : Type} {cmp : κ → κ → Ordering} [Std.LawfulEqCmp cmp] {a b : κ × ν}
    (apart : a.1 ≠ b.1) (rest : List (κ × ν)) :
    Rearranged cmp (a :: b :: rest) (b :: a :: rest) := by
  refine ⟨.swap a b rest, fun k => ?_⟩
  unfold under
  by_cases here : cmp k a.1 = .eq
  · have elsewhere : cmp k b.1 ≠ .eq := fun there =>
      apart ((Std.LawfulEqCmp.eq_of_compare here).symm.trans (Std.LawfulEqCmp.eq_of_compare there))
    simp [here, elsewhere]
  · by_cases there : cmp k b.1 = .eq <;> simp [here, there]

end SortedMap

namespace Encoding
variable {α β : Type}

theorem counted_of_each {item : α → Except CodecError Bytes} {items : List α}
    (short : items.length < Varint.bound) (each : ∀ x ∈ items, ∃ bytes, item x = .ok bytes) :
    ∃ bytes, counted item items = .ok bytes := by
  unfold counted
  rw [count_of_small short]
  cases packed : items.mapM item with
  | ok pieces => exact ⟨_, rfl⟩
  | error cause =>
    obtain ⟨x, mem, failed⟩ := mapM_eq_error packed
    obtain ⟨bytes, written⟩ := each x mem
    cases failed.symm.trans written

theorem pair_of_each {key : α → Except CodecError Bytes} {value : β → Except CodecError Bytes}
    {entry : α × β} (first : ∃ bytes, key entry.1 = .ok bytes)
    (second : ∃ bytes, value entry.2 = .ok bytes) :
    ∃ bytes, pair key value entry = .ok bytes := by
  obtain ⟨k, packedKey⟩ := first
  obtain ⟨v, packedValue⟩ := second
  unfold pair
  rw [packedKey, packedValue]
  exact ⟨_, rfl⟩

end Encoding

def Domain.gather (key : Domain) {ν : Type} (pairs : List (key.Carrier × ν)) :
    SortedMap key.cmp ν :=
  SortedMap.ofList pairs

namespace WireType

/-- The bytes that list the pairs one after another: their number, and each behind a two. -/
def listPairs (key value : WireType) (pairs : List (key.Carrier × value.Carrier)) :
    Except CodecError Bytes :=
  Encoding.counted (Encoding.pair key.pack value.pack) pairs

def listItems (item : WireType) (items : List item.Carrier) : Except CodecError Bytes :=
  Encoding.counted item.pack items

def gather (order : EntryOrder) (key value : WireType)
    (pairs : List (key.Carrier × value.Carrier)) : (map order key value).Carrier :=
  key.domain.gather pairs

def collect (order : EntryOrder) (item : WireType) (items : List item.Carrier) :
    (set order item).Carrier :=
  item.domain.gather (items.map fun x => (x, ()))

section Lists
variable {order : EntryOrder} {key value item : WireType}
  {pairs pairs' : List (key.Carrier × value.Carrier)} {items items' : List item.Carrier}
  {bytes : Bytes}

theorem find?_gather (pairs : List (key.Carrier × value.Carrier)) (k : key.Carrier) :
    SortedMap.find? (gather order key value pairs) k = SortedMap.lastListed key.cmp pairs k :=
  SortedMap.find?_ofList pairs k

theorem gather_of_rearranged (rearranged : SortedMap.Rearranged key.cmp pairs pairs') :
    gather order key value pairs' = gather order key value pairs :=
  SortedMap.ofList_eq_of_under rearranged.within

theorem mem_collect (items : List item.Carrier) (x : item.Carrier) :
    x ∈ SortedMap.keys (collect order item items) ↔ x ∈ items := by
  have listed : (items.map fun x => (x, ())).map Prod.fst = items := by
    rw [List.map_map]
    exact List.map_id items
  have keys : x ∈ SortedMap.keys (collect order item items) ↔
      x ∈ (items.map fun x => (x, ())).map Prod.fst := SortedMap.mem_keys_ofList
  rw [keys, listed]

theorem collect_of_perm (perm : items'.Perm items) :
    collect order item items' = collect order item items := by
  refine SortedMap.ext_keys fun x => ?_
  exact (mem_collect items' x).trans (perm.mem_iff.trans (mem_collect items x).symm)

theorem listPairs_of_packs (short : pairs.length < Varint.bound)
    (packs : ∀ pair ∈ pairs, key.Packs pair.1 ∧ value.Packs pair.2) :
    ∃ bytes, listPairs key value pairs = .ok bytes := by
  refine Encoding.counted_of_each short fun pair mem => ?_
  obtain ⟨first, second⟩ := packs pair mem
  unfold Packs at first second
  rw [← pack_eq_encode] at first second
  exact Encoding.pair_of_each first second

theorem listPairs_eq_counted (pairs : List (key.Carrier × value.Carrier)) :
    listPairs key value pairs =
      Encoding.counted (Encoding.pair key.encode value.encode) pairs := by
  have packs (t : WireType) : t.pack = t.encode := funext t.pack_eq_encode
  unfold listPairs
  rw [packs key, packs value]

theorem reads_listPairs (listed : listPairs key value pairs = .ok bytes) :
    Reader.Reads (Reader.counted (do
      Reader.expectCount "map pair" 2
      let k ← key.decode
      let v ← value.decode
      return (k, v))) bytes pairs := by
  rw [listPairs_eq_counted] at listed
  exact Encoding.reads_counted (Encoding.reads_pair key.reads_decode value.reads_decode) listed

theorem unpack_listPairs (order : EntryOrder) (listed : listPairs key value pairs = .ok bytes) :
    (map order key value).unpack bytes = .ok (gather order key value pairs) :=
  Reader.whole_of_reads (Reader.reads_map (gather order key value) (reads_listPairs listed))

theorem listItems_of_packs (short : items.length < Varint.bound)
    (packs : ∀ x ∈ items, item.Packs x) : ∃ bytes, listItems item items = .ok bytes := by
  refine Encoding.counted_of_each short fun x mem => ?_
  rw [pack_eq_encode]
  exact packs x mem

theorem unpack_listItems (order : EntryOrder) (listed : listItems item items = .ok bytes) :
    (set order item).unpack bytes = .ok (collect order item items) := by
  have packs : item.pack = item.encode := funext item.pack_eq_encode
  unfold listItems at listed
  rw [packs] at listed
  have read := Encoding.reads_counted item.reads_decode listed
  exact Reader.whole_of_reads (Reader.reads_map (collect order item) read)

end Lists

/-- Listed pairs are read as the map that has under each key the value listed last, and listed items
as the set of them. The map or set packs to the same bytes in whatever order its own entries are
visited, and so does what is read from the list in another order, where pairs of one key keep
theirs. -/
theorem last_pair_wins (order : EntryOrder) :
    (∀ (key value : WireType) (pairs : List (key.Carrier × value.Carrier)),
      pairs.length < Varint.bound → (∀ pair ∈ pairs, key.Packs pair.1 ∧ value.Packs pair.2) →
        ∃ bytes m packed, listPairs key value pairs = .ok bytes ∧
          (map order key value).unpack bytes = .ok m ∧
            (∀ k, m.find? k = SortedMap.lastListed key.cmp pairs k) ∧
              (∀ measured written,
                (map order key value).packVisiting measured written m = .ok packed) ∧
                ∀ pairs', SortedMap.Rearranged key.cmp pairs pairs' →
                  ∃ bytes', listPairs key value pairs' = .ok bytes' ∧
                    (map order key value).repack bytes' = .ok packed) ∧
      ∀ (item : WireType) (items : List item.Carrier),
        items.length < Varint.bound → (∀ x ∈ items, item.Packs x) →
          ∃ bytes s packed, listItems item items = .ok bytes ∧
            (set order item).unpack bytes = .ok s ∧ (∀ x, x ∈ s.keys ↔ x ∈ items) ∧
              (∀ measured written,
                (set order item).packVisiting measured written s = .ok packed) ∧
                ∀ items', items'.Perm items →
                  ∃ bytes', listItems item items' = .ok bytes' ∧
                    (set order item).repack bytes' = .ok packed := by
  constructor
  · intro key value pairs short packs
    obtain ⟨bytes, listed⟩ := listPairs_of_packs short packs
    have unpacked := unpack_listPairs order listed
    obtain ⟨packed, written, _, _, again⟩ := canonical_of_unpack unpacked
    refine ⟨bytes, _, packed, listed, unpacked, find?_gather pairs, written, ?_⟩
    intro pairs' rearranged
    have short' : pairs'.length < Varint.bound := by
      rw [rearranged.perm.length_eq]
      exact short
    obtain ⟨bytes', listed'⟩ := listPairs_of_packs short' fun pair mem =>
      packs pair (rearranged.perm.mem_iff.1 mem)
    refine ⟨bytes', listed', again bytes' ?_⟩
    rw [unpack_listPairs order listed', gather_of_rearranged rearranged]
  · intro item items short packs
    obtain ⟨bytes, listed⟩ := listItems_of_packs short packs
    have unpacked := unpack_listItems order listed
    obtain ⟨packed, written, _, _, again⟩ := canonical_of_unpack unpacked
    refine ⟨bytes, _, packed, listed, unpacked, mem_collect items, written, ?_⟩
    intro items' perm
    have short' : items'.length < Varint.bound := by
      rw [perm.length_eq]
      exact short
    obtain ⟨bytes', listed'⟩ := listItems_of_packs short' fun x mem =>
      packs x (perm.mem_iff.1 mem)
    refine ⟨bytes', listed', again bytes' ?_⟩
    rw [unpack_listItems order listed', collect_of_perm perm]

/-- A pair that is replaced across another one, whose key is above it as a number and below it as
bytes, and a set with an element on both sides of another. -/
theorem pairs_are_replaced_at_a_distance :
    let key : WireType := .int .u16
    let pairs : List (key.Carrier × WireType.bool.Carrier) :=
      [(1#16, true), (256#16, true), (1#16, false)]
    let moved : List (key.Carrier × WireType.bool.Carrier) :=
      [(256#16, true), (1#16, true), (1#16, false)]
    let packed : Bytes := [2, 2, 0, 1, 1, 2, 1, 0, 0]
    pairs.length < Varint.bound ∧ SortedMap.Rearranged key.cmp pairs moved ∧
      (∃ m, (map .byBytes key .bool).unpack [3, 2, 1, 0, 1, 2, 0, 1, 1, 2, 1, 0, 0] = .ok m ∧
        m.find? 1#16 = some false ∧ m.find? 256#16 = some true) ∧
        (map .byBytes key .bool).repack [3, 2, 1, 0, 1, 2, 0, 1, 1, 2, 1, 0, 0] = .ok packed ∧
          (map .byBytes key .bool).repack [3, 2, 0, 1, 1, 2, 1, 0, 1, 2, 1, 0, 0] = .ok packed ∧
            ∃ s, (set .byBytes key).unpack [3, 5, 0, 0, 1, 5, 0] = .ok s ∧
              ∀ x, x ∈ s.keys ↔ x ∈ [5#16, 256#16, 5#16] := by
  intro key pairs moved packed
  have short : pairs.length < Varint.bound := by decide
  have packs : ∀ pair ∈ pairs, key.Packs pair.1 ∧ WireType.bool.Packs pair.2 :=
    fun pair _ => ⟨⟨_, rfl⟩, ⟨_, rfl⟩⟩
  have rearranged : SortedMap.Rearranged key.cmp pairs moved :=
    SortedMap.rearranged_swap (by decide : (1#16 : BitVec 16) ≠ 256#16) _
  obtain ⟨folds, collects⟩ := last_pair_wins .byBytes
  obtain ⟨bytes, m, once, listed, unpacked, last, -, others⟩ := folds key .bool pairs short packs
  obtain ⟨bytes', listed', again⟩ := others moved rearranged
  have first : listPairs key .bool pairs = .ok [3, 2, 1, 0, 1, 2, 0, 1, 1, 2, 1, 0, 0] := by cbv
  have second : listPairs key .bool moved = .ok [3, 2, 0, 1, 1, 2, 1, 0, 1, 2, 1, 0, 0] := by cbv
  cases first.symm.trans listed
  cases second.symm.trans listed'
  have repacked : (map .byBytes key .bool).repack [3, 2, 0, 1, 1, 2, 1, 0, 1, 2, 1, 0, 0] =
      .ok packed := by cbv
  cases repacked.symm.trans again
  obtain ⟨bytes₀, relisted, same⟩ := others pairs ⟨.refl _, fun _ => rfl⟩
  cases first.symm.trans relisted
  obtain ⟨_, s, _, items, read, members, -⟩ :=
    collects key [5#16, 256#16, 5#16] (by decide) fun x _ => ⟨_, rfl⟩
  have third : listItems key [5#16, 256#16, 5#16] = .ok [3, 5, 0, 0, 1, 5, 0] := by cbv
  cases third.symm.trans items
  refine ⟨short, rearranged, ⟨m, unpacked, last 1#16, last 256#16⟩, same, again, s, read, members⟩

end WireType
end ContractStore
