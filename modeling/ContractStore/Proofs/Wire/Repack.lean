import ContractStore.Proofs.Stream.Takes
import ContractStore.Proofs.Wire.RoundTrip

/-!
What was read can be written, in no more bytes than were read for it. Reading accepts a count in a
longer form, entries in any order and with repetitions; writing spends the shortest form of every
count, and a map that is rebuilt from pairs keeps a part of them (`WireType.takes_decode`).
-/
namespace ContractStore

namespace Encoding
variable {α β : Type}

def Within (result : Except CodecError Bytes) (n : Nat) : Prop :=
  ∃ bytes, result = .ok bytes ∧ bytes.length ≤ n

theorem Within.mono {result : Except CodecError Bytes} {n m : Nat} (h : Within result n)
    (le : n ≤ m) : Within result m := by
  obtain ⟨bytes, written, length⟩ := h
  exact ⟨bytes, written, by omega⟩

theorem mapM_within {item : α → Except CodecError Bytes} {items : List α} {n : Nat}
    (costs : Reader.Costs (fun x => Within (item x)) items n) :
    ∃ packed, items.mapM item = .ok packed ∧ packed.length = items.length ∧
      packed.flatten.length ≤ n := by
  induction costs with
  | nil => exact ⟨[], rfl, rfl, Nat.le_refl 0⟩
  | cons head tail ih =>
    obtain ⟨bytes, written, length⟩ := head
    obtain ⟨packed, all, same, length'⟩ := ih
    refine ⟨bytes :: packed, ?_, by rw [List.length_cons, same, List.length_cons], ?_⟩
    · rw [List.mapM_cons, written, all]
      rfl
    · rw [List.flatten_cons, List.length_append]
      omega

theorem counted_within {item : α → Except CodecError Bytes} {items : List α} {n : Nat}
    (costs : Reader.CostsCounted (fun x => Within (item x)) items n) :
    Within (counted item items) n := by
  obtain ⟨small, front, back, rfl, count, each⟩ := costs
  obtain ⟨packed, all, _, length⟩ := mapM_within each
  refine ⟨Varint.encode items.length ++ packed.flatten, ?_, ?_⟩
  · unfold counted
    rw [count_of_small small, all]
    rfl
  · rw [List.length_append]
    omega

theorem sorted_within {item : α → Except CodecError Bytes} {items : List α} {n : Nat}
    (costs : Reader.CostsCounted (fun x => Within (item x)) items n) :
    Within (sorted item items) n := by
  obtain ⟨small, front, back, rfl, count, each⟩ := costs
  obtain ⟨packed, all, same, length⟩ := mapM_within each
  -- the order of the entries has no part in their length
  have arranged : (packed.mergeSort Script.bytesLE).flatten.length = packed.flatten.length :=
    (List.mergeSort_perm packed Script.bytesLE).flatten.length_eq
  refine ⟨Varint.encode items.length ++ (packed.mergeSort Script.bytesLE).flatten, ?_, ?_⟩
  · unfold sorted
    rw [all]
    simp only [bind, Except.bind, same, count_of_small small]
    rfl
  · rw [List.length_append, arranged]
    omega

theorem sized_within {size front back : Nat} {fields : Except CodecError Bytes}
    (small : size < Varint.bound) (count : (Varint.encode size).length ≤ front)
    (h : Within fields back) : Within (sized size fields) (front + back) := by
  obtain ⟨bytes, rfl, length⟩ := h
  refine ⟨Varint.encode size ++ bytes, ?_, ?_⟩
  · unfold sized
    rw [count_of_small small]
    rfl
  · rw [List.length_append]
    omega

theorem sized_of_small {size : Nat} {fields : Except CodecError Bytes}
    (small : size < Varint.bound) (written : ∃ back, fields = .ok back) :
    ∃ bytes, sized size fields = .ok bytes := by
  obtain ⟨back, rfl⟩ := written
  have within : Within (.ok back) back.length := ⟨back, rfl, Nat.le_refl _⟩
  obtain ⟨bytes, written, _⟩ := sized_within small (Nat.le_refl _) within
  exact ⟨bytes, written⟩

theorem text_within {s : String} {front : Nat}
    (small : (Bytes.ofString s).length < Varint.bound)
    (count : (Varint.encode (Bytes.ofString s).length).length ≤ front) :
    Within (text s) (front + (Bytes.ofString s).length) := by
  refine ⟨_, text_of_fits small, ?_⟩
  rw [List.length_append]
  omega

theorem pair_within {key : α → Except CodecError Bytes} {value : β → Except CodecError Bytes}
    {entry : α × β} {front middle back : Nat}
    (count : (Varint.encode mapPairArity).length ≤ front) (first : Within (key entry.1) middle)
    (second : Within (value entry.2) back) :
    Within (pair key value entry) (front + (middle + back)) := by
  obtain ⟨k, packedKey, length⟩ := first
  obtain ⟨v, packedValue, length'⟩ := second
  refine ⟨Varint.encode mapPairArity ++ (k ++ v), ?_, ?_⟩
  · unfold pair
    rw [packedKey, packedValue]
    rfl
  · rw [List.length_append, List.length_append]
    omega

end Encoding

namespace Reader
variable {α β : Type} {p : α → Nat → Prop}

theorem takes_pair {key : Reader α} {value : Reader β} {first : α → Except CodecError Bytes}
    {second : β → Except CodecError Bytes}
    (left : Takes key fun x => Encoding.Within (first x))
    (right : Takes value fun y => Encoding.Within (second y)) :
    Takes (do
      expectCount "map pair" 2
      let k ← key
      let v ← value
      return (k, v)) fun entry => Encoding.Within (Encoding.pair first second entry) := by
  refine takes_bind (takes_expectCount _ _) fun _ front count => ?_
  refine takes_bind left fun k middle packedKey => ?_
  refine takes_bind right fun v back packedValue => takes_pure ?_
  exact Encoding.pair_within count packedKey packedValue

variable {cmp : α → α → Ordering} [Std.TransCmp cmp]

theorem takes_map {reader : Reader (α × β)} {p : α × β → Nat → Prop} (each : Takes reader p) :
    Takes (do
      let pairs ← counted reader
      return (SortedMap.ofList pairs : SortedMap cmp β)) fun m n =>
        ∃ k, k ≤ n ∧ CostsCounted p m.entries k := by
  refine takes_bind (takes_counted each) fun pairs n costs => takes_pure ?_
  obtain ⟨lost, perm⟩ : ∃ lost, ((SortedMap.ofList pairs : SortedMap cmp β).entries ++ lost).Perm
    pairs := SortedMap.perm_ofList pairs
  exact costs.part perm

theorem takes_set {reader : Reader α} (each : Takes reader p) :
    Takes (do
      let items ← counted reader
      return (SortedMap.ofList (items.map fun x => (x, ())) : SortedMap cmp Unit)) fun m n =>
        ∃ k, k ≤ n ∧ CostsCounted p m.keys k := by
  refine takes_bind (takes_counted each) fun items n costs => takes_pure ?_
  let entries := items.map fun x => (x, ())
  obtain ⟨lost, perm⟩ : ∃ lost, ((SortedMap.ofList entries : SortedMap cmp Unit).entries ++
    lost).Perm entries := SortedMap.perm_ofList entries
  have keys := perm.map Prod.fst
  rw [List.map_append, List.map_map] at keys
  exact costs.part (keys.trans (.of_eq (List.map_id items)))

end Reader

def WireType.Packs (t : WireType) (value : t.Carrier) : Prop := ∃ bytes, t.encode value = .ok bytes

def WireRow.Packs (r : WireRow) (values : r.Carrier) : Prop := ∃ bytes, r.encode values = .ok bytes

theorem WireRow.packs_cons {label : String} {type : WireType} {rest : WireRow} {x : type.Carrier}
    {more : rest.Carrier} :
    (WireRow.cons label type rest).Packs (x, more) ↔ type.Packs x ∧ rest.Packs more := by
  constructor
  · rintro ⟨bytes, written⟩
    obtain ⟨front, first, written⟩ := bind_eq_ok written
    obtain ⟨back, later, _⟩ := bind_eq_ok written
    exact ⟨⟨front, first⟩, ⟨back, later⟩⟩
  · rintro ⟨⟨front, first⟩, ⟨back, later⟩⟩
    have both : (WireRow.cons label type rest).encode (x, more) = .ok (front ++ back) := by
      simp only [WireRow.encode, first, later, bind, Except.bind, pure, Except.pure]
    exact ⟨_, both⟩

mutual

theorem WireType.takes_decode : (t : WireType) →
    Reader.Takes t.decode fun value => Encoding.Within (t.encode value)
  | .int kind => by
    refine (Reader.takes_bits kind.bytes).imp fun pattern n length => ⟨_, rfl, ?_⟩
    rw [Bytes.length_ofNatLE]
    omega
  | .float kind => by
    refine (Reader.takes_bits kind.bytes).imp fun pattern n length => ⟨_, rfl, ?_⟩
    rw [Bytes.length_ofNatLE]
    omega
  | .bool => by
    refine Reader.takes_bind Reader.takes_get fun byte n one => Reader.takes_pure ?_
    exact ⟨_, rfl, by rw [List.length_singleton]; omega⟩
  | .varint => by
    refine Reader.takes_bind Reader.takes_varint fun k n cost => Reader.takes_pure ?_
    have same : (BitVec.ofNat 32 k).toNat = k := by
      rw [BitVec.toNat_ofNat]
      exact Nat.mod_eq_of_lt cost.1
    exact ⟨_, rfl, by rw [same]; exact cost.2⟩
  | .string => by
    refine Reader.takes_text.imp fun s n cost => ?_
    obtain ⟨front, rfl, small, count⟩ := cost
    exact Encoding.text_within small count
  | .name => by
    refine Reader.takes_bind Reader.takes_text fun s n cost => Reader.takes_pure ?_
    obtain ⟨front, rfl, small, count⟩ := cost
    exact Encoding.text_within small count
  | .checksum kind => by
    refine Reader.takes_bind (Reader.takes_expectCount _ _) fun _ front count => ?_
    refine (Reader.takes_raw kind.bytes).imp fun bytes back length => ⟨_, rfl, ?_⟩
    rw [List.length_append, bytes.2]
    omega
  | .vec item =>
    (Reader.takes_counted item.takes_decode).imp fun _ _ costs => Encoding.counted_within costs
  | .array item size => by
    refine Reader.takes_bind (Reader.takes_expectSize _ _) fun _ front cost => ?_
    refine (Reader.takes_replicated item.takes_decode size).imp fun items back costs => ?_
    obtain ⟨small, count⟩ := cost
    obtain ⟨items, rfl⟩ := items
    exact Encoding.counted_within ⟨small, front, back, rfl, count, costs⟩
  | .set .byValue item => by
    refine (Reader.takes_set item.takes_decode).imp fun items n costs => ?_
    obtain ⟨k, below, costs⟩ := costs
    exact (Encoding.counted_within costs).mono below
  | .set .byBytes item => by
    refine (Reader.takes_set item.takes_decode).imp fun items n costs => ?_
    obtain ⟨k, below, costs⟩ := costs
    exact (Encoding.sorted_within costs).mono below
  | .map .byValue key value => by
    have each := Reader.takes_pair key.takes_decode value.takes_decode
    refine (Reader.takes_map each).imp fun pairs n costs => ?_
    obtain ⟨k, below, costs⟩ := costs
    exact (Encoding.counted_within costs).mono below
  | .map .byBytes key value => by
    have each := Reader.takes_pair key.takes_decode value.takes_decode
    refine (Reader.takes_map each).imp fun pairs n costs => ?_
    obtain ⟨k, below, costs⟩ := costs
    exact (Encoding.sorted_within costs).mono below
  | .tuple row => by
    refine Reader.takes_bind (Reader.takes_expectSize _ _) fun _ front cost => ?_
    refine row.takes_decode.imp fun values back fields => ?_
    exact Encoding.sized_within cost.1 cost.2 fields
  | .enum decl => by
    refine Reader.takes_bind (Reader.takes_bits decl.repr.bytes) fun pattern n length => ?_
    split
    · refine Reader.takes_pure ⟨_, rfl, ?_⟩
      rw [Bytes.length_ofNatLE, length]
      omega
    · exact Reader.takes_throw _ _
  | .record typeName hasBase fields => by
    refine Reader.takes_bind (Reader.takes_expectSize _ _) fun _ front cost => ?_
    refine fields.takes_decode.imp fun values back written => ?_
    exact Encoding.sized_within cost.1 cost.2 written

theorem WireRow.takes_decode : (r : WireRow) →
    Reader.Takes r.decode fun values => Encoding.Within (r.encode values)
  | .nil => Reader.takes_pure ⟨[], rfl, Nat.le_refl 0⟩
  | .cons label type rest => by
    refine Reader.takes_bind type.takes_decode fun x n first => ?_
    refine Reader.takes_bind rest.takes_decode fun more m later => Reader.takes_pure ?_
    obtain ⟨front, head, length⟩ := first
    obtain ⟨back, tail, length'⟩ := later
    refine ⟨front ++ back, ?_, ?_⟩
    · simp only [WireRow.encode, head, tail, bind, Except.bind, pure, Except.pure]
    · rw [List.length_append]
      omega

end

namespace WireType

theorem encode_of_unpack {t : WireType} {value : t.Carrier} {bytes : Bytes}
    (h : t.unpack bytes = .ok value) :
    ∃ packed, t.encode value = .ok packed ∧ packed.length ≤ bytes.length := by
  unfold unpack Reader.whole at h
  split at h
  · rename_i found read
    cases h
    obtain ⟨n, length, packed, written, within⟩ := t.takes_decode bytes value [] read
    rw [List.length_nil] at length
    exact ⟨packed, written, by omega⟩
  · cases h
  · cases h

def repack (t : WireType) (bytes : Bytes) : Except CodecError Bytes := do
  let value ← t.unpack bytes
  t.pack value

theorem repack_of_unpack {t : WireType} {value : t.Carrier} {bytes : Bytes}
    (h : t.unpack bytes = .ok value) : t.repack bytes = t.encode value := by
  rw [← t.pack_eq_encode]
  unfold repack
  rw [h]
  rfl

/-- A value that was read has one packed form, which is no longer than what it was read from. It
unpacks to the value, and whatever else unpacks to the value is packed to it again. -/
theorem canonical_of_unpack {t : WireType} {value : t.Carrier} {bytes : Bytes}
    (h : t.unpack bytes = .ok value) :
    ∃ packed, (∀ measured written, t.packVisiting measured written value = .ok packed) ∧
      packed.length ≤ bytes.length ∧ t.unpack packed = .ok value ∧
        ∀ bytes', t.unpack bytes' = .ok value → t.repack bytes' = .ok packed := by
  obtain ⟨packed, written, length⟩ := encode_of_unpack h
  refine ⟨packed, fun measured written' => ?_, length, unpack_of_encode written, fun bytes' h' => ?_⟩
  · rw [packVisiting_eq_encode]
    exact written
  · rw [repack_of_unpack h']
    exact written

theorem packs_of_unpack {t : WireType} {value : t.Carrier} {bytes : Bytes}
    (h : t.unpack bytes = .ok value) : t.Packs value := by
  obtain ⟨packed, written, _⟩ := encode_of_unpack h
  exact ⟨packed, written⟩

theorem packs_of_tuple {row : WireRow} {values : row.Carrier}
    (packs : (tuple row).Packs values) : row.Packs values := by
  obtain ⟨bytes, written⟩ := packs
  obtain ⟨back, _, fields, _⟩ := Encoding.sized_eq_ok written
  exact ⟨back, fields⟩

theorem packs_of_vec {item : WireType} {items : List item.Carrier} (packs : (vec item).Packs items)
    (x : item.Carrier) (mem : x ∈ items) : item.Packs x := by
  obtain ⟨bytes, written⟩ := packs
  obtain ⟨packed, _, each, _⟩ := Encoding.counted_eq_ok written
  exact each_of_mapM each mem

end WireType
end ContractStore
