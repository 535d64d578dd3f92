import Mathlib
import ContractStore.Proofs.Store.KeyLayout

/-!
A value has one packed form, and a packed form stands for one value. At no depth does it show in
which order hashed entries were visited. So one key, packed anywhere, leads to one raw key, and two
keys lead to two.
-/
namespace ContractStore

theorem tableKey_of_fits {owner contract table : String}
    (fits : KeySpace.Fits owner contract table) (key : Bytes) :
    ∃ raw, tableKey owner contract table key = .ok raw := by
  obtain ⟨front, found⟩ := KeySpace.table.place_of_fits fits
  exact ⟨front ++ key, tableKey_of_place found key⟩

theorem tableKey_eq_iff {owner contract table : String} {key key' raw raw' : Bytes}
    (h : tableKey owner contract table key = .ok raw)
    (h' : tableKey owner contract table key' = .ok raw') : raw = raw' ↔ key = key' := by
  constructor
  · rintro rfl
    exact (eq_of_tableKey h h').2.2.2
  · rintro rfl
    exact Except.ok.inj (h.symm.trans h')

namespace WireType

theorem encoded_eq_iff {t : WireType} {value other : t.Carrier} {bytes bytes' : Bytes}
    (h : t.encode value = .ok bytes) (h' : t.encode other = .ok bytes') :
    bytes = bytes' ↔ value = other := by
  constructor
  · rintro rfl
    exact encode_injective h h'
  · rintro rfl
    exact Except.ok.inj (h.symm.trans h')

/-- Packing identifies values. Each of the two values is packed with orders of its own for the
hashed entries in it, one for measuring and one for writing. -/
theorem packed_eq_iff_value_eq (measured written measured' written' : Visit) (t : WireType)
    (value other : t.Carrier) :
    t.packVisiting measured written value = t.packVisiting measured' written' value ∧
      ∀ bytes bytes', t.packVisiting measured written value = .ok bytes →
        t.packVisiting measured' written' other = .ok bytes' →
        (bytes = bytes' ↔ value = other) ∧
          ∀ owner contract table, KeySpace.Fits owner contract table →
            ∃ raw raw', tableKey owner contract table bytes = .ok raw ∧
              tableKey owner contract table bytes' = .ok raw' ∧ (raw = raw' ↔ value = other) := by
  simp only [packVisiting_eq_encode]
  refine ⟨trivial, ?_⟩
  intro bytes bytes' packed packed'
  have values := encoded_eq_iff packed packed'
  refine ⟨values, ?_⟩
  intro owner contract table fits
  obtain ⟨raw, lies⟩ := tableKey_of_fits fits bytes
  obtain ⟨raw', lies'⟩ := tableKey_of_fits fits bytes'
  exact ⟨raw, raw', lies, lies', (tableKey_eq_iff lies lies').trans values⟩

/-- A hashed map of hashed sets, filled in two orders and visited in two orders. -/
theorem packed_map_of_sets_is_one_key :
    let t : WireType := .map .byBytes (.int .u8) (.set .byBytes (.int .u8))
    let value : t.Carrier :=
      SortedMap.ofList [(1#8, SortedMap.ofList [(1#8, ()), (2#8, ())]), (2#8, .empty)]
    let other : t.Carrier :=
      SortedMap.ofList [(2#8, .empty), (1#8, SortedMap.ofList [(2#8, ()), (1#8, ())])]
    let bytes : Bytes := [2, 2, 1, 2, 1, 2, 2, 2, 0]
    t.packVisiting .stored .stored value = .ok bytes ∧
      t.packVisiting .reversed .stored other = .ok bytes ∧ KeySpace.Fits "o" "c" "t" ∧
        value = other ∧
          ∃ raw raw', tableKey "o" "c" "t" bytes = .ok raw ∧ tableKey "o" "c" "t" bytes = .ok raw' ∧
            (raw = raw' ↔ value = other) := by
  intro t value other bytes
  have packed : t.packVisiting .stored .stored value = .ok bytes := by cbv
  have packed' : t.packVisiting .reversed .stored other = .ok bytes := by cbv
  have fits : KeySpace.Fits "o" "c" "t" := by decide
  obtain ⟨values, raws⟩ :=
    (packed_eq_iff_value_eq .stored .stored .reversed .stored t value other).2 bytes bytes packed
      packed'
  exact ⟨packed, packed', fits, values.1 rfl, raws "o" "c" "t" fits⟩

end WireType
end ContractStore
