import ContractStore.Proofs.Wire.RoundTrip
import ContractStore.Store.KeyLayout

/-!
Raw keys do not collide. The names in front of a raw key can be read back from it, so two raw keys
that are equal have the same names, and what follows the names is the same as well
(`eq_of_place_append`). No front of a raw key goes on to the raw keys of other names
(`raw_keys_do_not_collide`).
-/
namespace ContractStore

namespace KeySpace

def Fits (owner contract name : String) : Prop :=
  (Bytes.ofString owner).length < Varint.bound ∧
    (Bytes.ofString contract).length < Varint.bound ∧
      (Bytes.ofString name).length < Varint.bound

instance (owner contract name : String) : Decidable (Fits owner contract name) := by
  unfold Fits
  infer_instance

def unpackable : StateError := .backend CodecError.varintOverflow.message

theorem place_eq_text (space : KeySpace) (owner contract name : String) :
    space.place owner contract name = (do
      let first ← Encoding.text owner
      let second ← Encoding.text contract
      let third ← Encoding.text name
      return [space.marker] ++ (first ++ (second ++ third))).mapError fun (cause : CodecError) =>
        .backend cause.message := by
  have names := Script.writes_append (Script.writes_text owner)
    (Script.writes_append (Script.writes_text contract) (Script.writes_text name))
  have all := Script.writes_append (Script.writes_write [space.marker]) names
  unfold place
  simp only [Script.bytes_eq_output all.plain, all.output]
  cases Encoding.text owner <;> cases Encoding.text contract <;> cases Encoding.text name <;> rfl

theorem place_of_fits (space : KeySpace) {owner contract name : String}
    (fits : Fits owner contract name) : ∃ bytes, space.place owner contract name = .ok bytes := by
  rw [place_eq_text, Encoding.text_of_fits fits.1, Encoding.text_of_fits fits.2.1,
    Encoding.text_of_fits fits.2.2]
  exact ⟨_, rfl⟩

theorem place_of_not_fits (space : KeySpace) {owner contract name : String}
    (long : ¬ Fits owner contract name) :
    space.place owner contract name = .error unpackable := by
  rw [place_eq_text]
  by_cases first : (Bytes.ofString owner).length < Varint.bound
  · by_cases second : (Bytes.ofString contract).length < Varint.bound
    · have third : ¬ (Bytes.ofString name).length < Varint.bound :=
        fun third => long ⟨first, second, third⟩
      rw [Encoding.text_of_fits first, Encoding.text_of_fits second,
        Encoding.text_of_not_fits third]
      rfl
    · rw [Encoding.text_of_fits first, Encoding.text_of_not_fits second]
      rfl
  · rw [Encoding.text_of_not_fits first]
    rfl

def read : Reader (UInt8 × String × String × String) := do
  let marker ← Reader.get
  let owner ← Reader.text
  let contract ← Reader.text
  let name ← Reader.text
  return (marker, owner, contract, name)

theorem reads_place {space : KeySpace} {owner contract name : String} {bytes : Bytes}
    (h : space.place owner contract name = .ok bytes) :
    Reader.Reads read bytes (space.marker, owner, contract, name) := by
  have fits : Fits owner contract name := by
    by_cases fits : Fits owner contract name
    · exact fits
    · rw [place_of_not_fits space fits] at h
      cases h
  rw [place_eq_text, Encoding.text_of_fits fits.1, Encoding.text_of_fits fits.2.1,
    Encoding.text_of_fits fits.2.2] at h
  cases h
  refine Reader.reads_bind (Reader.reads_get space.marker) ?_
  refine Reader.reads_bind (Reader.reads_text owner fits.1) ?_
  refine Reader.reads_bind (Reader.reads_text contract fits.2.1) ?_
  exact Reader.reads_map (fun name => (space.marker, owner, contract, name))
    (Reader.reads_text name fits.2.2)

theorem marker_injective {space space' : KeySpace} (same : space.marker = space'.marker) :
    space = space' := by
  cases space <;> cases space' <;> first | rfl | simp [marker] at same

/-- No two places overlap: equal raw keys are at one place, and go on in the same way. -/
theorem eq_of_place_append {space space' : KeySpace}
    {owner contract name owner' contract' name' : String} {bytes bytes' key key' : Bytes}
    (h : space.place owner contract name = .ok bytes)
    (h' : space'.place owner' contract' name' = .ok bytes') (same : bytes ++ key = bytes' ++ key') :
    space = space' ∧ owner = owner' ∧ contract = contract' ∧ name = name' ∧ key = key' := by
  obtain ⟨names, rfl⟩ := Reader.eq_of_reads_append (reads_place h) (reads_place h') same
  simp only [Prod.mk.injEq] at names
  obtain ⟨markers, rfl, rfl, rfl⟩ := names
  exact ⟨marker_injective markers, rfl, rfl, rfl, rfl⟩

theorem eq_of_place_prefix {space : KeySpace} {owner contract name owner' contract' name' : String}
    {bytes bytes' key : Bytes} (h : space.place owner contract name = .ok bytes)
    (h' : space.place owner' contract' name' = .ok bytes') (front : bytes <+: bytes' ++ key) :
    owner = owner' ∧ contract = contract' ∧ name = name' := by
  obtain ⟨more, same⟩ := front
  obtain ⟨_, owners, contracts, names, _⟩ := eq_of_place_append h h' same
  exact ⟨owners, contracts, names⟩

end KeySpace

theorem tableKey_of_place {owner contract table : String} {front : Bytes}
    (h : KeySpace.table.place owner contract table = .ok front) (key : Bytes) :
    tableKey owner contract table key = .ok (front ++ key) := by
  unfold tableKey
  rw [h]
  rfl

theorem eq_of_tableKey {owner contract table owner' contract' table' : String}
    {key key' raw : Bytes} (h : tableKey owner contract table key = .ok raw)
    (h' : tableKey owner' contract' table' key' = .ok raw) :
    owner = owner' ∧ contract = contract' ∧ table = table' ∧ key = key' := by
  obtain ⟨bytes, place, rest⟩ := bind_eq_ok h
  obtain ⟨bytes', place', rest'⟩ := bind_eq_ok h'
  cases rest
  exact (KeySpace.eq_of_place_append place place' (Except.ok.inj rest').symm).2

theorem eq_of_storageKey {owner contract slot owner' contract' slot' : String} {raw : Bytes}
    (h : storageKey owner contract slot = .ok raw)
    (h' : storageKey owner' contract' slot' = .ok raw) :
    owner = owner' ∧ contract = contract' ∧ slot = slot' := by
  obtain ⟨_, owners, contracts, slots, _⟩ := KeySpace.eq_of_place_append h h'
    (rfl : raw ++ [] = raw ++ [])
  exact ⟨owners, contracts, slots⟩

theorem tableKey_ne_storageKey {owner contract table owner' contract' slot : String}
    {key raw : Bytes} (h : tableKey owner contract table key = .ok raw) :
    storageKey owner' contract' slot ≠ .ok raw := by
  intro h'
  obtain ⟨bytes, place, rest⟩ := bind_eq_ok h
  cases rest
  have spaces := (KeySpace.eq_of_place_append place h' (List.append_nil _).symm).1
  cases spaces

/-- Three names that fit have a front for their rows and a raw key for their slot. Other names have
others, and no bytes behind one front lead to what lies behind another. -/
theorem raw_keys_do_not_collide {owner contract name owner' contract' name' : String}
    (fits : KeySpace.Fits owner contract name) (fits' : KeySpace.Fits owner' contract' name') :
    ∃ rows rows' slot slot' : Bytes,
      (∀ key, tableKey owner contract name key = .ok (rows ++ key)) ∧
      (∀ key, tableKey owner' contract' name' key = .ok (rows' ++ key)) ∧
      storageKey owner contract name = .ok slot ∧ storageKey owner' contract' name' = .ok slot' ∧
      (∀ key key', rows ++ key = rows' ++ key' ↔
        owner = owner' ∧ contract = contract' ∧ name = name' ∧ key = key') ∧
      (slot = slot' ↔ owner = owner' ∧ contract = contract' ∧ name = name') ∧
      (∀ key, rows ++ key ≠ slot') ∧
      (∀ key, rows <+: rows' ++ key → owner = owner' ∧ contract = contract' ∧ name = name') ∧
      ∀ key, slot <+: slot' ++ key → owner = owner' ∧ contract = contract' ∧ name = name' := by
  obtain ⟨rows, row⟩ := KeySpace.table.place_of_fits fits
  obtain ⟨rows', row'⟩ := KeySpace.table.place_of_fits fits'
  obtain ⟨slot, stored⟩ := KeySpace.storage.place_of_fits fits
  obtain ⟨slot', stored'⟩ := KeySpace.storage.place_of_fits fits'
  have lies := tableKey_of_place row
  have lies' := tableKey_of_place row'
  refine ⟨rows, rows', slot, slot', lies, lies', stored, stored', ?_, ?_, ?_, ?_, ?_⟩
  · intro key key'
    constructor
    · intro same
      exact (KeySpace.eq_of_place_append row row' same).2
    · rintro ⟨rfl, rfl, rfl, rfl⟩
      exact Except.ok.inj ((lies key).symm.trans (lies' key))
  · constructor
    · rintro rfl
      exact eq_of_storageKey stored stored'
    · rintro ⟨rfl, rfl, rfl⟩
      exact Except.ok.inj (stored.symm.trans stored')
  · rintro key rfl
    exact tableKey_ne_storageKey (lies key) stored'
  · intro key front
    exact KeySpace.eq_of_place_prefix row row' front
  · intro key front
    exact KeySpace.eq_of_place_prefix stored stored' front

/-- A row key that goes on like the front of a longer table name. -/
theorem row_key_imitates_no_table :
    KeySpace.Fits "o" "c" "" ∧ KeySpace.Fits "o" "c" "t" ∧
      ∃ rows rows' : Bytes,
        (∀ key, tableKey "o" "c" "" key = .ok (rows ++ key)) ∧
          (∀ key, tableKey "o" "c" "t" key = .ok (rows' ++ key)) ∧
            rows ++ [1, 116, 7] ≠ rows' ++ [7] ∧ ¬ rows <+: rows' ++ [7] := by
  have fits : KeySpace.Fits "o" "c" "" := by decide
  have fits' : KeySpace.Fits "o" "c" "t" := by decide
  obtain ⟨rows, rows', _, _, lies, lies', _, _, keys, _, _, fronts, _⟩ :=
    raw_keys_do_not_collide fits fits'
  refine ⟨fits, fits', rows, rows', lies, lies', ?_, ?_⟩
  · intro same
    have names := ((keys _ _).1 same).2.2.1
    exact absurd names (by decide)
  · intro front
    have names := (fronts _ front).2.2
    exact absurd names (by decide)

end ContractStore
