import ContractStore.Contracts.Token
import ContractStore.Proofs.Table.Stored

/-!
Writing back what was read. The bytes that a value is packed to are its canonical ones: of all that
unpack to it they are among the shortest, and packing again gives them again. So a row that an
update leaves as it is takes no more room than before, whoever wrote it (`repacking_never_grows`).
-/
namespace ContractStore

namespace WireType

/-- What unpacks packs to bytes that are no longer, whatever the order of the visits; they unpack to
the same, and packing that gives the same bytes. A row under a key, within the record limit when it
was written, is written back by an update that changes nothing: only the store can refuse it. -/
theorem repacking_never_grows :
    (∀ (t : WireType) (bytes : Bytes) (value : t.Carrier), t.unpack bytes = .ok value →
      ∃ packed, (∀ measured written, t.packVisiting measured written value = .ok packed) ∧
        packed.length ≤ bytes.length ∧ t.unpack packed = .ok value ∧
          t.repack bytes = .ok packed ∧ t.repack packed = .ok packed) ∧
      ∀ (σ : Type) [Store σ] (n : Namespace) (schema : Schema) (table : Table schema)
        (key : schema.Key) (row : schema.Record) (raw bytes : Bytes) (store : σ),
        n.RowAt schema.keyType table.name key raw → Store.get store raw = .ok (some bytes) →
        schema.type.unpack bytes = .ok row → bytes.length ≤ n.recordLimit →
          ∃ packed, schema.type.repack bytes = .ok packed ∧ packed.length ≤ bytes.length ∧
            n.perform (table.update key id) store = Namespace.stored store raw packed := by
  constructor
  · intro t bytes value unpacked
    obtain ⟨packed, written, length, back, again⟩ := canonical_of_unpack unpacked
    exact ⟨packed, written, length, back, again bytes unpacked, again packed back⟩
  · intro σ _ n schema table key row raw bytes store lies got unpacked small
    obtain ⟨packed, written, length⟩ := encode_of_unpack unpacked
    refine ⟨packed, (repack_of_unpack unpacked).trans written, length, ?_⟩
    exact Namespace.perform_update_of_stored lies got unpacked written (Nat.le_trans length small)

/-- A map with counts in long form whose second pair replaces the first by a longer one, and a row
with counts in long form that fills its record limit. -/
theorem redundant_map_and_row_shrink :
    let t : WireType := .map .byValue (.int .u8) .string
    let bytes : Bytes := [130, 128, 0, 2, 7, 0, 130, 0, 7, 130, 0, 97, 98]
    let packed : Bytes := [1, 2, 7, 2, 97, 98]
    let n : Namespace := ⟨"o", "t", 15⟩
    let table : Table Token.balanceSchema := ⟨"b"⟩
    let raw : Bytes := [1, 1, 111, 1, 116, 1, 98, 3, 98, 111, 98]
    let row : Bytes := [130, 0, 131, 0, 98, 111, 98, 5, 0, 0, 0, 0, 0, 0, 0]
    let short : Bytes := [2, 3, 98, 111, 98, 5, 0, 0, 0, 0, 0, 0, 0]
    let store : MemoryStore := SortedMap.empty.insert raw row
    t.repack bytes = .ok packed ∧ t.unpack packed = t.unpack bytes ∧ t.repack packed = .ok packed ∧
      n.perform (table.update ⟨"bob"⟩ id) store = (.ok (), store.insert raw short) := by
  intro t bytes packed n table raw row short store
  obtain ⟨canonical, rewritten⟩ := repacking_never_grows
  have unpacked : t.unpack bytes = .ok (SortedMap.ofList [(7#8, "ab")]) := by rfl
  have once : t.repack bytes = .ok packed := by rfl
  obtain ⟨found, -, -, back, first, again⟩ := canonical t bytes _ unpacked
  cases once.symm.trans first
  have lies : n.RowAt Token.balanceSchema.keyType table.name ⟨"bob"⟩ raw :=
    ⟨[3, 98, 111, 98], by rfl, by rfl⟩
  have read : Token.balanceSchema.type.unpack row = .ok (Token.Balance.mk ⟨"bob"⟩ 5#64) := by rfl
  have rowOnce : Token.balanceSchema.type.repack row = .ok short := by rfl
  obtain ⟨written, second, -, done⟩ :=
    rewritten MemoryStore n _ table ⟨"bob"⟩ _ raw row store lies (by rfl) read (by decide)
  cases rowOnce.symm.trans second
  exact ⟨once, back.trans unpacked.symm, again, done⟩

end WireType
end ContractStore
