import ContractStore.Proofs.Table.Outcome
import ContractStore.Proofs.Wire.Repack

/-!
What an operation does to a row that is there, or is not, where neither names nor sizes stand in its
way. A row that unpacks is read as what it unpacks to, and a row that packs is stored unless the
store refuses it. The store may be any.
-/
namespace ContractStore.Namespace
variable {σ : Type} [Store σ] {n : Namespace} {store : σ} {type : WireType} {table : String}
  {key raw bytes : Bytes} {row : type.Carrier}

/-- What a write at a raw key comes to once nothing but the store can refuse it. -/
def stored (store : σ) (raw bytes : Bytes) : Except ContractError Unit × σ :=
  Prod.map (Except.mapError .state) id (change (Store.insert store raw bytes) store)

theorem perform_query_of_get {found : Option Bytes} (lies : n.rowKey table key = .ok raw)
    (got : Store.get store raw = .ok found) :
    n.perform (Action.query table key) store = (.ok found, store) := by
  change ((n.rowKey table key >>= Store.get store).mapError ContractError.state, store) = _
  rw [lies]
  change ((Store.get store raw).mapError ContractError.state, store) = _
  rw [got]
  rfl

theorem perform_ofStored_of_unpack (unpacked : type.unpack bytes = .ok row) :
    n.perform (Row.ofStored type (some bytes)) store = (.ok (some row), store) := by
  change n.perform (some <$> Action.ofCodec (type.unpack bytes)) store = _
  rw [unpacked]
  rfl

theorem perform_get_row_of_stored (lies : n.rowKey table key = .ok raw)
    (got : Store.get store raw = .ok (some bytes)) (unpacked : type.unpack bytes = .ok row) :
    n.perform (Row.get type table key) store = (.ok row, store) := by
  have found : n.perform (Row.find type table key) store = (.ok (some row), store) := by
    unfold Row.find
    rw [perform_bind, perform_query_of_get lies got]
    exact perform_ofStored_of_unpack unpacked
  unfold Row.get
  rw [perform_bind, found]
  rfl

theorem perform_get_row_of_missing (lies : n.rowKey table key = .ok raw)
    (got : Store.get store raw = .ok none) :
    n.perform (Row.get type table key) store = (.error (.state (.keyNotFound table)), store) := by
  have found : n.perform (Row.find type table key) store = (.ok none, store) := by
    unfold Row.find
    rw [perform_bind, perform_query_of_get lies got]
    rfl
  unfold Row.get
  rw [perform_bind, found]
  rfl

theorem putRow_of_small (lies : n.rowKey table key = .ok raw)
    (small : bytes.length ≤ n.recordLimit) :
    Prod.map (Except.mapError ContractError.state) id
      (change (n.putRow table key bytes store) store) = stored store raw bytes := by
  unfold putRow checkSize
  rw [if_neg (by omega), lies]
  rfl

theorem perform_insert_row (lies : n.rowKey table key = .ok raw)
    (written : type.encode row = .ok bytes) (small : bytes.length ≤ n.recordLimit) :
    n.perform (Row.insert type table key row) store = stored store raw bytes := by
  unfold Row.insert
  rw [perform_bind, perform_ofCodec, type.pack_eq_encode, written]
  exact putRow_of_small lies small

theorem perform_update_row (lies : n.rowKey table key = .ok raw)
    (written : type.encode row = .ok bytes) (small : bytes.length ≤ n.recordLimit) :
    n.perform (Row.update type table key row) store = stored store raw bytes := by
  unfold Row.update
  rw [perform_bind, perform_ofCodec, type.pack_eq_encode, written]
  exact putRow_of_small lies small

section Table
variable {schema : Schema} {t : Table schema} {key : schema.Key} {row : schema.Record}
  {modify : schema.Record → schema.Record} {packed : Bytes}

theorem perform_keyed {α : Type} {next : Bytes → Action α}
    (encoded : schema.keyType.encode key = .ok packed) :
    n.perform (Table.packKey schema key >>= next) store = n.perform (next packed) store := by
  unfold Table.packKey
  rw [perform_bind, perform_ofCodec, schema.keyType.pack_eq_encode, encoded]
  rfl

theorem perform_get_of_stored (lies : n.RowAt schema.keyType t.name key raw)
    (got : Store.get store raw = .ok (some bytes)) (unpacked : schema.type.unpack bytes = .ok row) :
    n.perform (t.get key) store = (.ok row, store) := by
  obtain ⟨packedKey, encoded, lies⟩ := lies
  exact (perform_keyed encoded).trans (perform_get_row_of_stored lies got unpacked)

theorem perform_get_of_missing (lies : n.RowAt schema.keyType t.name key raw)
    (got : Store.get store raw = .ok none) :
    n.perform (t.get key) store = (.error (.state (.keyNotFound t.name)), store) := by
  obtain ⟨packedKey, encoded, lies⟩ := lies
  exact (perform_keyed encoded).trans (perform_get_row_of_missing lies got)

theorem perform_insert_of_fits
    (lies : n.RowAt schema.keyType t.name (schema.keyOf (modify row)) raw)
    (written : schema.type.encode (modify row) = .ok packed)
    (small : packed.length ≤ n.recordLimit) :
    n.perform (t.insert row modify) store = stored store raw packed := by
  obtain ⟨packedKey, encoded, lies⟩ := lies
  exact (perform_keyed encoded).trans (perform_insert_row lies written small)

theorem perform_update_of_stored (lies : n.RowAt schema.keyType t.name key raw)
    (got : Store.get store raw = .ok (some bytes)) (unpacked : schema.type.unpack bytes = .ok row)
    (written : schema.type.encode (modify row) = .ok packed)
    (small : packed.length ≤ n.recordLimit) :
    n.perform (t.update key modify) store = stored store raw packed := by
  obtain ⟨packedKey, encoded, lies⟩ := lies
  refine (perform_keyed encoded).trans ?_
  rw [perform_bind, perform_get_row_of_stored lies got unpacked]
  exact perform_update_row lies written small

end Table
end ContractStore.Namespace
