import ContractStore.Proofs.Program.Action
import ContractStore.Slot
import ContractStore.Table.Basic
import ContractStore.Table.Singleton

/-!
What an operation on a table, a singleton or a slot did to a store in memory, if it succeeded. A
read left the store and found at one raw key what it gives; a write changed one raw key.
-/
namespace ContractStore

def Decoded (type : WireType) : Option Bytes → Option type.Carrier → Prop :=
  Option.Rel fun bytes value => type.unpack bytes = .ok value

namespace Namespace

def RowAt (n : Namespace) (type : WireType) (table : String) (key : type.Carrier) (raw : Bytes) :
    Prop :=
  ∃ packed, type.encode key = .ok packed ∧ n.rowKey table packed = .ok raw

variable {n : Namespace} {store after : MemoryStore} {type : WireType} {table : String}

theorem RowAt.raw_unique {key : type.Carrier} {raw raw' : Bytes} (h : n.RowAt type table key raw)
    (h' : n.RowAt type table key raw') : raw = raw' := by
  obtain ⟨packed, encoded, lies⟩ := h
  obtain ⟨packed', encoded', lies'⟩ := h'
  cases encoded.symm.trans encoded'
  exact Except.ok.inj (lies.symm.trans lies')

theorem RowAt.key_unique {key key' : type.Carrier} {raw : Bytes} (h : n.RowAt type table key raw)
    (h' : n.RowAt type table key' raw) : key = key' := by
  obtain ⟨packed, encoded, lies⟩ := h
  obtain ⟨packed', encoded', lies'⟩ := h'
  obtain ⟨_, _, _, rfl⟩ := eq_of_tableKey lies lies'
  exact WireType.encode_injective encoded encoded'

/-- A raw key lies in one table, whoever owns it. -/
theorem RowAt.table_unique {n' : Namespace} {type' : WireType} {table' : String}
    {key : type.Carrier} {key' : type'.Carrier} {raw : Bytes} (h : n.RowAt type table key raw)
    (h' : n'.RowAt type' table' key' raw) : table = table' := by
  obtain ⟨packed, _, lies⟩ := h
  obtain ⟨packed', _, lies'⟩ := h'
  exact (eq_of_tableKey lies lies').2.2.1

theorem ofStored_eq_ok {stored : Option Bytes} {found : Option type.Carrier}
    (h : n.perform (Row.ofStored type stored) store = (.ok found, after)) :
    after = store ∧ Decoded type stored found := by
  cases stored with
  | none =>
    cases h
    exact ⟨rfl, .none⟩
  | some bytes =>
    change n.perform (some <$> Action.ofCodec (type.unpack bytes)) store = _ at h
    cases unpacked : type.unpack bytes with
    | error cause =>
      rw [unpacked] at h
      cases h
    | ok value =>
      rw [unpacked] at h
      cases h
      exact ⟨rfl, .some unpacked⟩

theorem find_eq_ok {key : Bytes} {found : Option type.Carrier}
    (h : n.perform (Row.find type table key) store = (.ok found, after)) :
    after = store ∧ ∃ raw, n.rowKey table key = .ok raw ∧ Decoded type (store.find? raw) found := by
  obtain ⟨stored, between, queried, rest⟩ := perform_bind_eq_ok h
  obtain ⟨rfl, raw, lies, rfl⟩ := perform_query_eq_ok queried
  obtain ⟨rfl, decoded⟩ := ofStored_eq_ok rest
  exact ⟨rfl, raw, lies, decoded⟩

theorem insert_row_eq_ok {key : Bytes} {row : type.Carrier}
    (h : n.perform (Row.insert type table key row) store = (.ok (), after)) :
    ∃ raw bytes, n.rowKey table key = .ok raw ∧ type.encode row = .ok bytes ∧
      after = store.insert raw bytes := by
  obtain ⟨bytes, between, first, rest⟩ := perform_bind_eq_ok h
  obtain ⟨packed, rfl⟩ := perform_ofCodec_eq_ok first
  rw [perform_insert] at rest
  obtain ⟨_, raw, lies, rfl⟩ := write_eq_ok rest
  rw [type.pack_eq_encode] at packed
  exact ⟨raw, bytes, lies, packed, rfl⟩

section Table
variable {schema : Schema} {t : Table schema} {key : schema.Key} {row fallback : schema.Record}

theorem packKey_eq_ok {packed : Bytes}
    (h : n.perform (Table.packKey schema key) store = (.ok packed, after)) :
    schema.keyType.encode key = .ok packed ∧ after = store := by
  obtain ⟨packed, rfl⟩ := perform_ofCodec_eq_ok h
  rw [schema.keyType.pack_eq_encode] at packed
  exact ⟨packed, rfl⟩

theorem getOrDefault_eq_ok
    (h : n.perform (t.getOrDefault key fallback) store = (.ok row, after)) :
    after = store ∧ ∃ raw found, n.RowAt schema.keyType t.name key raw ∧
      Decoded schema.type (store.find? raw) found ∧ row = found.getD fallback := by
  obtain ⟨packed, between, first, rest⟩ := perform_bind_eq_ok h
  obtain ⟨encoded, rfl⟩ := packKey_eq_ok first
  obtain ⟨found, between, read, ended⟩ := perform_bind_eq_ok rest
  obtain ⟨rfl, raw, lies, decoded⟩ := find_eq_ok read
  cases ended
  exact ⟨rfl, raw, found, ⟨packed, encoded, lies⟩, decoded, rfl⟩

theorem insert_eq_ok {modify : schema.Record → schema.Record}
    (h : n.perform (t.insert fallback modify) store = (.ok (), after)) :
    ∃ raw bytes, n.RowAt schema.keyType t.name (schema.keyOf (modify fallback)) raw ∧
      schema.type.encode (modify fallback) = .ok bytes ∧ after = store.insert raw bytes := by
  obtain ⟨packed, between, first, rest⟩ := perform_bind_eq_ok h
  obtain ⟨encoded, rfl⟩ := packKey_eq_ok first
  obtain ⟨raw, bytes, lies, written, rfl⟩ := insert_row_eq_ok rest
  exact ⟨raw, bytes, ⟨packed, encoded, lies⟩, written, rfl⟩

theorem remove_eq_ok (h : n.perform (t.remove key) store = (.ok (), after)) :
    ∃ raw, n.RowAt schema.keyType t.name key raw ∧ after = store.erase raw := by
  obtain ⟨packed, between, first, rest⟩ := perform_bind_eq_ok h
  obtain ⟨encoded, rfl⟩ := packKey_eq_ok first
  obtain ⟨raw, lies, rfl⟩ := perform_delete_eq_ok rest
  exact ⟨raw, ⟨packed, encoded, lies⟩, rfl⟩

end Table

section Singleton
variable {schema : SingletonSchema} {s : Singleton schema} {row fallback : schema.Record}

def SingletonAt (n : Namespace) (table : String) (raw : Bytes) : Prop :=
  n.RowAt (.int .i32) table singletonId raw

theorem singleton_packKey_eq_ok {packed : Bytes}
    (h : n.perform Singleton.packKey store = (.ok packed, after)) :
    (WireType.int .i32).encode singletonId = .ok packed ∧ after = store := by
  obtain ⟨packed, rfl⟩ := perform_ofCodec_eq_ok h
  exact ⟨((WireType.int .i32).pack_eq_encode _).symm.trans packed, rfl⟩

theorem exists_eq_ok {present : Bool} (h : n.perform s.exists? store = (.ok present, after)) :
    after = store ∧ ∃ raw found, n.SingletonAt s.name raw ∧
      Decoded schema.type (store.find? raw) found ∧ present = found.isSome := by
  obtain ⟨packed, between, first, rest⟩ := perform_bind_eq_ok h
  obtain ⟨encoded, rfl⟩ := singleton_packKey_eq_ok first
  obtain ⟨found, between, read, ended⟩ := perform_bind_eq_ok rest
  obtain ⟨rfl, raw, lies, decoded⟩ := find_eq_ok read
  cases ended
  exact ⟨rfl, raw, found, ⟨packed, encoded, lies⟩, decoded, rfl⟩

theorem getOrCreate_eq_ok (h : n.perform (s.getOrCreate fallback) store = (.ok row, after)) :
    ∃ raw found, n.SingletonAt s.name raw ∧ Decoded schema.type (store.find? raw) found ∧
      match found with
      | some stored => row = stored ∧ after = store
      | none => row = schema.normalize fallback ∧
        ∃ bytes, schema.type.encode row = .ok bytes ∧ after = store.insert raw bytes := by
  obtain ⟨packed, between, first, rest⟩ := perform_bind_eq_ok h
  obtain ⟨encoded, rfl⟩ := singleton_packKey_eq_ok first
  obtain ⟨found, between, read, ended⟩ := perform_bind_eq_ok rest
  obtain ⟨rfl, raw, lies, decoded⟩ := find_eq_ok read
  refine ⟨raw, found, ⟨packed, encoded, lies⟩, decoded, ?_⟩
  cases found with
  | some stored =>
    cases ended
    exact ⟨rfl, rfl⟩
  | none =>
    obtain ⟨u, between', inserted, ended⟩ := perform_bind_eq_ok ended
    obtain ⟨raw', bytes, lies', written, rfl⟩ := insert_row_eq_ok inserted
    cases lies.symm.trans lies'
    cases ended
    exact ⟨rfl, bytes, written, rfl⟩

/-- A row that was looked for and not found is the given one after that, normalized. -/
theorem getOrCreate_of_missing {looked : MemoryStore}
    (absent : n.perform s.exists? store = (.ok false, looked))
    (h : n.perform (s.getOrCreate fallback) looked = (.ok row, after)) :
    looked = store ∧ row = schema.normalize fallback ∧ ∃ raw bytes, n.SingletonAt s.name raw ∧
      store.find? raw = none ∧ schema.type.encode row = .ok bytes ∧
        after = store.insert raw bytes := by
  obtain ⟨rfl, raw, found, lies, decoded, missing⟩ := exists_eq_ok absent
  obtain ⟨raw', found', lies', decoded', created⟩ := getOrCreate_eq_ok h
  cases lies.raw_unique lies'
  have nothing : looked.find? raw = none := by
    generalize looked.find? raw = stored at decoded
    cases decoded with
    | none => rfl
    | some unpacked => cases missing
  rw [nothing] at decoded'
  cases decoded'
  obtain ⟨same, bytes, encoded, stored⟩ := created
  exact ⟨rfl, same, raw, bytes, lies, nothing, encoded, stored⟩

end Singleton

theorem put_eq_ok {s : Slot} {value : type.Carrier}
    (h : n.perform (s.put type value) store = (.ok (), after)) :
    ∃ raw bytes, n.slotKey s.name = .ok raw ∧ type.encode value = .ok bytes ∧
      after = store.insert raw bytes := by
  obtain ⟨bytes, between, first, rest⟩ := perform_bind_eq_ok h
  obtain ⟨packed, rfl⟩ := perform_ofCodec_eq_ok first
  rw [perform_save] at rest
  obtain ⟨_, raw, lies, rfl⟩ := write_eq_ok rest
  rw [type.pack_eq_encode] at packed
  exact ⟨raw, bytes, lies, packed, rfl⟩

end Namespace
end ContractStore
