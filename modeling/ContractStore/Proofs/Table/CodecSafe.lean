import ContractStore.Proofs.Table.Outcome
import ContractStore.Proofs.Wire.Repack

/-!
Which operations cannot fail over the form of a value. There are two ways to do so: a key or a row
that does not pack, and stored bytes that do not unpack. Where neither can happen, every failure has
another cause.
-/
namespace ContractStore.Namespace
variable {α β : Type} {n : Namespace} {store : MemoryStore} {type : WireType} {table : String}

def CodecSafe (n : Namespace) (action : Action α) (store : MemoryStore) : Prop :=
  ∀ cause, (n.perform action store).1 ≠ .error (.codec cause)

theorem codecSafe_pure (x : α) : n.CodecSafe (pure x) store := by
  intro cause failed
  cases failed

theorem codecSafe_bind {action : Action α} {next : α → Action β} (first : n.CodecSafe action store)
    (later : ∀ x between, n.perform action store = (.ok x, between) → n.CodecSafe (next x) between) :
    n.CodecSafe (action >>= next) store := by
  intro cause failed
  rw [perform_bind] at failed
  split at failed
  · rename_i x between ran
    exact later x between ran cause failed
  · rename_i reason between ran
    cases failed
    exact first cause (congrArg Prod.fst ran)

theorem codecSafe_ofCodec {result : Except CodecError α} (good : ∃ x, result = .ok x) :
    n.CodecSafe (Action.ofCodec result) store := by
  obtain ⟨x, rfl⟩ := good
  intro cause failed
  cases failed

theorem codecSafe_query (table : String) (key : Bytes) :
    n.CodecSafe (Action.query table key) store := by
  intro cause failed
  rw [perform_query] at failed
  cases lies : n.rowKey table key <;> rw [lies] at failed <;> cases failed

theorem write_ne_codec (place : Except StateError Bytes) (value : Bytes) (cause : CodecError) :
    (n.write store place value).1 ≠ .error (.codec cause) := by
  intro failed
  unfold write at failed
  split at failed
  · cases failed
  · cases place <;> cases failed

theorem codecSafe_delete (table : String) (key : Bytes) :
    n.CodecSafe (Action.delete table key) store := by
  intro cause failed
  rw [perform_delete] at failed
  split at failed <;> cases failed

theorem codecSafe_ofStored {stored : Option Bytes} (decodes : ∃ found, Decoded type stored found) :
    n.CodecSafe (Row.ofStored type stored) store := by
  obtain ⟨found, decoded⟩ := decodes
  cases decoded with
  | none => exact codecSafe_pure none
  | @some bytes value unpacked =>
    change n.CodecSafe (some <$> Action.ofCodec (type.unpack bytes)) store
    rw [unpacked]
    intro cause failed
    cases failed

theorem codecSafe_find {key : Bytes}
    (decodes : ∀ raw, n.rowKey table key = .ok raw → ∃ found, Decoded type (store.find? raw) found) :
    n.CodecSafe (Row.find type table key) store := by
  refine codecSafe_bind (codecSafe_query table key) fun stored between ran => ?_
  obtain ⟨rfl, raw, lies, rfl⟩ := perform_query_eq_ok ran
  exact codecSafe_ofStored (decodes raw lies)

theorem codecSafe_packed {value : type.Carrier} (packs : type.Packs value) :
    n.CodecSafe (Action.ofCodec (type.pack value)) store := by
  rw [type.pack_eq_encode]
  exact codecSafe_ofCodec packs

theorem codecSafe_insert_row {key : Bytes} {row : type.Carrier} (packs : type.Packs row) :
    n.CodecSafe (Row.insert type table key row) store := by
  refine codecSafe_bind (codecSafe_packed packs) fun bytes between _ cause => ?_
  rw [perform_insert]
  exact write_ne_codec _ _ cause

theorem codecSafe_put {s : Slot} {value : type.Carrier} (packs : type.Packs value) :
    n.CodecSafe (s.put type value) store := by
  refine codecSafe_bind (codecSafe_packed packs) fun bytes between _ cause => ?_
  rw [perform_save]
  exact write_ne_codec _ _ cause

section Table
variable {schema : Schema} {t : Table schema} {key : schema.Key} {fallback : schema.Record}

theorem codecSafe_getOrDefault (packs : schema.keyType.Packs key)
    (decodes : ∀ raw, n.RowAt schema.keyType t.name key raw →
      ∃ found, Decoded schema.type (store.find? raw) found) :
    n.CodecSafe (t.getOrDefault key fallback) store := by
  refine codecSafe_bind (codecSafe_packed packs) fun packed between ran => ?_
  obtain ⟨encoded, rfl⟩ := packKey_eq_ok ran
  refine codecSafe_bind ?_ fun found between ran => codecSafe_pure _
  exact codecSafe_find fun raw lies => decodes raw ⟨packed, encoded, lies⟩

theorem codecSafe_insert {modify : schema.Record → schema.Record}
    (packsKey : schema.keyType.Packs (schema.keyOf (modify fallback)))
    (packs : schema.type.Packs (modify fallback)) : n.CodecSafe (t.insert fallback modify) store :=
  codecSafe_bind (codecSafe_packed packsKey) fun _ _ _ => codecSafe_insert_row packs

theorem codecSafe_remove (packs : schema.keyType.Packs key) : n.CodecSafe (t.remove key) store :=
  codecSafe_bind (codecSafe_packed packs) fun _ _ _ => codecSafe_delete _ _

end Table

section Singleton
variable {schema : SingletonSchema} {s : Singleton schema} {fallback : schema.Record}

theorem codecSafe_singleton_packKey : n.CodecSafe Singleton.packKey store :=
  codecSafe_packed ⟨_, rfl⟩

theorem codecSafe_exists
    (decodes : ∀ raw, n.SingletonAt s.name raw →
      ∃ found, Decoded schema.type (store.find? raw) found) : n.CodecSafe s.exists? store := by
  refine codecSafe_bind codecSafe_singleton_packKey fun packed between ran => ?_
  obtain ⟨encoded, rfl⟩ := singleton_packKey_eq_ok ran
  refine codecSafe_bind ?_ fun found between ran => codecSafe_pure _
  exact codecSafe_find fun raw lies => decodes raw ⟨packed, encoded, lies⟩

theorem codecSafe_getOrCreate
    (decodes : ∀ raw, n.SingletonAt s.name raw →
      ∃ found, Decoded schema.type (store.find? raw) found)
    (packs : schema.type.Packs (schema.normalize fallback)) :
    n.CodecSafe (s.getOrCreate fallback) store := by
  refine codecSafe_bind codecSafe_singleton_packKey fun packed between ran => ?_
  obtain ⟨encoded, rfl⟩ := singleton_packKey_eq_ok ran
  refine codecSafe_bind ?_ fun found between ran => ?_
  · exact codecSafe_find fun raw lies => decodes raw ⟨packed, encoded, lies⟩
  · cases found with
    | some row => exact codecSafe_pure row
    | none =>
      refine codecSafe_bind ?_ fun _ _ _ => codecSafe_pure _
      exact codecSafe_insert_row packs

end Singleton
end ContractStore.Namespace
