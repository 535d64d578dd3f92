import ContractStore.Contracts.Token
import ContractStore.Proofs.Table.Outcome

/-!
A token's state, as it lies in a store. The sum of all balances and the recorded supply are read off
the raw entries. Setting one balance changes the sum by the difference, no other balance and not the
supply (`sets_insert`, `sets_erase`); what the token writes elsewhere changes no balance.
-/
namespace ContractStore.Token

def rowUnder (contract : Name) (table : String) (type : WireType) (key : type.Carrier)
    (store : MemoryStore) : Option Bytes := do
  let packed ← (type.pack key).toOption
  let raw ← (tableKey contract.account contract.contract table packed).toOption
  store.find? raw

def rows (contract : Name) (store : MemoryStore) : List Bytes :=
  match KeySpace.table.place contract.account contract.contract balances.name with
  | .ok place => (store.entries.filter fun entry => place.isPrefixOf entry.1).map Prod.snd
  | .error _ => []

def sumOf : List Balance → Nat
  | [] => 0
  | row :: rest => (Balance.amount row).toNat + sumOf rest

/-- The sum of the amounts of all rows of the balances table. -/
def total (contract : Name) (store : MemoryStore) : Except CodecError Nat := do
  let rows ← (rows contract store).mapM balanceSchema.type.unpack
  return sumOf rows

def supply (contract : Name) (store : MemoryStore) : Except CodecError Nat :=
  match rowUnder contract stats.name (.int .i32) singletonId store with
  | none => .ok 0
  | some bytes => (statsSchema.type.unpack bytes).map fun row => (Stats.totalSupply row).toNat

/-- The amount in a packed row, zero if it is not one. -/
def amountIn (bytes : Bytes) : Nat :=
  match balanceSchema.type.unpack bytes with
  | .ok row => (Balance.amount row).toNat
  | .error _ => 0

def held (contract who : Name) (store : MemoryStore) : Nat :=
  ((rowUnder contract balances.name .name who store).map amountIn).getD 0

def share (place raw bytes : Bytes) : Nat := if place.isPrefixOf raw then amountIn bytes else 0

def funds (contract : Name) (store : MemoryStore) : Nat :=
  match KeySpace.table.place contract.account contract.contract balances.name with
  | .ok place => store.weigh (share place)
  | .error _ => 0

def Decodes (contract : Name) (store : MemoryStore) : Prop :=
  ∀ place raw bytes,
    KeySpace.table.place contract.account contract.contract balances.name = .ok place →
      place.isPrefixOf raw = true → store.find? raw = some bytes →
        ∃ row, balanceSchema.type.unpack bytes = .ok row

section
variable {contract : Name} {limit : Nat} {store before after : MemoryStore}

theorem rowUnder_of_at {table : String} {type : WireType} {key : type.Carrier} {raw : Bytes}
    (lies : (contract.home limit).RowAt type table key raw) (store : MemoryStore) :
    rowUnder contract table type key store = store.find? raw := by
  obtain ⟨packed, encoded, place⟩ := lies
  have located : tableKey contract.account contract.contract table packed = .ok raw := place
  unfold rowUnder
  rw [type.pack_eq_encode, encoded]
  simp [Except.toOption, located]

theorem rowUnder_of_nowhere {table : String} {type : WireType} {key : type.Carrier}
    (nowhere : ¬ ∃ raw, (contract.home 0).RowAt type table key raw) (store : MemoryStore) :
    rowUnder contract table type key store = none := by
  unfold rowUnder
  rw [type.pack_eq_encode]
  cases encoded : type.encode key with
  | error cause => rfl
  | ok packed =>
    cases lies : tableKey contract.account contract.contract table packed with
    | error cause => simp [Except.toOption, lies]
    | ok raw => exact absurd ⟨raw, packed, encoded, lies⟩ nowhere

theorem rowUnder_congr {table : String} {type : WireType} {key : type.Carrier}
    (same : ∀ raw, (contract.home 0).RowAt type table key raw →
      after.find? raw = before.find? raw) :
    rowUnder contract table type key after = rowUnder contract table type key before := by
  by_cases somewhere : ∃ raw, (contract.home 0).RowAt type table key raw
  · obtain ⟨raw, lies⟩ := somewhere
    rw [rowUnder_of_at lies, rowUnder_of_at lies, same raw lies]
  · rw [rowUnder_of_nowhere somewhere, rowUnder_of_nowhere somewhere]

theorem held_congr {who : Name}
    (same : ∀ raw, (contract.home 0).RowAt .name balances.name who raw →
      after.find? raw = before.find? raw) :
    held contract who after = held contract who before := by
  unfold held
  rw [rowUnder_congr same]

theorem supply_congr
    (same : ∀ raw, (contract.home 0).RowAt (.int .i32) stats.name singletonId raw →
      after.find? raw = before.find? raw) :
    supply contract after = supply contract before := by
  unfold supply
  rw [rowUnder_congr same]

theorem sum_shares {place : Bytes} {entries : List (Bytes × Bytes)}
    (decodes : ∀ entry ∈ entries, place.isPrefixOf entry.1 = true →
      ∃ row, balanceSchema.type.unpack entry.2 = .ok row) :
    ∃ found, ((entries.filter fun entry => place.isPrefixOf entry.1).map Prod.snd).mapM
        balanceSchema.type.unpack = .ok found ∧
      sumOf found = SortedMap.weighEntries (share place) entries := by
  induction entries with
  | nil => exact ⟨[], rfl, rfl⟩
  | cons entry rest ih =>
    obtain ⟨found, unpacked, sum⟩ := ih fun other mem => decodes other (List.mem_cons_of_mem _ mem)
    by_cases own : place.isPrefixOf entry.1 = true
    · obtain ⟨row, first⟩ := decodes entry List.mem_cons_self own
      refine ⟨row :: found, ?_, ?_⟩
      · rw [List.filter_cons, if_pos own, List.map_cons, List.mapM_cons, first, unpacked]
        rfl
      · have amount : share place entry.1 entry.2 = (Balance.amount row).toNat := by
          simp [share, own, amountIn, first]
        rw [sumOf, SortedMap.weighEntries, sum, amount]
    · refine ⟨found, ?_, ?_⟩
      · rw [List.filter_cons, if_neg own, unpacked]
      · have nothing : share place entry.1 entry.2 = 0 := by simp [share, own]
        rw [SortedMap.weighEntries, sum, nothing, Nat.zero_add]

theorem total_eq_funds (decodes : Decodes contract store) :
    total contract store = .ok (funds contract store) := by
  unfold total rows funds
  cases lies : KeySpace.table.place contract.account contract.contract balances.name with
  | error cause => rfl
  | ok place =>
    obtain ⟨found, unpacked, sum⟩ := sum_shares fun entry mem own =>
      decodes place entry.1 entry.2 lies own (SortedMap.find?_eq_some_iff.2 mem)
    simp only [unpacked, bind, Except.bind, pure, Except.pure, sum]
    rfl

def InBalances (contract : Name) (raw : Bytes) : Prop :=
  ∃ place key,
    KeySpace.table.place contract.account contract.contract balances.name = .ok place ∧
      raw = place ++ key

/-- What a change of one balance comes to. -/
structure Sets (contract who : Name) (amount : Nat) (before after : MemoryStore) : Prop where
  funds : funds contract after + held contract who before = funds contract before + amount
  self : held contract who after = amount
  others : ∀ other, other ≠ who → held contract other after = held contract other before
  supply : supply contract after = supply contract before
  decodes : Decodes contract before → Decodes contract after

theorem isPrefixOf_iff_append {place raw : Bytes} :
    place.isPrefixOf raw = true ↔ ∃ key, raw = place ++ key := by
  rw [List.isPrefixOf_iff_prefix]
  exact ⟨fun ⟨key, same⟩ => ⟨key, same.symm⟩, fun ⟨key, same⟩ => ⟨key, same.symm⟩⟩

theorem sets_of_frame {who : Name} {raw : Bytes} {amount : Nat}
    (lies : (contract.home limit).RowAt .name balances.name who raw)
    (stored : ((after.find? raw).map amountIn).getD 0 = amount)
    (unpacks : ∀ bytes, after.find? raw = some bytes →
      ∃ row, balanceSchema.type.unpack bytes = .ok row)
    (frame : ∀ other, other ≠ raw → after.find? other = before.find? other)
    (weighed : ∀ weight : Bytes → Bytes → Nat,
      after.weigh weight + ((before.find? raw).map (weight raw)).getD 0 =
        before.weigh weight + ((after.find? raw).map (weight raw)).getD 0) :
    Sets contract who amount before after := by
  obtain ⟨packed, encoded, row⟩ := lies
  obtain ⟨place, placed, rest⟩ := bind_eq_ok row
  have split : raw = place ++ packed := (Except.ok.inj rest).symm
  have at_raw : (contract.home limit).RowAt .name balances.name who raw := ⟨packed, encoded, row⟩
  have own : place.isPrefixOf raw = true := isPrefixOf_iff_append.2 ⟨packed, split⟩
  constructor
  · have shares : share place raw = amountIn := by
      funext bytes
      simp [share, own]
    have sum := weighed (share place)
    rw [shares, stored] at sum
    have start : held contract who before = ((before.find? raw).map amountIn).getD 0 := by
      unfold held
      rw [rowUnder_of_at at_raw]
    have located : KeySpace.table.place contract.account contract.contract balances.name =
      .ok place := placed
    unfold Token.funds
    rw [located, start]
    exact sum
  · unfold held
    rw [rowUnder_of_at at_raw, stored]
  · -- another holder's row has another raw key, and so has the stats row
    intro other ne
    refine held_congr fun raw' lies' => frame raw' ?_
    rintro rfl
    exact ne (lies'.key_unique at_raw)
  · refine supply_congr fun raw' lies' => frame raw' ?_
    rintro rfl
    exact absurd (at_raw.table_unique lies') (by decide)
  · intro decodes place' raw' bytes located own' found
    by_cases same : raw' = raw
    · rw [same] at found
      exact unpacks bytes found
    · rw [frame raw' same] at found
      exact decodes place' raw' bytes located own' found

theorem sets_insert {who : Name} {raw bytes : Bytes} {amount : Amount}
    (lies : (contract.home limit).RowAt .name balances.name who raw)
    (encoded : balanceSchema.type.encode (Balance.mk who amount) = .ok bytes)
    (store : MemoryStore) :
    Sets contract who amount.toNat store (store.insert raw bytes) := by
  have unpacked : balanceSchema.type.unpack bytes = .ok (Balance.mk who amount) :=
    WireType.unpack_of_encode encoded
  have stored := SortedMap.find?_insert_self store raw bytes
  refine sets_of_frame lies ?_ ?_ ?_ ?_
  · rw [stored]
    change amountIn bytes = _
    unfold amountIn
    rw [unpacked]
    rfl
  · intro found is
    rw [stored] at is
    cases is
    exact ⟨_, unpacked⟩
  · intro other ne
    exact SortedMap.find?_insert_of_ne store bytes ne
  · intro weight
    rw [stored]
    exact SortedMap.weigh_insert weight store raw bytes

theorem sets_erase {who : Name} {raw : Bytes}
    (lies : (contract.home limit).RowAt .name balances.name who raw) (store : MemoryStore) :
    Sets contract who 0 store (store.erase raw) := by
  have stored := SortedMap.find?_erase_self store raw
  refine sets_of_frame lies ?_ ?_ ?_ ?_
  · rw [stored]
    rfl
  · intro found is
    rw [stored] at is
    cases is
  · intro other ne
    exact SortedMap.find?_erase_of_ne store ne
  · intro weight
    rw [stored]
    exact SortedMap.weigh_erase weight store raw

theorem sets_nothing (contract who : Name) (store : MemoryStore) :
    ∃ after, Sets contract who 0 store after := by
  by_cases somewhere : ∃ raw, (contract.home 0).RowAt .name balances.name who raw
  · obtain ⟨raw, lies⟩ := somewhere
    exact ⟨store.erase raw, sets_erase lies store⟩
  · have nothing : held contract who store = 0 := by
      unfold held
      rw [rowUnder_of_nowhere somewhere]
      rfl
    refine ⟨store, ?_, nothing, fun _ _ => rfl, rfl, fun decodes => decodes⟩
    rw [nothing]

theorem held_le_funds (contract who : Name) (store : MemoryStore) :
    held contract who store ≤ funds contract store := by
  obtain ⟨after, sets⟩ := sets_nothing contract who store
  have sum := sets.funds
  omega

theorem held_add_held_le_funds (contract : Name) {who other : Name} (ne : other ≠ who)
    (store : MemoryStore) :
    held contract who store + held contract other store ≤ funds contract store := by
  obtain ⟨after, sets⟩ := sets_nothing contract who store
  have sum := sets.funds
  have rest := held_le_funds contract other after
  rw [sets.others other ne] at rest
  omega

structure Spares (contract : Name) (before after : MemoryStore) : Prop where
  funds : funds contract after = funds contract before
  held : ∀ who, held contract who after = held contract who before
  decodes : Decodes contract before → Decodes contract after

theorem spares_insert {raw : Bytes} (foreign : ¬ InBalances contract raw) (store : MemoryStore)
    (bytes : Bytes) : Spares contract store (store.insert raw bytes) := by
  have outside {place : Bytes}
      (located :
        KeySpace.table.place contract.account contract.contract balances.name = .ok place) :
      ¬ place.isPrefixOf raw = true := by
    intro own
    obtain ⟨key, split⟩ := isPrefixOf_iff_append.1 own
    exact foreign ⟨place, key, located, split⟩
  constructor
  · unfold Token.funds
    cases located : KeySpace.table.place contract.account contract.contract balances.name with
    | error cause => rfl
    | ok place =>
      have sum := SortedMap.weigh_insert (share place) store raw bytes
      have nothing : share place raw = fun _ => 0 := by
        funext stored
        simp [share, outside located]
      have before : ((store.find? raw).map (share place raw)).getD 0 = 0 := by
        rw [nothing]
        cases store.find? raw <;> rfl
      rw [before, nothing] at sum
      exact sum
  · intro who
    refine held_congr fun raw' lies => SortedMap.find?_insert_of_ne store bytes ?_
    rintro rfl
    obtain ⟨packed, _, row⟩ := lies
    obtain ⟨place, placed, rest⟩ := bind_eq_ok row
    exact foreign ⟨place, packed, placed, (Except.ok.inj rest).symm⟩
  · intro decodes place raw' stored located own found
    have ne : raw' ≠ raw := by
      rintro rfl
      exact outside located own
    rw [SortedMap.find?_insert_of_ne store bytes ne] at found
    exact decodes place raw' stored located own found

/-! What the token's own steps do, if they succeed. -/

theorem balanceOf_eq_ok {who : Name} {amount : Amount}
    (h : (contract.home limit).perform (balanceOf who) before = (.ok amount, after)) :
    after = before ∧ held contract who before = amount.toNat := by
  obtain ⟨row, between, read, ended⟩ := Namespace.perform_bind_eq_ok h
  obtain ⟨rfl, raw, found, lies, decoded, rfl⟩ := Namespace.getOrDefault_eq_ok read
  cases ended
  refine ⟨rfl, ?_⟩
  unfold held
  rw [rowUnder_of_at lies]
  generalize after.find? raw = stored at decoded ⊢
  cases decoded with
  | none => rfl
  | some unpacked =>
    rename_i bytes row
    have amount : amountIn bytes = (Balance.amount row).toNat := by
      unfold amountIn
      rw [unpacked]
    exact amount

theorem sets_setBalance {who : Name} {amount : Amount}
    (h : (contract.home limit).perform (setBalance who amount) before = (.ok (), after)) :
    Sets contract who amount.toNat before after := by
  obtain ⟨raw, bytes, lies, encoded, rfl⟩ := Namespace.insert_eq_ok h
  exact sets_insert lies encoded before

theorem sets_remove {who : Name}
    (h : (contract.home limit).perform (balances.remove who) before = (.ok (), after)) :
    Sets contract who 0 before after := by
  obtain ⟨raw, lies, rfl⟩ := Namespace.remove_eq_ok h
  exact sets_erase lies before

theorem not_inBalances_of_stats {raw : Bytes}
    (lies : (contract.home limit).SingletonAt stats.name raw) : ¬ InBalances contract raw := by
  rintro ⟨place, key, located, split⟩
  obtain ⟨packed, _, row⟩ := lies
  obtain ⟨place', placed, rest⟩ := bind_eq_ok row
  have same : place ++ key = place' ++ packed := split.symm.trans (Except.ok.inj rest).symm
  have names := (KeySpace.eq_of_place_append located placed same).2.2.2.1
  exact absurd names (by decide)

theorem not_inBalances_of_slot {slot : String} {raw : Bytes}
    (lies : (contract.home limit).slotKey slot = .ok raw) : ¬ InBalances contract raw := by
  rintro ⟨place, key, located, split⟩
  have same : place ++ key = raw ++ [] := by rw [List.append_nil, split]
  have spaces := (KeySpace.eq_of_place_append located lies same).1
  cases spaces

theorem spares_create {symbol : String} {totalSupply : Amount} {looked : MemoryStore} {row : Stats}
    (absent : (contract.home limit).perform stats.exists? before = (.ok false, looked))
    (h : (contract.home limit).perform (stats.getOrCreate (Stats.mk symbol totalSupply)) looked =
      (.ok row, after)) :
    supply contract before = .ok 0 ∧ supply contract after = .ok totalSupply.toNat ∧
      Spares contract before after := by
  obtain ⟨rfl, rfl, raw, bytes, lies, nothing, encoded, rfl⟩ :=
    Namespace.getOrCreate_of_missing absent h
  refine ⟨?_, ?_, spares_insert (not_inBalances_of_stats lies) looked bytes⟩
  · unfold supply
    rw [rowUnder_of_at lies, nothing]
  · have unpacked := WireType.unpack_of_encode encoded
    unfold supply
    rw [rowUnder_of_at lies, SortedMap.find?_insert_self]
    change (statsSchema.type.unpack bytes).map _ = _
    rw [unpacked]
    rfl

theorem spares_memo {value : memoType.Carrier}
    (h : (contract.home limit).perform ((Slot.mk "memo").put memoType value) before =
      (.ok (), after)) :
    supply contract after = supply contract before ∧ Spares contract before after := by
  obtain ⟨raw, bytes, lies, _, rfl⟩ := Namespace.put_eq_ok h
  refine ⟨?_, spares_insert (not_inBalances_of_slot lies) before bytes⟩
  refine supply_congr fun raw' lies' => SortedMap.find?_insert_of_ne before bytes ?_
  rintro rfl
  obtain ⟨packed, _, row⟩ := lies'
  exact tableKey_ne_storageKey row lies

end

end ContractStore.Token
