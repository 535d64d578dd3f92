import ContractStore.Proofs.Token.Balances
import ContractStore.Proofs.Token.Invocation

/-!
What a token's store holds, entry by entry: the stats row, a balance under its own owner, the memo.
Creating the token puts the stats row, once; all else that a method does to the store is a run of
edits, each of one balance or of the memo (`Edits`), and what one edit keeps every call keeps.
-/
namespace ContractStore.Token

inductive Entry (contract : Name) (raw bytes : Bytes) : Prop where
  | stats (packed : Bytes) (row : Stats)
      (key : (WireType.int .i32).pack singletonId = .ok packed)
      (lies : tableKey contract.account contract.contract stats.name packed = .ok raw)
      (unpacks : statsSchema.type.unpack bytes = .ok row)
      (sentinel : statsSchema.idOf row = singletonId)
  | balance (packed : Bytes) (row : Balance)
      (key : WireType.name.pack (Balance.owner row) = .ok packed)
      (lies : tableKey contract.account contract.contract balances.name packed = .ok raw)
      (unpacks : balanceSchema.type.unpack bytes = .ok row)
  | memo (value : memoType.Carrier)
      (lies : storageKey contract.account contract.contract "memo" = .ok raw)
      (unpacks : memoType.unpack bytes = .ok value)

def WellFormed (contract : Name) (store : MemoryStore) : Prop :=
  ∀ raw bytes, store.find? raw = some bytes → Entry contract raw bytes

def statsRow (contract : Name) (store : MemoryStore) : Option Bytes :=
  rowUnder contract stats.name (.int .i32) singletonId store

/-- A well-formed store with the given stats row. -/
structure Holds (contract : Name) (row : Option Bytes) (store : MemoryStore) : Prop where
  entries : WellFormed contract store
  recorded : statsRow contract store = row

variable {contract : Name} {limit : Nat} {host host' : Host} {before after store : MemoryStore}
  {raw bytes : Bytes} {row : Option Bytes}

theorem wellFormed_insert (entries : WellFormed contract store) (entry : Entry contract raw bytes) :
    WellFormed contract (store.insert raw bytes) := by
  intro other stored found
  by_cases same : other = raw
  · subst same
    rw [SortedMap.find?_insert_self] at found
    cases found
    exact entry
  · rw [SortedMap.find?_insert_of_ne store bytes same] at found
    exact entries other stored found

theorem wellFormed_erase (entries : WellFormed contract store) (raw : Bytes) :
    WellFormed contract (store.erase raw) := by
  intro other stored found
  by_cases same : other = raw
  · subst same
    rw [SortedMap.find?_erase_self] at found
    cases found
  · rw [SortedMap.find?_erase_of_ne store same] at found
    exact entries other stored found

theorem statsRow_of_at (lies : (contract.home limit).SingletonAt stats.name raw)
    (store : MemoryStore) : statsRow contract store = store.find? raw :=
  rowUnder_of_at lies store

theorem Holds.insert (state : Holds contract row store) (entry : Entry contract raw bytes)
    (foreign : ¬ (contract.home 0).SingletonAt stats.name raw) :
    Holds contract row (store.insert raw bytes) := by
  refine ⟨wellFormed_insert state.entries entry, (rowUnder_congr fun other lies => ?_).trans
    state.recorded⟩
  apply SortedMap.find?_insert_of_ne
  rintro rfl
  exact foreign lies

theorem Holds.erase (state : Holds contract row store)
    (foreign : ¬ (contract.home 0).SingletonAt stats.name raw) :
    Holds contract row (store.erase raw) := by
  refine ⟨wellFormed_erase state.entries raw, (rowUnder_congr fun other lies => ?_).trans
    state.recorded⟩
  apply SortedMap.find?_erase_of_ne
  rintro rfl
  exact foreign lies

theorem not_stats_of_balance {who : Name}
    (lies : (contract.home limit).RowAt .name balances.name who raw) :
    ¬ (contract.home 0).SingletonAt stats.name raw := by
  intro singleton
  exact absurd (lies.table_unique singleton) (by decide)

theorem not_stats_of_slot {slot : String}
    (lies : (contract.home limit).slotKey slot = .ok raw) :
    ¬ (contract.home 0).SingletonAt stats.name raw := by
  rintro ⟨packed, _, row⟩
  exact tableKey_ne_storageKey row lies

theorem entry_of_balance {who : Name} {amount : Amount}
    (lies : (contract.home limit).RowAt .name balances.name who raw)
    (encoded : balanceSchema.type.encode (Balance.mk who amount) = .ok bytes) :
    Entry contract raw bytes := by
  have unpacked : balanceSchema.type.unpack bytes = .ok (Balance.mk who amount) :=
    WireType.unpack_of_encode encoded
  obtain ⟨packed, key, placed⟩ := lies
  have key : WireType.name.pack who = .ok packed := (WireType.name.pack_eq_encode who).trans key
  exact .balance packed (Balance.mk who amount) key placed unpacked

/-- A change of one entry beside the stats row. -/
inductive Edit (contract : Name) (before : MemoryStore) : MemoryStore → Prop where
  | balance {limit : Nat} {who : Name} {amount : Amount} {raw bytes : Bytes}
      (lies : (contract.home limit).RowAt .name balances.name who raw)
      (encoded : balanceSchema.type.encode (Balance.mk who amount) = .ok bytes) :
      Edit contract before (before.insert raw bytes)
  | removed {limit : Nat} {who : Name} {raw : Bytes}
      (lies : (contract.home limit).RowAt .name balances.name who raw) :
      Edit contract before (before.erase raw)
  | memo {limit : Nat} {value : memoType.Carrier} {raw bytes : Bytes}
      (lies : (contract.home limit).slotKey "memo" = .ok raw)
      (encoded : memoType.encode value = .ok bytes) :
      Edit contract before (before.insert raw bytes)

inductive Edits (contract : Name) : MemoryStore → MemoryStore → Prop where
  | nil (store : MemoryStore) : Edits contract store store
  | cons {before middle after : MemoryStore} (edit : Edit contract before middle)
      (rest : Edits contract middle after) : Edits contract before after

theorem Edit.once (edit : Edit contract before after) : Edits contract before after :=
  .cons edit (.nil after)

theorem Edits.trans {middle : MemoryStore} (first : Edits contract before middle)
    (later : Edits contract middle after) : Edits contract before after := by
  induction first with
  | nil => exact later
  | cons edit rest ih => exact .cons edit (ih later)

theorem Holds.edit (state : Holds contract row before) (edit : Edit contract before after) :
    Holds contract row after := by
  cases edit with
  | balance lies encoded =>
    exact state.insert (entry_of_balance lies encoded) (not_stats_of_balance lies)
  | removed lies => exact state.erase (not_stats_of_balance lies)
  | memo lies encoded =>
    have unpacked := WireType.unpack_of_encode encoded
    exact state.insert (.memo _ lies unpacked) (not_stats_of_slot lies)

theorem Holds.edits (state : Holds contract row before) (edits : Edits contract before after) :
    Holds contract row after := by
  induction edits with
  | nil => exact state
  | cons edit rest ih => exact ih (state.edit edit)

/-! Each step of the token, if it succeeds. -/

theorem edits_setBalance {who : Name} {amount : Amount}
    (h : (contract.home limit).perform (setBalance who amount) before = (.ok (), after)) :
    Edits contract before after := by
  obtain ⟨raw, bytes, lies, encoded, rfl⟩ := Namespace.insert_eq_ok h
  exact (Edit.balance lies encoded).once

theorem edits_remove {who : Name}
    (h : (contract.home limit).perform (balances.remove who) before = (.ok (), after)) :
    Edits contract before after := by
  obtain ⟨raw, lies, rfl⟩ := Namespace.remove_eq_ok h
  exact (Edit.removed lies).once

theorem edits_memo {value : memoType.Carrier}
    (h : (contract.home limit).perform ((Slot.mk "memo").put memoType value) before =
      (.ok (), after)) : Edits contract before after := by
  obtain ⟨raw, bytes, lies, encoded, rfl⟩ := Namespace.put_eq_ok h
  exact (Edit.memo lies encoded).once

theorem edits_credit {who : Name} {amount : Amount}
    (h : Call.Ends (contract.home limit) (credit who amount) host before () host' after) :
    Edits contract before after := by
  obtain ⟨_, _, looked, written⟩ := ends_credit h
  obtain ⟨rfl, _⟩ := balanceOf_eq_ok looked
  exact edits_setBalance written

theorem edits_debit {who : Name} {amount : Amount}
    (h : Call.Ends (contract.home limit) (debit who amount) host before () host' after) :
    Edits contract before after := by
  obtain ⟨_, _, _, looked, _, written⟩ := ends_debit h
  obtain ⟨rfl, _⟩ := balanceOf_eq_ok looked
  exact edits_setBalance written

theorem edits_pay {owner recipient : Name} {amount : Amount} {u : Unit}
    (h : Call.Ends (contract.home limit) (pay owner recipient amount) host before u host' after) :
    Edits contract before after := by
  obtain ⟨_, middle, received, paid⟩ := ends_pay h
  exact (edits_credit received).trans (edits_debit paid)

theorem edits_payments {owner : Name} {amount : Amount} {recipients : List Name} {u : Unit}
    (h : Call.Ends (contract.home limit)
      (recipients.forM fun recipient => pay owner recipient amount) host before u host' after) :
    Edits contract before after := by
  induction recipients generalizing host before with
  | nil =>
    cases h
    exact .nil after
  | cons recipient rest ih =>
    obtain ⟨_, between, middle, first, later⟩ := Call.ends_bind h
    exact (edits_pay first).trans (ih later)

theorem holds_stats {symbol : String} {totalSupply : Amount} {made : Stats}
    (state : Holds contract row before)
    (absent : (contract.home limit).perform stats.exists? before = (.ok false, before))
    (h : (contract.home limit).perform (stats.getOrCreate (Stats.mk symbol totalSupply)) before =
      (.ok made, after)) :
    row = none ∧ ∃ bytes, Holds contract (some bytes) after := by
  obtain ⟨_, rfl, raw, bytes, lies, nothing, encoded, rfl⟩ :=
    Namespace.getOrCreate_of_missing absent h
  have unpacked := WireType.unpack_of_encode encoded
  have located := lies
  obtain ⟨packed, key, placed⟩ := lies
  have entry : Entry contract raw bytes :=
    .stats packed _ ((WireType.pack_eq_encode _ _).trans key) placed unpacked rfl
  refine ⟨?_, bytes, wellFormed_insert state.entries entry, ?_⟩
  · rw [← state.recorded, statsRow_of_at located, nothing]
  · rw [statsRow_of_at located, SortedMap.find?_insert_self]

theorem holds_create {symbol : String} {totalSupply : Amount} {ctx : CallContext}
    (state : Holds contract row before)
    (h : Call.Ends (contract.home limit) (create symbol totalSupply ctx) host before () host'
      after) : row = none ∧ ∃ bytes, Holds contract (some bytes) after := by
  obtain ⟨_, absent, made, _, _, created, received⟩ := ends_create h
  obtain ⟨none, bytes, between⟩ := holds_stats state absent created
  exact ⟨none, bytes, between.edits (edits_credit received)⟩

namespace Invocation

theorem ran_create {call : Invocation} (named : call.method = "create")
    (ended : call.committed contract store = true) :
    ∃ symbol totalSupply,
      call.Runs contract (create symbol totalSupply) store (call.storeAfter contract store) := by
  cases call.done_of_committed ended with
  | create symbol totalSupply _ ran => exact ⟨symbol, totalSupply, ran⟩
  | transfer target amount other ran => exact absurd (named.symm.trans other) (by decide)
  | airdrop recipients amount other given ran => exact absurd (named.symm.trans other) (by decide)
  | close other ran => exact absurd (named.symm.trans other) (by decide)
  | memo value other ran => exact absurd (named.symm.trans other) (by decide)

theorem holds_of_create {call : Invocation} (state : Holds contract row store)
    (named : call.method = "create") (ended : call.committed contract store = true) :
    row = none ∧ ∃ bytes, Holds contract (some bytes) (call.storeAfter contract store) := by
  obtain ⟨symbol, totalSupply, ran⟩ := ran_create named ended
  exact holds_create state ran

theorem edits_of_other {call : Invocation}
    (other : ¬ (call.method = "create" ∧ call.committed contract store = true)) :
    Edits contract store (call.storeAfter contract store) := by
  cases ended : call.committed contract store with
  | false =>
    rw [call.storeAfter_of_not_committed ended]
    exact .nil store
  | true =>
    cases call.done_of_committed ended with
    | create symbol totalSupply named ran => exact absurd ⟨named, ended⟩ other
    | transfer target amount named ran =>
      obtain ⟨_, _, _, paid, received⟩ := ends_transfer ran
      exact (edits_debit paid).trans (edits_credit received)
    | airdrop recipients amount named given ran =>
      obtain ⟨_, payments⟩ := ends_airdrop ran
      exact edits_payments payments
    | close named ran =>
      obtain ⟨looked, read, removed⟩ := ends_close ran
      obtain ⟨rfl, _⟩ := balanceOf_eq_ok read
      exact edits_remove removed
    | memo value named ran =>
      obtain ⟨_, written⟩ := Call.ends_action ran
      exact edits_memo written

theorem holds_of_other {call : Invocation} (state : Holds contract row store)
    (other : ¬ (call.method = "create" ∧ call.committed contract store = true)) :
    Holds contract row (call.storeAfter contract store) := state.edits (edits_of_other other)

end Invocation

theorem holds_empty (contract : Name) : Holds contract none SortedMap.empty := by
  constructor
  · intro raw bytes found
    cases found
  · by_cases somewhere : ∃ raw, (contract.home 0).SingletonAt stats.name raw
    · obtain ⟨raw, lies⟩ := somewhere
      exact statsRow_of_at lies SortedMap.empty
    · exact rowUnder_of_nowhere somewhere SortedMap.empty

/-- A stats row that is there stays as it is. -/
theorem Holds.after_all {stored : Bytes} (state : Holds contract (some stored) store)
    (calls : List Invocation) :
    Holds contract (some stored) (storeAfterAll contract calls store) := by
  induction calls generalizing store with
  | nil => exact state
  | cons call rest ih =>
    apply ih
    apply Invocation.holds_of_other state
    rintro ⟨named, ended⟩
    have missing := (Invocation.holds_of_create state named ended).1
    cases missing

theorem holds_after_all (state : Holds contract row store) (calls : List Invocation) :
    ∃ later, Holds contract later (storeAfterAll contract calls store) := by
  induction calls generalizing store row with
  | nil => exact ⟨row, state⟩
  | cons call rest ih =>
    by_cases creates : call.method = "create" ∧ call.committed contract store = true
    · obtain ⟨_, bytes, created⟩ := Invocation.holds_of_create state creates.1 creates.2
      exact ih created
    · exact ih (Invocation.holds_of_other state creates)

end ContractStore.Token
