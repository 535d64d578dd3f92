import ContractStore.Contracts.Vault
import ContractStore.Proofs.Table.AllOrNothing
import ContractStore.Proofs.Table.External
import ContractStore.Proofs.Table.Stored
import ContractStore.Proofs.Token.Filed
import ContractStore.Proofs.Token.Reachable

/-!
A vault's snapshots are faithful. The vault stores the row that it reads from the token as it is,
under the owner that the row names; because the token's rows lie under their owners
(`filed_after_all`), that is the account that was asked for. This holds whoever else calls the token
or a vault in between, and also for a vault under the token's own name.
-/
namespace ContractStore.Vault

def token : Name := Name.contractOf "initminer" "token"

inductive Event where
  | token (call : Token.Invocation)
  | vault (name : Name) (call : Token.Invocation)

def execute (name : Name) (call : Token.Invocation) (store : MemoryStore) :
    Except ContractError Receipt × Host × MemoryStore :=
  call.limits.call contract (call.context name) call.host store

def Event.storeAfter (store : MemoryStore) : Event → MemoryStore
  | token call => call.storeAfter Vault.token store
  | vault name call => (execute name call store).2.2

def storeAfterAll (events : List Event) (store : MemoryStore) : MemoryStore :=
  events.foldl Event.storeAfter store

/-- What is done with the row that was read: it has to hold enough, and is stored. -/
def keep (who : Name) (least : Amount) (row : Token.Balance) : Call Unit := do
  Call.ensure (least.toNat ≤ (Token.Balance.amount row).toNat)
    s!"{who.text} holds {(Token.Balance.amount row).toNat}"
  snapshots.insert Token.Balance.initial fun _ => row

section Runs
variable {n : Namespace} {who : Name} {least : Amount} {host host' : Host}
  {before after store : MemoryStore} {row : Token.Balance}

theorem readsOnly_balance (who : Name) : (Token.balances.get who).ReadsOnly :=
  readsOnly_bind (readsOnly_ofCodec (WireType.name.pack who)) fun packed =>
    readsOnly_get Token.balanceSchema.type Token.balances.name packed

theorem run_snapshot (n : Namespace) (who : Name) (least : Amount) (host : Host)
    (store : MemoryStore) :
    n.run ((snapshot who least).run host) store =
      match ((token.home 0).perform (Token.balances.get who) store).1 with
      | .ok row => n.run ((keep who least row).run host) store
      | .error cause => ((.error cause, host), store) := by
  have location : (⟨some ⟨"initminer", "token", "balances"⟩⟩ :
      ExternalTable Token.balanceSchema).location =
        some ⟨(token.home 0).owner, (token.home 0).contract, "balances"⟩ := by decide
  have bound : n.perform (Action.ofState watched) store =
      (.ok ⟨some ⟨"initminer", "token", "balances"⟩⟩, store) := by rfl
  have looked := ExternalTable.perform_get_eq n store location who
  have kept : (token.home 0).perform ((⟨"balances"⟩ : Table Token.balanceSchema).get who) store =
      (((token.home 0).perform (Token.balances.get who) store).1, store) :=
    (token.home 0).run_of_readsOnly (readsOnly_balance who) store
  unfold snapshot
  rw [Call.run_bind, Call.run_action, bound]
  dsimp only
  rw [Call.run_bind, Call.run_action, looked, kept]
  cases ((token.home 0).perform (Token.balances.get who) store).1 <;> rfl

theorem run_keep (n : Namespace) (who : Name) (least : Amount) (row : Token.Balance) (host : Host)
    (store : MemoryStore) :
    n.run ((keep who least row).run host) store =
      if least.toNat ≤ (Token.Balance.amount row).toNat then
        let stored := n.perform (snapshots.insert Token.Balance.initial fun _ => row) store
        ((stored.1, host), stored.2)
      else ((.error (.assertion s!"{who.text} holds {(Token.Balance.amount row).toNat}"), host),
        store) := by
  unfold keep
  rw [Call.run_bind, Call.run_ensure]
  by_cases enough : least.toNat ≤ (Token.Balance.amount row).toNat
  · rw [if_pos enough, decide_eq_true enough]
    exact Call.run_action n _ host store
  · rw [if_neg enough, decide_eq_false enough]
    rfl

/-- All that a snapshot can change is one row of the vault's own table. -/
theorem ends_snapshot (h : Call.Ends n (snapshot who least) host before () host' after) :
    ∃ owner raw bytes,
      n.RowAt .name snapshots.name owner raw ∧ after = before.insert raw bytes := by
  unfold Call.Ends at h
  rw [run_snapshot] at h
  split at h
  · rename_i row read
    rw [run_keep] at h
    split at h
    · have outcome := congrArg (fun done => done.1.1) h
      have written := congrArg Prod.snd h
      obtain ⟨raw, bytes, lies, _, same⟩ := Namespace.insert_eq_ok (Prod.ext outcome written)
      exact ⟨_, raw, bytes, lies, same⟩
    · cases h
  · cases h

/-! The invariant that a snapshot needs of the token's rows. -/

theorem filed_of_vault {name : Name} {call : Token.Invocation} (filed : Token.Filed token store) :
    Token.Filed token (execute name call store).2.2 := by
  cases result : (execute name call store).1 with
  | error cause =>
    have same : (execute name call store).2.2 = store :=
      Limits.store_of_execute_error _ _ _ result
    rw [same]
    exact filed
  | ok receipt =>
    have executed : execute name call store =
        (.ok receipt, (execute name call store).2.1, (execute name call store).2.2) :=
      Prod.ext result rfl
    obtain ⟨_, ran⟩ := Limits.ends_of_execute executed
    obtain ⟨m, mem, _, args, _, ran⟩ := Call.ends_dispatch ran
    cases List.mem_singleton.1 mem
    obtain ⟨who, least, ⟨⟩⟩ := args
    obtain ⟨owner, raw, bytes, lies, written⟩ := ends_snapshot ran
    rw [written]
    exact filed.insert_elsewhere (Token.not_balance_of_table lies (by decide)) bytes

theorem filed_after_all (events : List Event) (filed : Token.Filed token store) :
    Token.Filed token (storeAfterAll events store) := by
  induction events generalizing store with
  | nil => exact filed
  | cons event rest ih =>
    cases event with
    | token call => exact ih (Token.Invocation.filed_after filed)
    | vault name call => exact ih (filed_of_vault filed)

end Runs

/-! One snapshot of an account whose name packs. -/

section Snapshot
variable {name who : Name} {least : Amount} {call : Token.Invocation} {store : MemoryStore}

def balanceRow (who : Name) (store : MemoryStore) : Option Bytes :=
  Token.rowUnder token Token.balances.name .name who store

theorem rowAt_of_packs {name who : Name} (limit : Nat) {table : String}
    (short : (Bytes.ofString name.text).length < Varint.bound)
    (short' : (Bytes.ofString table).length < Varint.bound) (packs : WireType.name.Packs who) :
    ∃ raw, (name.home limit).RowAt .name table who raw := by
  obtain ⟨packed, encoded⟩ := packs
  have account := Nat.lt_of_le_of_lt name.length_account_le short
  have contract := Nat.lt_of_le_of_lt name.length_contract_le short
  obtain ⟨front, place⟩ := KeySpace.table.place_of_fits ⟨account, contract, short'⟩
  exact ⟨front ++ packed, packed, encoded, tableKey_of_place place packed⟩

inductive Found (who : Name) (store : MemoryStore) : Except ContractError Token.Balance → Prop where
  | missing (absent : balanceRow who store = none) :
      Found who store (.error (.state (.keyNotFound "balances")))
  | present {bytes : Bytes} (amount : Amount) (stored : balanceRow who store = some bytes)
      (unpacked : Token.balanceSchema.type.unpack bytes = .ok (Token.Balance.mk who amount)) :
      Found who store (.ok (Token.Balance.mk who amount))

theorem found_of_filed (filed : Token.Filed token store) (packs : WireType.name.Packs who) :
    Found who store ((token.home 0).perform (Token.balances.get who) store).1 := by
  obtain ⟨raw, lies⟩ : ∃ raw, (token.home 0).RowAt .name Token.balances.name who raw :=
    rowAt_of_packs 0 (by decide) (by decide) packs
  have row : balanceRow who store = store.find? raw := Token.rowUnder_of_at lies store
  cases stored : store.find? raw with
  | none =>
    have got : Store.get store raw = .ok none := congrArg Except.ok stored
    have read : (token.home 0).perform (Token.balances.get who) store =
        (.error (.state (.keyNotFound "balances")), store) :=
      Namespace.perform_get_of_missing lies got
    rw [read]
    exact .missing (row.trans stored)
  | some bytes =>
    have got : Store.get store raw = .ok (some bytes) := congrArg Except.ok stored
    obtain ⟨amount, unpacked⟩ := filed who raw bytes lies stored
    have read : (token.home 0).perform (Token.balances.get who) store =
        (.ok (Token.Balance.mk who amount), store) :=
      Namespace.perform_get_of_stored lies got unpacked
    rw [read]
    exact .present amount (row.trans stored) unpacked

theorem stored_memory (store : MemoryStore) (raw bytes : Bytes) :
    Namespace.stored store raw bytes = (.ok (), store.insert raw bytes) := rfl

theorem perform_insert_snapshot {n : Namespace} {amount : Amount} {raw packed : Bytes}
    (store : MemoryStore)
    (lies : n.RowAt .name snapshots.name who raw)
    (encoded : Token.balanceSchema.type.encode (Token.Balance.mk who amount) = .ok packed)
    (small : packed.length ≤ n.recordLimit) :
    n.perform (snapshots.insert Token.Balance.initial fun _ => Token.Balance.mk who amount) store =
      (.ok (), store.insert raw packed) := by
  have own : n.RowAt Token.balanceSchema.keyType snapshots.name
      (Token.balanceSchema.keyOf (Token.Balance.mk who amount)) raw := lies
  rw [← stored_memory]
  exact Namespace.perform_insert_of_fits own encoded small

/-- A call that asks for a snapshot, and is within the limits that stand over calls and names. -/
structure Asks (name who : Name) (least : Amount) (call : Token.Invocation) : Prop where
  contract : name.isContract = true
  method : call.method = "snapshot"
  given : (WireType.tuple (.unlabelled [.name, .int .u64])).unpack call.args =
    .ok (who, least, ())
  shortArgs : call.args.length ≤ call.limits.maxArgsBytes
  shortName : (Bytes.ofString name.text).length < Varint.bound

inductive Outcome (name who : Name) (least : Amount) (call : Token.Invocation)
    (store : MemoryStore) : Except ContractError Receipt × Host × MemoryStore → Prop where
  | missing (absent : balanceRow who store = none) :
      Outcome name who least call store
        (.error (.state (.keyNotFound "balances")), call.host, store)
  | refused {bytes : Bytes} (amount : Amount) (stored : balanceRow who store = some bytes)
      (unpacked : Token.balanceSchema.type.unpack bytes = .ok (Token.Balance.mk who amount))
      (less : amount.toNat < least.toNat) (what : String) :
      Outcome name who least call store (.error (.assertion what), call.host, store)
  | copied {bytes raw packed : Bytes} (amount : Amount)
      (stored : balanceRow who store = some bytes)
      (unpacked : Token.balanceSchema.type.unpack bytes = .ok (Token.Balance.mk who amount))
      (enough : least.toNat ≤ amount.toNat) (receipt : Receipt)
      (lies : (name.home call.limits.maxRecordBytes).RowAt .name snapshots.name who raw)
      (encoded : Token.balanceSchema.type.encode (Token.Balance.mk who amount) = .ok packed) :
      Outcome name who least call store (.ok receipt, call.host, store.insert raw packed)

theorem Asks.packs (asks : Asks name who least call) : WireType.name.Packs who :=
  (WireRow.packs_cons.1 (WireType.packs_of_tuple (WireType.packs_of_unpack asks.given))).1

theorem run_dispatch (asks : Asks name who least call) (n : Namespace) (store : MemoryStore) :
    n.run ((contract.dispatch (call.context name)).run call.host) store =
      n.run ((snapshot who least).run call.host) store := by
  have named : contract.methods.find? (·.name == (call.context name).method) =
      contract.methods.head? := by
    change contract.methods.find? (·.name == call.method) = _
    rw [asks.method]
    rfl
  exact Call.run_dispatch n named asks.given call.host store

theorem outcome_of_asks (asks : Asks name who least call) (filed : Token.Filed token store)
    (room : ∀ amount packed,
      Token.balanceSchema.type.encode (Token.Balance.mk who amount) = .ok packed →
        packed.length ≤ call.limits.maxRecordBytes) :
    Outcome name who least call store (execute name call store) := by
  have ran := run_dispatch asks (name.home call.limits.maxRecordBytes) store
  rw [run_snapshot] at ran
  have found := found_of_filed filed asks.packs
  revert ran found
  generalize ((token.home 0).perform (Token.balances.get who) store).1 = read
  intro ran found
  cases found with
  | missing absent =>
    have failed : execute name call store = _ :=
      Limits.execute_of_failed asks.shortArgs asks.contract ran
    rw [failed]
    exact .missing absent
  | present amount stored unpacked =>
    dsimp only at ran
    rw [run_keep] at ran
    by_cases enough : least.toNat ≤ amount.toNat
    · obtain ⟨packed, encoded⟩ := Token.packs_balance asks.packs amount
      obtain ⟨raw, lies⟩ := rowAt_of_packs call.limits.maxRecordBytes asks.shortName
        (by decide : (Bytes.ofString snapshots.name).length < Varint.bound) asks.packs
      have inserted := perform_insert_snapshot store lies encoded
        (room amount packed encoded)
      rw [if_pos (by exact enough), inserted] at ran
      obtain ⟨receipt, ended⟩ : ∃ receipt, execute name call store =
          (.ok receipt, call.host, store.insert raw packed) :=
        Limits.execute_of_ends asks.shortArgs asks.contract ran
      rw [ended]
      exact .copied amount stored unpacked enough receipt lies encoded
    · rw [if_neg (by exact enough)] at ran
      have failed : execute name call store = _ :=
        Limits.execute_of_failed asks.shortArgs asks.contract ran
      rw [failed]
      exact .refused amount stored unpacked (by omega) _

end Snapshot

theorem length_balance {who : Name} {amount : Amount} {named packed : Bytes}
    (encoded : WireType.name.encode who = .ok named)
    (packs : Token.balanceSchema.type.pack (Token.Balance.mk who amount) = .ok packed) :
    packed.length = named.length + 9 := by
  rw [WireType.pack_eq_encode] at packs
  obtain ⟨fields, _, written, rfl⟩ := Encoding.sized_eq_ok packs
  obtain ⟨front, first, written⟩ := bind_eq_ok written
  cases first.symm.trans encoded
  cases written
  change (Varint.encode 2 ++ (named ++ (Bytes.ofNatLE 8 amount.toNat ++ []))).length = _
  have counted : (Varint.encode 2).length = 1 := by decide
  simp only [List.length_append, List.length_nil, counted, Bytes.length_ofNatLE]
  omega

/-- After any calls of the token and of vaults, a snapshot of `who` that is within the limits fails
for want of a row exactly if the token has none for `who`. The row that it has is the account's own;
the snapshot fails an assertion exactly if it holds less than what is asked for, and otherwise puts
that balance under `who` into the vault's own table, and nothing else anywhere. -/
theorem snapshots_are_faithful (events : List Event) (name who : Name) (least : Amount)
    (call : Token.Invocation) (asks : Asks name who least call)
    (room : ∀ amount packed,
      Token.balanceSchema.type.pack (Token.Balance.mk who amount) = .ok packed →
        packed.length ≤ call.limits.maxRecordBytes) :
    let store := storeAfterAll events SortedMap.empty
    let done := execute name call store
    (done.1 = .error (.state (.keyNotFound "balances")) ↔ balanceRow who store = none) ∧
      ∀ bytes, balanceRow who store = some bytes → ∃ amount,
        Token.balanceSchema.type.unpack bytes = .ok (Token.Balance.mk who amount) ∧
          ((∃ what, done.1 = .error (.assertion what)) ↔ amount.toNat < least.toNat) ∧
            (least.toNat ≤ amount.toNat → ∃ receipt raw packed,
              done = (.ok receipt, call.host, store.insert raw packed) ∧
                (name.home call.limits.maxRecordBytes).RowAt .name snapshots.name who raw ∧
                  Token.balanceSchema.type.unpack packed = .ok (Token.Balance.mk who amount)) := by
  intro store done
  have filed : Token.Filed token store := filed_after_all events (Token.filed_empty token)
  have outcome : Outcome name who least call store done := by
    refine outcome_of_asks asks filed fun amount packed encoded => room amount packed ?_
    rw [WireType.pack_eq_encode]
    exact encoded
  generalize done = ended at outcome ⊢
  cases outcome with
  | missing absent =>
    refine ⟨⟨fun _ => absent, fun _ => rfl⟩, fun bytes present => ?_⟩
    cases absent.symm.trans present
  | refused amount stored unpacked less what =>
    refine ⟨⟨nofun, fun absent => nomatch absent.symm.trans stored⟩, fun bytes present => ?_⟩
    cases stored.symm.trans present
    refine ⟨amount, unpacked, ⟨fun _ => less, fun _ => ⟨what, rfl⟩⟩, fun enough => ?_⟩
    omega
  | copied amount stored unpacked enough receipt lies encoded =>
    refine ⟨⟨nofun, fun absent => nomatch absent.symm.trans stored⟩, fun bytes present => ?_⟩
    cases stored.symm.trans present
    refine ⟨amount, unpacked, ⟨nofun, fun less => ?_⟩, fun _ => ?_⟩
    · omega
    · exact ⟨receipt, _, _, rfl, lies, WireType.unpack_of_encode encoded⟩

/-- A vault under the token's own name copies what is left of a balance that was copied before. -/
theorem vault_beside_token_copies_balance :
    let owner : Name := ⟨"initminer"⟩
    let host := Host.new.authorizeOnly owner
    let named : Bytes := 9 :: Bytes.ofString "initminer"
    let created : Token.Invocation :=
      ⟨.default, "create", [2, 1, 67, 9, 0, 0, 0, 0, 0, 0, 0], owner, host⟩
    let paid : Token.Invocation :=
      ⟨.default, "transfer", [2, 1, 97, 4, 0, 0, 0, 0, 0, 0, 0], owner, host⟩
    let asked : Token.Invocation :=
      ⟨.default, "snapshot", 2 :: named ++ [5, 0, 0, 0, 0, 0, 0, 0], ⟨"a"⟩, Host.new⟩
    let events : List Event := [.token created, .vault token asked, .token paid]
    let store := storeAfterAll events SortedMap.empty
    let row : Bytes := 2 :: named ++ [5, 0, 0, 0, 0, 0, 0, 0]
    Asks token owner 5 asked ∧ store.size = 4 ∧ balanceRow owner store = some row ∧
      ∃ receipt raw packed,
        execute token asked store = (.ok receipt, Host.new, store.insert raw packed) ∧
          (token.home Limits.default.maxRecordBytes).RowAt .name snapshots.name owner raw ∧
            Token.balanceSchema.type.unpack packed = .ok (Token.Balance.mk owner 5) := by
  intro owner host named created paid asked events store row
  have asks : Asks token owner 5 asked :=
    ⟨by decide, rfl, WireType.unpack_of_encode rfl, by decide, by decide⟩
  have room : ∀ amount packed,
      Token.balanceSchema.type.pack (Token.Balance.mk owner amount) = .ok packed →
        packed.length ≤ asked.limits.maxRecordBytes := by
    intro amount packed packs
    rw [length_balance (rfl : WireType.name.encode owner = .ok named) packs]
    decide
  have held : balanceRow owner store = some row := by decide +kernel
  obtain ⟨_, balances⟩ := snapshots_are_faithful events token owner 5 asked asks room
  obtain ⟨amount, unpacked, _, copies⟩ := balances row held
  have five : Token.balanceSchema.type.unpack row = .ok (Token.Balance.mk owner 5) :=
    WireType.unpack_of_encode rfl
  cases five.symm.trans unpacked
  exact ⟨asks, by decide +kernel, held, copies (by decide)⟩

end ContractStore.Vault
