import ContractStore.Proofs.Call.CodecSafe
import ContractStore.Proofs.Name
import ContractStore.Proofs.Token.Layout

/-!
Stores that calls of a token lead to. They are well formed, so what a method reads back from one
unpacks; and what it writes came out of the call's arguments, or is the name of the caller or of the
owner, so it packs. That leaves the arguments as what a codec failure can be about.
-/
namespace ContractStore.Token

variable {contract : Name} {limit : Nat} {store : MemoryStore} {row : Option Bytes} {who : Name}
  {amount : Amount}

theorem balance_decodes (entries : WellFormed contract store) (raw : Bytes)
    (lies : (contract.home limit).RowAt .name balances.name who raw) :
    ∃ found, Decoded balanceSchema.type (store.find? raw) found := by
  cases stored : store.find? raw with
  | none => exact ⟨none, .none⟩
  | some bytes =>
    obtain ⟨packed, _, place⟩ := lies
    cases entries raw bytes stored with
    | stats packed' row key lies' unpacks sentinel =>
      have names := (eq_of_tableKey place lies').2.2.1
      exact absurd names (by decide)
    | balance packed' row key lies' unpacks => exact ⟨some row, .some unpacks⟩
    | memo value lies' unpacks => exact absurd lies' (tableKey_ne_storageKey place)

theorem stats_decodes (entries : WellFormed contract store) (raw : Bytes)
    (lies : (contract.home limit).SingletonAt stats.name raw) :
    ∃ found, Decoded statsSchema.type (store.find? raw) found := by
  cases stored : store.find? raw with
  | none => exact ⟨none, .none⟩
  | some bytes =>
    obtain ⟨packed, _, place⟩ := lies
    cases entries raw bytes stored with
    | stats packed' row key lies' unpacks sentinel => exact ⟨some row, .some unpacks⟩
    | balance packed' row key lies' unpacks =>
      have names := (eq_of_tableKey place lies').2.2.1
      exact absurd names (by decide)
    | memo value lies' unpacks => exact absurd lies' (tableKey_ne_storageKey place)

theorem packs_name (fits : (Bytes.ofString who.text).length < Varint.bound) :
    WireType.name.Packs who := ⟨_, Encoding.text_of_fits fits⟩

theorem packs_balance (packs : WireType.name.Packs who) (amount : Amount) :
    balanceSchema.type.Packs (Balance.mk who amount) := by
  have fields : balanceSchema.fields.Packs (Balance.mk who amount) :=
    WireRow.packs_cons.2 ⟨packs, WireRow.packs_cons.2 ⟨⟨_, rfl⟩, ⟨_, rfl⟩⟩⟩
  exact Encoding.sized_of_small (by decide) fields

theorem packs_stats {symbol : String} (packs : WireType.string.Packs symbol)
    (totalSupply : Amount) :
    statsSchema.type.Packs (statsSchema.normalize (Stats.mk symbol totalSupply)) := by
  have own : statsSchema.own.Packs (symbol, totalSupply, ()) :=
    WireRow.packs_cons.2 ⟨packs, WireRow.packs_cons.2 ⟨⟨_, rfl⟩, ⟨_, rfl⟩⟩⟩
  exact Encoding.sized_of_small (by decide) (WireRow.packs_cons.2 ⟨⟨_, rfl⟩, own⟩)

theorem codecSafe_balanceOf (entries : WellFormed contract store)
    (packs : WireType.name.Packs who) :
    (contract.home limit).CodecSafe (balanceOf who) store := by
  refine Namespace.codecSafe_bind ?_ fun row between ran => Namespace.codecSafe_pure _
  exact Namespace.codecSafe_getOrDefault packs (balance_decodes entries)

theorem codecSafe_setBalance (packs : WireType.name.Packs who) :
    (contract.home limit).CodecSafe (setBalance who amount) store :=
  Namespace.codecSafe_insert packs (packs_balance packs amount)

theorem codecSafe_credit (entries : WellFormed contract store) (packs : WireType.name.Packs who) :
    Call.CodecSafe (contract.home limit) (credit who amount) store := by
  refine Call.codecSafe_bind (Call.codecSafe_action (codecSafe_balanceOf entries packs)) ?_
  intro host held between stored ran
  exact Call.codecSafe_action (codecSafe_setBalance packs)

theorem codecSafe_debit (entries : WellFormed contract store) (packs : WireType.name.Packs who) :
    Call.CodecSafe (contract.home limit) (debit who amount) store := by
  refine Call.codecSafe_bind (Call.codecSafe_action (codecSafe_balanceOf entries packs)) ?_
  intro host held between stored ran
  split
  · exact Call.codecSafe_action (codecSafe_setBalance packs)
  · exact Call.codecSafe_assertion _

theorem codecSafe_pay {owner recipient : Name} (entries : WellFormed contract store)
    (packs : WireType.name.Packs owner) (packs' : WireType.name.Packs recipient) :
    Call.CodecSafe (contract.home limit) (pay owner recipient amount) store := by
  refine Call.codecSafe_bind (codecSafe_credit entries packs') ?_
  intro host u between stored received
  exact codecSafe_debit (Holds.edits ⟨entries, rfl⟩ (edits_credit received)).entries packs

theorem codecSafe_payments {owner : Name} {recipients : List Name}
    (entries : WellFormed contract store) (packs : WireType.name.Packs owner)
    (packs' : ∀ recipient ∈ recipients, WireType.name.Packs recipient) :
    Call.CodecSafe (contract.home limit)
      (recipients.forM fun recipient => pay owner recipient amount) store := by
  induction recipients generalizing store with
  | nil =>
    intro host cause failed
    cases failed
  | cons recipient rest ih =>
    have first := packs' recipient List.mem_cons_self
    refine Call.codecSafe_bind (codecSafe_pay entries packs first) ?_
    intro host u between stored paid
    have entries' := (Holds.edits ⟨entries, rfl⟩ (edits_pay paid)).entries
    exact ih entries' fun other mem => packs' other (List.mem_cons_of_mem _ mem)

section Methods
variable {ctx : CallContext}

theorem codecSafe_create {symbol : String} {totalSupply : Amount}
    (entries : WellFormed contract store) (packs : WireType.string.Packs symbol)
    (packs' : WireType.name.Packs ⟨ctx.owner⟩) :
    Call.CodecSafe (contract.home limit) (create symbol totalSupply ctx) store := by
  apply Call.codecSafe_requireAuth_then
  refine Call.codecSafe_bind ?_ ?_
  · exact Call.codecSafe_action (Namespace.codecSafe_exists (stats_decodes entries))
  intro host present _ looked seen
  obtain ⟨_, found⟩ := Call.ends_action seen
  obtain ⟨rfl, _⟩ := Namespace.exists_eq_ok found
  apply Call.codecSafe_ensure_then
  intro missing
  have no : present = false := by simpa using missing
  subst no
  refine Call.codecSafe_bind ?_ ?_
  · have packs := packs_stats packs totalSupply
    exact Call.codecSafe_action (Namespace.codecSafe_getOrCreate (stats_decodes entries) packs)
  intro host made between stored created
  obtain ⟨_, created⟩ := Call.ends_action created
  obtain ⟨_, _, state⟩ := holds_stats ⟨entries, rfl⟩ found created
  exact codecSafe_credit state.entries packs'

theorem codecSafe_transfer {target : Name} (entries : WellFormed contract store)
    (packs : WireType.name.Packs ctx.caller) (packs' : WireType.name.Packs target) :
    Call.CodecSafe (contract.home limit) (transfer target amount ctx) store := by
  apply Call.codecSafe_requireAuth_then
  refine Call.codecSafe_bind (codecSafe_debit entries packs) ?_
  intro host _ between stored paid
  exact codecSafe_credit (Holds.edits ⟨entries, rfl⟩ (edits_debit paid)).entries packs'

theorem codecSafe_airdrop {recipients : List Name} (entries : WellFormed contract store)
    (packs : WireType.name.Packs ⟨ctx.owner⟩)
    (packs' : ∀ recipient ∈ recipients, WireType.name.Packs recipient) :
    Call.CodecSafe (contract.home limit) (airdrop recipients amount ctx) store := by
  apply Call.codecSafe_requireAuth_then
  exact codecSafe_payments entries packs packs'

theorem codecSafe_close (entries : WellFormed contract store)
    (packs : WireType.name.Packs ctx.caller) :
    Call.CodecSafe (contract.home limit) (close ctx) store := by
  refine Call.codecSafe_bind (Call.codecSafe_action (codecSafe_balanceOf entries packs)) ?_
  intro host held between stored seen
  apply Call.codecSafe_ensure_then
  intro _
  exact Call.codecSafe_action (Namespace.codecSafe_remove packs)

theorem codecSafe_memo {value : memoType.Carrier} (packs : memoType.Packs value) :
    Call.CodecSafe (contract.home limit) (memo value) store :=
  Call.codecSafe_action (Namespace.codecSafe_put packs)

end Methods

theorem codecSafe_method {m : Method} {args : m.params.Carrier} {ctx : CallContext}
    (mem : m ∈ Token.contract.methods) (entries : WellFormed contract store)
    (unpacked : (WireType.tuple m.params).unpack ctx.args = .ok args)
    (owner : WireType.name.Packs ⟨ctx.owner⟩) (caller : WireType.name.Packs ctx.caller) :
    Call.CodecSafe (contract.home limit) (m.body args ctx) store := by
  have packs := WireType.packs_of_tuple (WireType.packs_of_unpack unpacked)
  simp only [Token.contract, List.mem_cons, List.not_mem_nil, or_false] at mem
  rcases mem with rfl | rfl | rfl | rfl | rfl
  · obtain ⟨symbol, totalSupply, ⟨⟩⟩ := args
    exact codecSafe_create entries (WireRow.packs_cons.1 packs).1 owner
  · obtain ⟨target, amount, ⟨⟩⟩ := args
    exact codecSafe_transfer entries caller (WireRow.packs_cons.1 packs).1
  · obtain ⟨recipients, amount, ⟨⟩⟩ := args
    have each := WireType.packs_of_vec (WireRow.packs_cons.1 packs).1
    exact codecSafe_airdrop entries owner each
  · exact codecSafe_close entries caller
  · exact codecSafe_memo (WireType.packs_of_unpack unpacked)

theorem Invocation.unpack_of_codec_error {call : Invocation} {cause : CodecError}
    (entries : WellFormed contract store)
    (short : (Bytes.ofString contract.text).length < Varint.bound)
    (shortCaller : (Bytes.ofString call.caller.text).length < Varint.bound)
    (failed : (call.execute contract store).1 = .error (.codec cause)) :
    ∃ m ∈ Token.contract.methods, m.name = call.method ∧
      (WireType.tuple m.params).unpack call.args = .error cause := by
  have owner : WireType.name.Packs ⟨contract.account⟩ :=
    packs_name (Nat.lt_of_le_of_lt contract.length_account_le short)
  have caller : WireType.name.Packs call.caller := packs_name shortCaller
  apply Limits.unpack_of_call _ failed
  intro m mem _ args unpacked
  exact codecSafe_method mem entries unpacked owner caller

theorem storeAfterAll_append (contract : Name) (earlier later : List Invocation)
    (store : MemoryStore) :
    storeAfterAll contract (earlier ++ later) store =
      storeAfterAll contract later (storeAfterAll contract earlier store) :=
  List.foldl_append

/-- Whatever calls are made of a token, its store stays well formed. The stats row is written by the
first `create` that succeeds, which is the last, and stays as it was written. A call can fail over
the form of a value only where its own arguments do not unpack. -/
theorem reached_stores_are_well_formed (contract : Name) :
    (∀ calls, WellFormed contract (storeAfterAll contract calls SortedMap.empty)) ∧
      (∀ (earlier : List Invocation) (create : Invocation) (later : List Invocation),
        create.method = "create" →
        create.committed contract (storeAfterAll contract earlier SortedMap.empty) = true →
        ∃ row,
          statsRow contract (storeAfterAll contract (earlier ++ [create]) SortedMap.empty) =
              some row ∧
            statsRow contract (storeAfterAll contract (earlier ++ create :: later) SortedMap.empty) =
                some row ∧
              ∀ again : Invocation, again.method = "create" →
                again.committed contract
                  (storeAfterAll contract (earlier ++ create :: later) SortedMap.empty) = false) ∧
      ∀ (calls : List Invocation) (call : Invocation) (cause : CodecError),
        (Bytes.ofString contract.text).length < Varint.bound →
        (Bytes.ofString call.caller.text).length < Varint.bound →
        (call.execute contract (storeAfterAll contract calls SortedMap.empty)).1 =
          .error (.codec cause) →
        ∃ m ∈ Token.contract.methods, m.name = call.method ∧
          (WireType.tuple m.params).unpack call.args = .error cause := by
  refine ⟨?_, ?_, ?_⟩
  · intro calls
    obtain ⟨row, state⟩ := holds_after_all (holds_empty contract) calls
    exact state.entries
  · intro earlier create later named ended
    obtain ⟨_, before⟩ := holds_after_all (holds_empty contract) earlier
    obtain ⟨_, row, created⟩ := Invocation.holds_of_create before named ended
    have after := created.after_all later
    have first : storeAfterAll contract (earlier ++ [create]) SortedMap.empty =
        create.storeAfter contract (storeAfterAll contract earlier SortedMap.empty) :=
      storeAfterAll_append contract earlier [create] SortedMap.empty
    have all : storeAfterAll contract (earlier ++ create :: later) SortedMap.empty =
        storeAfterAll contract later
          (create.storeAfter contract (storeAfterAll contract earlier SortedMap.empty)) :=
      storeAfterAll_append contract earlier (create :: later) SortedMap.empty
    rw [first, all]
    refine ⟨row, created.recorded, after.recorded, ?_⟩
    intro again named'
    -- a second one would have had to find no stats row
    cases ended' : again.committed contract _ with
    | false => rfl
    | true =>
      have missing := (Invocation.holds_of_create after named' ended').1
      cases missing
  · intro calls call cause short shortCaller failed
    obtain ⟨row, state⟩ := holds_after_all (holds_empty contract) calls
    exact Invocation.unpack_of_codec_error state.entries short shortCaller failed

/-- A token is created, pays, and is sent arguments that end too early. -/
theorem created_token_stays_well_formed :
    let token : Name := ⟨"$t@o"⟩
    let owner : Name := ⟨"o"⟩
    let host := Host.new.authorizeOnly owner
    let created : Invocation :=
      ⟨.default, "create", [2, 1, 67, 9, 0, 0, 0, 0, 0, 0, 0], owner, host⟩
    let paid : Invocation :=
      ⟨.default, "transfer", [2, 1, 97, 4, 0, 0, 0, 0, 0, 0, 0], owner, host⟩
    let broken : Invocation := ⟨.default, "transfer", [2, 1, 97, 4], owner, host⟩
    let store := storeAfterAll token [created, paid] SortedMap.empty
    let cause : CodecError := .outOfBounds "read" 8 1
    store.size = 3 ∧ WellFormed token store ∧
      created.committed token SortedMap.empty = true ∧
        created.committed token store = false ∧ (statsRow token store).isSome = true ∧
          (broken.execute token store).1 = .error (.codec cause) ∧
            ∃ m ∈ Token.contract.methods, m.name = broken.method ∧
              (WireType.tuple m.params).unpack broken.args = .error cause := by
  intro token owner host created paid broken store cause
  obtain ⟨wellFormed, once, codec⟩ := reached_stores_are_well_formed token
  have ended : created.committed token SortedMap.empty = true := by decide +kernel
  obtain ⟨row, _, kept, never⟩ := once [] created [paid] rfl ended
  have failed : (broken.execute token store).1 = .error (.codec cause) := by
    have found : (match (broken.execute token store).1 with
      | .error reason => decide (reason = .codec cause)
      | .ok _ => false) = true := by decide +kernel
    split at found
    · rename_i reason is
      rw [is, of_decide_eq_true found]
    · cases found
  refine ⟨by decide +kernel, wellFormed [created, paid], ended, never created rfl, ?_, failed, ?_⟩
  · exact Option.isSome_iff_exists.2 ⟨row, kept⟩
  · exact codec [created, paid] broken cause (by decide) (by decide) failed

end ContractStore.Token
