import ContractStore.Proofs.Token.Layout

/-!
Balances lie under their own owners. Whoever else writes into the store, a row of the token's
balances names the owner under whose key it lies (`Invocation.filed_after`), so that the row that is
found for an account can be stored elsewhere under its own key.
-/
namespace ContractStore.Token

/-- Each row of the balances is that of the account whose key it lies under. -/
def Filed (contract : Name) (store : MemoryStore) : Prop :=
  ∀ who raw bytes, (contract.home 0).RowAt .name balances.name who raw →
    store.find? raw = some bytes →
      ∃ amount, balanceSchema.type.unpack bytes = .ok (Balance.mk who amount)

variable {contract : Name} {limit : Nat} {host host' : Host} {before after store : MemoryStore}
  {raw : Bytes}

theorem filed_empty (contract : Name) : Filed contract SortedMap.empty := by
  intro who raw bytes _ found
  cases found

theorem Filed.change (filed : Filed contract before)
    (frame : ∀ other, other ≠ raw → after.find? other = before.find? other)
    (here : ∀ who bytes, (contract.home 0).RowAt .name balances.name who raw →
      after.find? raw = some bytes →
        ∃ amount, balanceSchema.type.unpack bytes = .ok (Balance.mk who amount)) :
    Filed contract after := by
  intro who place bytes lies found
  by_cases same : place = raw
  · subst same
    exact here who bytes lies found
  · rw [frame place same] at found
    exact filed who place bytes lies found

theorem Filed.insert_elsewhere (filed : Filed contract store)
    (elsewhere : ∀ who, ¬ (contract.home 0).RowAt .name balances.name who raw) (bytes : Bytes) :
    Filed contract (store.insert raw bytes) := by
  refine filed.change (fun other apart => SortedMap.find?_insert_of_ne store bytes apart) ?_
  intro who _ lies _
  exact absurd lies (elsewhere who)

theorem not_balance_of_table {n : Namespace} {type : WireType} {table : String}
    {key : type.Carrier} (lies : n.RowAt type table key raw) (other : table ≠ balances.name)
    (who : Name) : ¬ (contract.home 0).RowAt .name balances.name who raw :=
  fun balance => other (lies.table_unique balance)

theorem Filed.edit (filed : Filed contract before) (edit : Edit contract before after) :
    Filed contract after := by
  cases edit with
  | @balance limit who amount raw bytes lies encoded =>
    refine filed.change (fun other apart => SortedMap.find?_insert_of_ne before bytes apart) ?_
    intro other stored lies' found
    cases lies.key_unique lies'
    rw [SortedMap.find?_insert_self] at found
    cases found
    exact ⟨amount, WireType.unpack_of_encode encoded⟩
  | @removed limit who raw lies =>
    refine filed.change (fun other apart => SortedMap.find?_erase_of_ne before apart) ?_
    intro other stored _ found
    rw [SortedMap.find?_erase_self] at found
    cases found
  | memo lies encoded =>
    refine filed.insert_elsewhere (fun who there => ?_) _
    obtain ⟨packed, _, row⟩ := there
    exact tableKey_ne_storageKey row lies

theorem Filed.edits (filed : Filed contract before) (edits : Edits contract before after) :
    Filed contract after := by
  induction edits with
  | nil => exact filed
  | cons edit rest ih => exact ih (filed.edit edit)

theorem filed_create {symbol : String} {totalSupply : Amount} {ctx : CallContext}
    (filed : Filed contract before)
    (h : Call.Ends (contract.home limit) (create symbol totalSupply ctx) host before () host'
      after) : Filed contract after := by
  obtain ⟨_, absent, made, _, _, created, received⟩ := ends_create h
  obtain ⟨_, _, raw, bytes, lies, _, _, rfl⟩ := Namespace.getOrCreate_of_missing absent created
  have elsewhere := filed.insert_elsewhere (not_balance_of_table lies (by decide)) bytes
  exact elsewhere.edits (edits_credit received)

theorem Invocation.filed_after {call : Invocation} (filed : Filed contract store) :
    Filed contract (call.storeAfter contract store) := by
  by_cases creates : call.method = "create" ∧ call.committed contract store = true
  · obtain ⟨symbol, totalSupply, ran⟩ := ran_create creates.1 creates.2
    exact filed_create filed ran
  · exact filed.edits (edits_of_other creates)

end ContractStore.Token
