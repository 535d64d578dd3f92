import ContractStore.Proofs.Table.Matching

/-!
Tables and slots in a memory store behave like a book. A store represents a book when every cell's
value lies, packed, under the cell's raw key; distinct cells have distinct raw keys, so a write to
one is no write to any other. Each operation keeps the representation and gives what it gives on the
book (`matches_request`), and so does a run of any length.
-/
namespace ContractStore

variable {l : Layout}

namespace Cell

inductive At : Cell l → Bytes → Prop where
  | row {site : Site} {key : (l.schema site).Key} {bytes raw : Bytes}
      (contract : site.1.isContract = true)
      (encoded : (l.schema site).keyType.encode key = .ok bytes)
      (lies : tableKey site.1.account site.1.contract site.2 bytes = .ok raw) :
      At (.row site key) raw
  | slot {site : Site} {raw : Bytes} (contract : site.1.isContract = true)
      (lies : storageKey site.1.account site.1.contract site.2 = .ok raw) :
      At (.slot site) raw

theorem At.unique {cell other : Cell l} {raw : Bytes} (h : cell.At raw) (h' : other.At raw) :
    cell = other := by
  cases h with
  | row contract encoded lies =>
    rename_i site key bytes
    cases h' with
    | row contract' encoded' lies' =>
      rename_i site' key' bytes'
      obtain ⟨owners, names, tables, rfl⟩ := eq_of_tableKey lies lies'
      have sites : site = site' := by
        exact Prod.ext (Name.eq_of_parts contract contract' owners names) tables
      subst sites
      rw [WireType.encode_injective encoded encoded']
    | slot contract' lies' => exact absurd lies' (tableKey_ne_storageKey lies)
  | slot contract lies =>
    rename_i site
    cases h' with
    | row contract' encoded' lies' => exact absurd lies (tableKey_ne_storageKey lies')
    | slot contract' lies' =>
      rename_i site'
      obtain ⟨owners, names, slots⟩ := eq_of_storageKey lies lies'
      have sites : site = site' := by
        exact Prod.ext (Name.eq_of_parts contract contract' owners names) slots
      rw [sites]

theorem At.raw_unique {cell : Cell l} {raw raw' : Bytes} (h : cell.At raw) (h' : cell.At raw') :
    raw = raw' := by
  cases h with
  | row _ encoded lies =>
    cases h' with
    | row _ encoded' lies' =>
      cases encoded.symm.trans encoded'
      exact Except.ok.inj (lies.symm.trans lies')
  | slot _ lies =>
    cases h' with
    | slot _ lies' => exact Except.ok.inj (lies.symm.trans lies')

end Cell

/-- The store holds what the book says. -/
def Represents (store : MemoryStore) (book : Book l) : Prop :=
  ∀ (cell : Cell l) (raw : Bytes), cell.At raw → Holds cell.type store raw (book.read cell)

theorem represents_empty : Represents (SortedMap.empty : MemoryStore) (Book.empty : Book l) := by
  intro cell raw _
  unfold Holds
  rw [Book.read_empty, SortedMap.find?_empty]
  exact .none

theorem represents_write {store after : MemoryStore} {book : Book l} {cell : Cell l} {raw : Bytes}
    {value : Option cell.type.Carrier} (represents : Represents store book) (at_raw : cell.At raw)
    (holds : Holds cell.type after raw value)
    (frame : ∀ other, other ≠ raw → after.find? other = store.find? other) :
    Represents after (book.write cell value) := by
  intro other raw' at_raw'
  by_cases same : cell = other
  · subst same
    rw [← at_raw.raw_unique at_raw', Book.read_write_self]
    exact holds
  · -- the other cell lies elsewhere, where nothing changed
    have keys : raw' ≠ raw := by
      rintro rfl
      exact same (at_raw.unique at_raw')
    have before := represents other raw' at_raw'
    unfold Holds at before ⊢
    rw [Book.read_write_of_ne book same, frame raw' keys]
    exact before

theorem Book.put_eq_accept (book : Book l) (limit : Nat) (cell : Cell l)
    (value : cell.type.Carrier) :
    book.put limit cell value = (do
      cell.site.accept limit cell.type value
      return book.write cell (some value)) := by
  unfold Book.put Site.accept
  cases packedSize cell.type value with
  | error cause => rfl
  | ok size =>
    dsimp only [bind, Except.bind]
    split <;> rfl

section Step
variable {n : Namespace} {store : MemoryStore} {book : Book l}

theorem perform_find_cell (cell : Cell l) {location : Except StateError Bytes}
    {read : Action (Option Bytes)} (represents : Represents store book)
    (reach : cell.site.reach = (location.map fun _ => ()).mapError .state)
    (at_raw : ∀ raw, location = .ok raw → cell.At raw)
    (reads : n.perform read store = ((location.map store.find?).mapError .state, store)) :
    n.perform (read >>= Row.ofStored cell.type) store = (book.find cell, store) :=
  perform_find_held reach (fun raw lies => represents cell raw (at_raw raw lies)) reads

theorem perform_present_cell (cell : Cell l) {location : Except StateError Bytes}
    {read : Action (Option Bytes)} (represents : Represents store book)
    (reach : cell.site.reach = (location.map fun _ => ()).mapError .state)
    (at_raw : ∀ raw, location = .ok raw → cell.At raw)
    (reads : n.perform read store = ((location.map store.find?).mapError .state, store)) :
    n.perform (do let stored ← read; return stored.isSome) store =
      (do let value ← book.find cell; return value.isSome, store) := by
  rw [perform_present_held reach (fun raw lies => represents cell raw (at_raw raw lies)) reads]
  unfold Book.find
  simp only [bind_assoc, pure_bind]

/-- A write of one value, under a raw key that is a cell's or is refused with the cell. -/
theorem matches_put (cell : Cell l) {location : Except StateError Bytes}
    {write : Bytes → Action Unit} (represents : Represents store book)
    (reach : cell.site.reach = (location.map fun _ => ()).mapError .state)
    (at_raw : ∀ raw, location = .ok raw → cell.At raw)
    (written : ∀ bytes, n.perform (write bytes) store = n.write store location bytes)
    (value : cell.type.Carrier) :
    Matches Represents store
      (n.perform (Action.ofCodec (cell.type.pack value) >>= write) store) (do
        return ((), ← book.put n.recordLimit cell value)) := by
  rw [Book.put_eq_accept, bind_assoc]
  refine matches_write reach written ?_
  intro raw bytes lies encoded
  refine represents_write represents (at_raw raw lies) ?_ ?_
  · exact Holds.insert_self encoded store raw
  · intro other ne
    exact SortedMap.find?_insert_of_ne store bytes ne

end Step

section Table
variable {store : MemoryStore} {book : Book l} {site : Site} {key : (l.schema site).Key}
  {bytes : Bytes}

theorem at_rowKey (contract : site.1.isContract = true)
    (encoded : (l.schema site).keyType.encode key = .ok bytes) (limit : Nat) (raw : Bytes)
    (lies : (site.1.home limit).rowKey site.2 bytes = .ok raw) :
    (Cell.row site key).At raw :=
  .row contract encoded lies

theorem perform_has_row (represents : Represents store book) (contract : site.1.isContract = true)
    (encoded : (l.schema site).keyType.encode key = .ok bytes) (limit : Nat) :
    (site.1.home limit).perform (do
      let stored ← Action.query site.2 bytes
      return stored.isSome) store =
      (do let row ← book.find (.row site key); return row.isSome, store) :=
  perform_present_cell (.row site key) represents (site.reach_eq_rowKey limit bytes)
    (at_rowKey contract encoded limit) ((site.1.home limit).perform_query store site.2 bytes)

theorem perform_find_row (represents : Represents store book) (contract : site.1.isContract = true)
    (encoded : (l.schema site).keyType.encode key = .ok bytes) (limit : Nat) :
    (site.1.home limit).perform (Row.find (l.schema site).type site.2 bytes) store =
      (book.find (.row site key), store) :=
  perform_find_cell (.row site key) represents (site.reach_eq_rowKey limit bytes)
    (at_rowKey contract encoded limit) ((site.1.home limit).perform_query store site.2 bytes)

theorem perform_get_row (represents : Represents store book) (contract : site.1.isContract = true)
    (encoded : (l.schema site).keyType.encode key = .ok bytes) (limit : Nat) :
    (site.1.home limit).perform (Row.get (l.schema site).type site.2 bytes) store =
      (do Book.required site (← book.find (.row site key)), store) :=
  perform_get_of_find (perform_find_row represents contract encoded limit)

theorem matches_put_row (represents : Represents store book) (contract : site.1.isContract = true)
    (encoded : (l.schema site).keyType.encode key = .ok bytes) {limit : Nat}
    {write : Bytes → Action Unit}
    (written : ∀ packed, (site.1.home limit).perform (write packed) store =
      (site.1.home limit).write store
        ((site.1.home limit).rowKey site.2 bytes) packed)
    (row : (l.schema site).Record) :
    Matches Represents store
      ((site.1.home limit).perform
        (Action.ofCodec ((l.schema site).type.pack row) >>= write) store)
      (do return ((), ← book.put limit (.row site key) row)) :=
  matches_put (.row site key) represents (site.reach_eq_rowKey limit bytes)
    (at_rowKey contract encoded limit) written row

theorem matches_insert_row (represents : Represents store book)
    (contract : site.1.isContract = true)
    (encoded : (l.schema site).keyType.encode key = .ok bytes) (limit : Nat)
    (row : (l.schema site).Record) :
    Matches Represents store
      ((site.1.home limit).perform (Row.insert (l.schema site).type site.2 bytes row) store)
      (do return ((), ← book.put limit (.row site key) row)) :=
  matches_put_row represents contract encoded
    (fun packed => (site.1.home limit).perform_insert store site.2 bytes packed) row

theorem matches_update_row (represents : Represents store book)
    (contract : site.1.isContract = true)
    (encoded : (l.schema site).keyType.encode key = .ok bytes) (limit : Nat)
    (row : (l.schema site).Record) :
    Matches Represents store
      ((site.1.home limit).perform (Row.update (l.schema site).type site.2 bytes row) store)
      (do return ((), ← book.put limit (.row site key) row)) :=
  matches_put_row represents contract encoded
    (fun packed => (site.1.home limit).perform_update store site.2 bytes packed) row

theorem matches_delete_row (represents : Represents store book)
    (contract : site.1.isContract = true)
    (encoded : (l.schema site).keyType.encode key = .ok bytes) (limit : Nat) :
    Matches Represents store ((site.1.home limit).perform (Action.delete site.2 bytes) store)
      (do return ((), ← book.erase (.row site key))) := by
  unfold Book.erase
  rw [bind_assoc]
  refine matches_delete ?_
  intro raw lies
  refine represents_write represents (at_rowKey contract encoded limit raw lies) ?_ ?_
  · exact Holds.erase_self (l.schema site).type store raw
  · intro other ne
    exact SortedMap.find?_erase_of_ne store ne

theorem matches_table (represents : Represents store book) (contract : site.1.isContract = true)
    (limit : Nat) (op : TableOp (l.schema site)) :
    Matches Represents store ((site.1.home limit).perform (op.action ⟨site.2⟩) store)
      (op.meaning limit site book) := by
  cases op with
  | has key =>
    refine matches_packed fun bytes encoded => ?_
    have matched := matches_look represents (perform_has_row represents contract encoded limit)
    simp only [bind_assoc, pure_bind] at matched
    exact matched
  | get key =>
    refine matches_packed fun bytes encoded => ?_
    have matched := matches_look represents (perform_get_row represents contract encoded limit)
    rw [bind_assoc] at matched
    exact matched
  | getOrDefault key fallback =>
    refine matches_packed fun bytes encoded => ?_
    have looked := perform_find_row represents contract encoded limit
    exact matches_look_bind looked fun row => ⟨rfl, represents⟩
  | getOrCreate key fallback =>
    refine matches_packed fun bytes encoded => ?_
    refine matches_look_bind (perform_find_row represents contract encoded limit) ?_
    intro row
    cases row with
    | some row => exact ⟨rfl, represents⟩
    | none =>
      refine matches_packed fun own encodedOwn => ?_
      exact matches_then_return (matches_insert_row represents contract encodedOwn limit fallback)
        fallback
  | insert fresh modify =>
    refine matches_packed fun bytes encoded => ?_
    exact matches_insert_row represents contract encoded limit (modify fresh)
  | update key modify =>
    refine matches_packed fun bytes encoded => ?_
    rw [← bind_assoc]
    refine matches_look_bind (perform_get_row represents contract encoded limit) fun row => ?_
    exact matches_update_row represents contract encoded limit (modify row)
  | remove key =>
    refine matches_packed fun bytes encoded => ?_
    exact matches_delete_row represents contract encoded limit

end Table

section Slot
variable {store : MemoryStore} {book : Book l} {site : Site}

theorem perform_find_slot (represents : Represents store book) (contract : site.1.isContract = true)
    (limit : Nat) :
    (site.1.home limit).perform (Slot.find ⟨site.2⟩ (l.slotType site)) store =
      (book.find (.slot site), store) :=
  perform_find_cell (.slot site) represents (site.reach_eq_slotKey limit)
    (fun _ lies => .slot contract lies) ((site.1.home limit).perform_load store site.2)

theorem perform_exists_slot (represents : Represents store book)
    (contract : site.1.isContract = true) (limit : Nat) :
    (site.1.home limit).perform (Slot.exists? ⟨site.2⟩) store =
      (do let value ← book.find (.slot site); return value.isSome, store) :=
  perform_present_cell (.slot site) represents (site.reach_eq_slotKey limit)
    (fun _ lies => .slot contract lies) ((site.1.home limit).perform_load store site.2)

theorem matches_slot (represents : Represents store book) (contract : site.1.isContract = true)
    (limit : Nat) (op : SlotOp (l.slotType site)) :
    Matches Represents store ((site.1.home limit).perform (op.action ⟨site.2⟩) store)
      (op.meaning limit site book) := by
  cases op with
  | put value =>
    exact matches_put (.slot site) represents (site.reach_eq_slotKey limit)
      (fun _ lies => .slot contract lies)
      (fun bytes => (site.1.home limit).perform_save store site.2 bytes) value
  | exists? =>
    have matched := matches_look represents (perform_exists_slot represents contract limit)
    simp only [bind_assoc, pure_bind] at matched
    exact matched
  | get =>
    refine matches_look_bind (perform_find_slot represents contract limit) ?_
    intro found
    cases found with
    | none => rfl
    | some value => exact ⟨rfl, represents⟩
  | getOrDefault fallback =>
    refine matches_look_bind (perform_find_slot represents contract limit) ?_
    intro found
    exact ⟨rfl, represents⟩

end Slot

namespace Request

def perform (request : Request l) (store : MemoryStore) :
    Except ContractError request.Result × MemoryStore :=
  match Namespace.ofName request.site.1 request.limit with
  | .error cause => (.error (.state cause), store)
  | .ok site => site.perform request.action store

theorem matches_request {store : MemoryStore} {book : Book l} (represents : Represents store book)
    (request : Request l) (contract : request.site.1.isContract = true) :
    Matches Represents store
      ((request.site.1.home request.limit).perform request.action store)
      (request.meaning book) := by
  cases request with
  | table site limit op => exact matches_table represents contract limit op
  | slot site limit op => exact matches_slot represents contract limit op

theorem perform_of_contract (request : Request l) (contract : request.site.1.isContract = true)
    (store : MemoryStore) :
    request.perform store =
      (request.site.1.home request.limit).perform request.action store := by
  unfold perform Namespace.ofName
  rw [if_pos contract]
  rfl

theorem interpret_of_contract (request : Request l) (contract : request.site.1.isContract = true)
    (book : Book l) : request.interpret book = settled book (request.meaning book) := by
  unfold interpret
  rw [if_pos contract]
  cases request.meaning book <;> rfl

theorem perform_step {store : MemoryStore} {book : Book l} (represents : Represents store book)
    (request : Request l) :
    (request.perform store).1 = (request.interpret book).1 ∧
      Represents (request.perform store).2 (request.interpret book).2 := by
  by_cases contract : request.site.1.isContract = true
  · rw [perform_of_contract request contract, interpret_of_contract request contract]
    exact (matches_request represents request contract).settles represents
  · unfold perform interpret Namespace.ofName
    rw [if_neg contract, if_neg contract]
    exact ⟨rfl, represents⟩

theorem perform_run {store : MemoryStore} {book : Book l} (represents : Represents store book)
    (requests : List (Request l)) :
    (runAll perform requests store).1 = (runAll interpret requests book).1 ∧
      Represents (runAll perform requests store).2 (runAll interpret requests book).2 := by
  induction requests generalizing store book with
  | nil => exact ⟨rfl, represents⟩
  | cons request rest ih =>
    obtain ⟨answer, step⟩ := perform_step represents request
    obtain ⟨answers, final⟩ := ih step
    refine ⟨?_, final⟩
    simp only [runAll]
    rw [answer, answers]

/-- From the empty store on, whatever contracts do to their tables and slots in whatever order, they
are told what the book tells them. -/
theorem tables_and_slots_refine_book (requests : List (Request l)) :
    (runAll perform requests (SortedMap.empty : MemoryStore)).1 =
      (runAll interpret requests Book.empty).1 :=
  (perform_run represents_empty requests).1

end Request
end ContractStore
