import ContractStore.Contracts.Token
import ContractStore.Proofs.InTurn
import ContractStore.Proofs.Table.Matching
import ContractStore.Table.Singleton

/-!
A singleton is one cell. Every write of it sets the identifier, so of a row that the table holds
only its own fields are free: the cell has a value for them or none. Each operation does to the
table what it means on the cell, and where it fails it leaves the store (`matches_singleton`).
-/
namespace ContractStore

namespace SingletonSchema

def row (schema : SingletonSchema) (own : schema.own.Carrier) : schema.Record :=
  (((1 : BitVec 32), ()), own)

def ownOf (schema : SingletonSchema) : schema.Record → schema.own.Carrier
  | (_, own) => own

end SingletonSchema

def singletonKey : Bytes := [1, 0, 0, 0]

inductive SingletonOp (schema : SingletonSchema) where
  | exists?
  | get
  | getOrDefault (fallback : schema.Record)
  | getOrCreate (fallback : schema.Record)
  | update (modify : schema.Record → schema.Record)
  | remove

namespace SingletonOp
variable {schema : SingletonSchema}

abbrev Result : SingletonOp schema → Type
  | exists? => Bool
  | get | getOrDefault _ | getOrCreate _ => schema.Record
  | update _ | remove => Unit

def action (s : Singleton schema) : (op : SingletonOp schema) → Action op.Result
  | exists? => s.exists?
  | get => s.get
  | getOrDefault fallback => s.getOrDefault fallback
  | getOrCreate fallback => s.getOrCreate fallback
  | update modify => s.update modify
  | remove => s.remove

def find (site : Site) (cell : Option schema.own.Carrier) :
    Except ContractError (Option schema.Record) := do
  site.reach
  return cell.map schema.row

def put (limit : Nat) (site : Site) (own : schema.own.Carrier) :
    Except ContractError (Option schema.own.Carrier) := do
  site.accept limit schema.type (schema.row own)
  return some own

/-- What the operation gives and what is in the cell after it. -/
def meaning (limit : Nat) (site : Site) (cell : Option schema.own.Carrier) :
    (op : SingletonOp schema) → Except ContractError (op.Result × Option schema.own.Carrier)
  | exists? => do
    let row ← find site cell
    return (row.isSome, cell)
  | get => do
    let row ← Book.required site (← find site cell)
    return (row, cell)
  | getOrDefault fallback => do
    let row ← find site cell
    return (row.getD fallback, cell)
  | getOrCreate fallback => do
    match ← find site cell with
    | some row => return (row, cell)
    | none =>
      let own := schema.ownOf fallback
      return (schema.row own, ← put limit site own)
  | update modify => do
    let row ← Book.required site (← find site cell)
    return ((), ← put limit site (schema.ownOf (modify row)))
  | remove => do
    site.reach
    return ((), none)

end SingletonOp

/-- The table holds the cell's row under the fixed key and has no other rows. -/
structure KeepsCell (schema : SingletonSchema) (site : Site) (store : MemoryStore)
    (cell : Option schema.own.Carrier) : Prop where
  holds (raw : Bytes)
    (lies : tableKey site.1.account site.1.contract site.2 singletonKey = .ok raw) :
    Holds schema.type store raw (cell.map schema.row)
  alone (key raw : Bytes) (other : key ≠ singletonKey)
    (lies : tableKey site.1.account site.1.contract site.2 key = .ok raw) : store.find? raw = none

section Step
variable {schema : SingletonSchema} {site : Site} {store : MemoryStore}
  {cell : Option schema.own.Carrier} {α : Type} {n : Namespace} {limit : Nat}

theorem KeepsCell.change {after : MemoryStore} {value : Option schema.own.Carrier} {raw : Bytes}
    (keeps : KeepsCell schema site store cell)
    (lies : tableKey site.1.account site.1.contract site.2 singletonKey = .ok raw)
    (holds : Holds schema.type after raw (value.map schema.row))
    (frame : ∀ other, other ≠ raw → after.find? other = store.find? other) :
    KeepsCell schema site after value := by
  constructor
  · intro raw' lies'
    cases lies.symm.trans lies'
    exact holds
  · -- another row of the table lies elsewhere, where nothing changed
    intro key raw' other lies'
    have apart : raw' ≠ raw := by
      rintro rfl
      exact other (eq_of_tableKey lies' lies).2.2.2
    rw [frame raw' apart]
    exact keeps.alone key raw' other lies'

theorem matches_keyed {σ : Type} {related : MemoryStore → σ → Prop} {next : Bytes → Action α}
    {meant : Except ContractError (α × σ)}
    (later : Matches related store (n.perform (next singletonKey) store) meant) :
    Matches related store (n.perform (Singleton.packKey >>= next) store) meant := by
  have packed : (WireType.int .i32).pack singletonId = .ok singletonKey :=
    WireType.pack_eq_encode _ _
  unfold Singleton.packKey
  rw [Namespace.perform_bind, Namespace.perform_ofCodec, packed]
  exact later

theorem perform_find_singleton (keeps : KeepsCell schema site store cell) (limit : Nat) :
    (site.1.home limit).perform (Row.find schema.type site.2 singletonKey) store =
      (SingletonOp.find site cell, store) :=
  perform_find_held (site.reach_eq_rowKey limit singletonKey) keeps.holds
    ((site.1.home limit).perform_query store site.2 singletonKey)

theorem matches_write_singleton (keeps : KeepsCell schema site store cell)
    {write : Bytes → Action Unit}
    (written : ∀ packed, (site.1.home limit).perform (write packed) store =
      (site.1.home limit).write store ((site.1.home limit).rowKey site.2 singletonKey) packed)
    (own : schema.own.Carrier) :
    Matches (KeepsCell schema site) store
      ((site.1.home limit).perform
        (Action.ofCodec (schema.type.pack (schema.row own)) >>= write) store)
      (do return ((), ← SingletonOp.put limit site own)) := by
  unfold SingletonOp.put
  rw [bind_assoc]
  refine matches_write (site.reach_eq_rowKey limit singletonKey) written ?_
  intro raw bytes lies encoded
  refine keeps.change lies ?_ ?_
  · exact Holds.insert_self encoded store raw
  · intro other apart
    exact SortedMap.find?_insert_of_ne store bytes apart

theorem matches_delete_singleton (keeps : KeepsCell schema site store cell) :
    Matches (KeepsCell schema site) store
      ((site.1.home limit).perform (Action.delete site.2 singletonKey) store) (do
        site.reach
        return ((), none)) := by
  refine matches_delete ?_
  intro raw lies
  refine keeps.change lies ?_ ?_
  · exact Holds.erase_self schema.type store raw
  · intro other apart
    exact SortedMap.find?_erase_of_ne store apart

theorem matches_singleton (keeps : KeepsCell schema site store cell) (limit : Nat)
    (op : SingletonOp schema) :
    Matches (KeepsCell schema site) store
      ((site.1.home limit).perform (op.action ⟨site.2⟩) store) (op.meaning limit site cell) := by
  have found := perform_find_singleton keeps limit
  have got := perform_get_of_find found
  cases op with
  | exists? =>
    refine matches_keyed ?_
    exact matches_look_bind found fun row => ⟨rfl, keeps⟩
  | get =>
    refine matches_keyed ?_
    have matched := matches_look keeps got
    rw [bind_assoc] at matched
    exact matched
  | getOrDefault fallback =>
    refine matches_keyed ?_
    exact matches_look_bind found fun row => ⟨rfl, keeps⟩
  | getOrCreate fallback =>
    refine matches_keyed ?_
    refine matches_look_bind found ?_
    intro row
    cases row with
    | some row => exact ⟨rfl, keeps⟩
    | none =>
      -- what is inserted is the normalized fallback, which is the row of its own fields
      have written := matches_write_singleton keeps
        ((site.1.home limit).perform_insert store site.2 singletonKey) (schema.ownOf fallback)
      exact matches_then_return written (schema.row (schema.ownOf fallback))
  | update modify =>
    refine matches_keyed ?_
    dsimp only [SingletonOp.meaning]
    rw [← bind_assoc]
    refine matches_look_bind got ?_
    intro row
    exact matches_write_singleton keeps
      ((site.1.home limit).perform_update store site.2 singletonKey) (schema.ownOf (modify row))
  | remove =>
    refine matches_keyed ?_
    exact matches_delete_singleton keeps

end Step

structure SingletonRequest (schema : SingletonSchema) where
  limit : Nat
  op : SingletonOp schema

abbrev SingletonReply (schema : SingletonSchema) : Type :=
  (op : SingletonOp schema) × Except ContractError op.Result

namespace SingletonRequest
variable {schema : SingletonSchema}

def perform (site : Site) (request : SingletonRequest schema) (store : MemoryStore) :
    SingletonReply schema × MemoryStore :=
  match Namespace.ofName site.1 request.limit with
  | .error cause => (⟨request.op, .error (.state cause)⟩, store)
  | .ok home =>
    let (result, after) := home.perform (request.op.action ⟨site.2⟩) store
    (⟨request.op, result⟩, after)

def interpret (site : Site) (request : SingletonRequest schema)
    (cell : Option schema.own.Carrier) : SingletonReply schema × Option schema.own.Carrier :=
  if site.1.isContract then
    let (result, after) := settled cell (request.op.meaning request.limit site cell)
    (⟨request.op, result⟩, after)
  else (⟨request.op, .error (.state (.notAContract site.1.text))⟩, cell)

variable {site : Site} {store : MemoryStore} {cell : Option schema.own.Carrier}

theorem perform_of_contract (contract : site.1.isContract = true)
    (request : SingletonRequest schema) (store : MemoryStore) :
    let done := (site.1.home request.limit).perform (request.op.action ⟨site.2⟩) store
    request.perform site store = (⟨request.op, done.1⟩, done.2) := by
  unfold perform Namespace.ofName
  rw [if_pos contract]
  rfl

theorem perform_of_account (account : ¬ site.1.isContract = true)
    (request : SingletonRequest schema) (store : MemoryStore) :
    request.perform site store =
      (⟨request.op, .error (.state (.notAContract site.1.text))⟩, store) := by
  unfold perform Namespace.ofName
  rw [if_neg account]

theorem perform_step (request : SingletonRequest schema) (store : MemoryStore)
    (cell : Option schema.own.Carrier) (keeps : KeepsCell schema site store cell) :
    (request.perform site store).1 = (request.interpret site cell).1 ∧
      KeepsCell schema site (request.perform site store).2 (request.interpret site cell).2 := by
  by_cases contract : site.1.isContract = true
  · obtain ⟨same, after⟩ :=
      (matches_singleton keeps request.limit request.op).settles keeps
    rw [perform_of_contract contract]
    unfold interpret
    rw [if_pos contract]
    exact ⟨congrArg (Sigma.mk request.op) same, after⟩
  · rw [perform_of_account contract]
    unfold interpret
    rw [if_neg contract]
    exact ⟨rfl, keeps⟩

theorem perform_error {request : SingletonRequest schema} {cause : ContractError}
    (keeps : KeepsCell schema site store cell)
    (failed : (request.perform site store).1.2 = .error cause) :
    (request.perform site store).2 = store := by
  by_cases contract : site.1.isContract = true
  · rw [perform_of_contract contract] at failed ⊢
    exact (matches_singleton keeps request.limit request.op).eq_of_error failed
  · rw [perform_of_account contract]

end SingletonRequest

variable {schema : SingletonSchema} {site : Site} {store : MemoryStore}
  {cell : Option schema.own.Carrier}

theorem keepsCell_of_unused
    (unused : ∀ key raw, tableKey site.1.account site.1.contract site.2 key = .ok raw →
      store.find? raw = none) : KeepsCell schema site store none := by
  constructor
  · intro raw lies
    unfold Holds
    rw [unused singletonKey raw lies]
    exact .none
  · intro key raw _ lies
    exact unused key raw lies

theorem KeepsCell.row_of_stored (keeps : KeepsCell schema site store cell) {key raw bytes : Bytes}
    (lies : tableKey site.1.account site.1.contract site.2 key = .ok raw)
    (stored : store.find? raw = some bytes) :
    key = singletonKey ∧ ∃ own, cell = some own ∧
      schema.type.unpack bytes = .ok (schema.row own) := by
  by_cases fixed : key = singletonKey
  · subst fixed
    have holds := keeps.holds raw lies
    unfold Holds at holds
    rw [stored] at holds
    cases cell with
    | none => cases holds
    | some own =>
      cases holds with
      | some encoded => exact ⟨rfl, own, rfl, WireType.unpack_of_encode encoded⟩
  · have nothing := keeps.alone key raw fixed lies
    rw [stored] at nothing
    cases nothing

namespace SingletonRequest

/-- From a table without rows on, operations on a singleton give what they give on a cell, and a row
is there when the cell has a value. Any row lies under the fixed key, and unpacks to a record with
the fixed identifier and the cell's value. What fails next leaves the store as it is. -/
theorem singleton_is_one_normalized_cell
    (unused : ∀ key raw, tableKey site.1.account site.1.contract site.2 key = .ok raw →
      store.find? raw = none) (requests : List (SingletonRequest schema)) :
    let done := inTurn (perform site) requests store
    let meant := inTurn (interpret site) requests none
    done.1 = meant.1 ∧
      (∀ raw, tableKey site.1.account site.1.contract site.2 [1, 0, 0, 0] = .ok raw →
        (done.2.find? raw).isSome = meant.2.isSome) ∧
      (∀ key raw bytes, tableKey site.1.account site.1.contract site.2 key = .ok raw →
        done.2.find? raw = some bytes → key = [1, 0, 0, 0] ∧
          ∃ record, schema.type.unpack bytes = .ok record ∧ schema.idOf record = (1 : BitVec 32) ∧
            meant.2 = some (schema.ownOf record)) ∧
      ∀ (next : SingletonRequest schema) (cause : ContractError),
        (next.perform site done.2).1.2 = .error cause → (next.perform site done.2).2 = done.2 := by
  intro done meant
  obtain ⟨same, keeps⟩ :=
    inTurn_related (KeepsCell schema site) perform_step requests (keepsCell_of_unused unused)
  refine ⟨same, ?_, ?_, ?_⟩
  · intro raw lies
    rw [(keeps.holds raw lies).isSome_eq, Option.isSome_map]
  · intro key raw bytes lies stored
    obtain ⟨fixed, own, held, unpacked⟩ := keeps.row_of_stored lies stored
    exact ⟨fixed, schema.row own, unpacked, rfl, held⟩
  · intro next cause failed
    exact perform_error keeps failed

/-- Two identifiers that are not the fixed one, and an update that is too long for its limit. -/
theorem stats_forget_their_identifiers :
    let site : Site := (⟨"$t@o"⟩, "s")
    let requests : List (SingletonRequest Token.statsSchema) :=
      [⟨100, .getOrCreate ((42#32, ()), "COS", 5#64, ())⟩,
        ⟨100, .update fun record => ((99#32, ()), record.2)⟩]
    let next : SingletonRequest Token.statsSchema := ⟨17, .update id⟩
    let done := inTurn (perform site) requests (SortedMap.empty : MemoryStore)
    let bytes : Bytes := [3, 1, 1, 0, 0, 0, 3, 67, 79, 83, 5, 0, 0, 0, 0, 0, 0, 0]
    (∀ key raw, tableKey site.1.account site.1.contract site.2 key = .ok raw →
        (SortedMap.empty : MemoryStore).find? raw = none) ∧
      done.1 = (inTurn (interpret site) requests none).1 ∧
        done.2.find? [1, 1, 111, 1, 116, 1, 115, 1, 0, 0, 0] = some bytes ∧
          (∃ record, Token.statsSchema.type.unpack bytes = .ok record ∧
            Token.statsSchema.idOf record = (1 : BitVec 32)) ∧
            (next.perform site done.2).1.2.isOk = false ∧
              (next.perform site done.2).2 = done.2 := by
  intro site requests next done bytes
  have unused : ∀ key raw, tableKey site.1.account site.1.contract site.2 key = .ok raw →
      (SortedMap.empty : MemoryStore).find? raw = none := fun _ raw _ => SortedMap.find?_empty raw
  obtain ⟨same, -, rows, fails⟩ := singleton_is_one_normalized_cell unused requests
  have names : (⟨"$t@o"⟩ : Name).account = "o" ∧ (⟨"$t@o"⟩ : Name).contract = "t" := by decide
  have lies : tableKey site.1.account site.1.contract site.2 [1, 0, 0, 0] =
      .ok [1, 1, 111, 1, 116, 1, 115, 1, 0, 0, 0] := by
    change tableKey (⟨"$t@o"⟩ : Name).account (⟨"$t@o"⟩ : Name).contract "s" [1, 0, 0, 0] = _
    rw [names.1, names.2]
    rfl
  have stored : done.2.find? [1, 1, 111, 1, 116, 1, 115, 1, 0, 0, 0] = some bytes := by
    decide +kernel
  have failed : (next.perform site done.2).1.2.isOk = false := by
    decide +kernel
  obtain ⟨-, record, unpacked, fixed, -⟩ := rows _ _ bytes lies stored
  refine ⟨unused, same, stored, ⟨record, unpacked, fixed⟩, failed, ?_⟩
  cases result : (next.perform site done.2).1.2 with
  | error cause => exact fails next cause result
  | ok x =>
    rw [result] at failed
    cases failed

end SingletonRequest
end ContractStore
