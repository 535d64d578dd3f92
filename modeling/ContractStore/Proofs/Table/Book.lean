import ContractStore.Proofs.Store.KeyLayout
import ContractStore.Slot
import ContractStore.Table.Basic

/-!
What contracts store, as values. A book holds a finite map from keys to records for every table of
every contract, and a value or none for every slot. Of bytes it knows only how many a value takes.
Every operation on tables and slots has a meaning on books; one that fails has no new book.
-/
namespace ContractStore

abbrev Site : Type := Name × String

structure Layout where
  schema : Site → Schema
  slotType : Site → WireType

inductive Cell (l : Layout) where
  | row (site : Site) (key : (l.schema site).Key)
  | slot (site : Site)

structure Book (l : Layout) where
  rows : (site : Site) → SortedMap (l.schema site).keyType.cmp (l.schema site).Record
  slots : (site : Site) → Option (l.slotType site).Carrier

variable {l : Layout}

namespace Cell

def site : Cell l → Site
  | row site _ => site
  | slot site => site

def type : Cell l → WireType
  | row site _ => (l.schema site).type
  | slot site => l.slotType site

end Cell

namespace Book

def empty : Book l := ⟨fun _ => .empty, fun _ => none⟩

def read (book : Book l) : (cell : Cell l) → Option cell.type.Carrier
  | .row site key => (book.rows site).find? key
  | .slot site => book.slots site

def setRows (book : Book l) (site : Site)
    (rows : SortedMap (l.schema site).keyType.cmp (l.schema site).Record) : Book l :=
  { book with rows := fun other => if same : site = other then same ▸ rows else book.rows other }

def setSlot (book : Book l) (site : Site) (value : Option (l.slotType site).Carrier) : Book l :=
  { book with slots := fun other => if same : site = other then same ▸ value else book.slots other }

def write (book : Book l) : (cell : Cell l) → Option cell.type.Carrier → Book l
  | .row site key, some row => book.setRows site ((book.rows site).insert key row)
  | .row site key, none => book.setRows site ((book.rows site).erase key)
  | .slot site, value => book.setSlot site value

theorem rows_setRows_self (book : Book l) (site : Site)
    (rows : SortedMap (l.schema site).keyType.cmp (l.schema site).Record) :
    (book.setRows site rows).rows site = rows := by
  simp [setRows]

theorem rows_setRows_of_ne (book : Book l) {site other : Site} (ne : site ≠ other)
    (rows : SortedMap (l.schema site).keyType.cmp (l.schema site).Record) :
    (book.setRows site rows).rows other = book.rows other := by
  simp [setRows, ne]

theorem slots_setSlot_self (book : Book l) (site : Site)
    (value : Option (l.slotType site).Carrier) : (book.setSlot site value).slots site = value := by
  simp [setSlot]

theorem slots_setSlot_of_ne (book : Book l) {site other : Site} (ne : site ≠ other)
    (value : Option (l.slotType site).Carrier) :
    (book.setSlot site value).slots other = book.slots other := by
  simp [setSlot, ne]

theorem read_empty (cell : Cell l) : (empty : Book l).read cell = none := by
  cases cell <;> rfl

theorem read_write_self (book : Book l) (cell : Cell l) (value : Option cell.type.Carrier) :
    (book.write cell value).read cell = value := by
  cases cell with
  | row site key =>
    cases value with
    | some row =>
      simp only [write, read, rows_setRows_self]
      exact SortedMap.find?_insert_self _ key row
    | none =>
      simp only [write, read, rows_setRows_self]
      exact SortedMap.find?_erase_self _ key
  | slot site => exact book.slots_setSlot_self site value

theorem read_write_of_ne (book : Book l) {cell other : Cell l} (ne : cell ≠ other)
    (value : Option cell.type.Carrier) : (book.write cell value).read other = book.read other := by
  cases cell with
  | row site key =>
    cases other with
    | row site' key' =>
      by_cases same : site = site'
      · subst same
        have keys : key' ≠ key := fun same => ne (congrArg (Cell.row site) same.symm)
        cases value with
        | some row =>
          simp only [write, read, rows_setRows_self]
          exact SortedMap.find?_insert_of_ne _ row keys
        | none =>
          simp only [write, read, rows_setRows_self]
          exact SortedMap.find?_erase_of_ne _ keys
      · cases value <;>
          exact congrArg (fun rows => rows.find? key') (book.rows_setRows_of_ne same _)
    | slot site' => cases value <;> rfl
  | slot site =>
    cases other with
    | row site' key' => rfl
    | slot site' =>
      have sites : site ≠ site' := fun same => ne (congrArg Cell.slot same)
      exact book.slots_setSlot_of_ne sites value

end Book

/-! The meaning of the operations. -/

def packedSize (type : WireType) (value : type.Carrier) : Except ContractError Nat :=
  (type.packSize value).mapError .codec

def Site.reach (site : Site) : Except ContractError Unit :=
  if KeySpace.Fits site.1.account site.1.contract site.2 then .ok ()
  else .error (.state KeySpace.unpackable)

namespace Book

def find (book : Book l) (cell : Cell l) : Except ContractError (Option cell.type.Carrier) := do
  cell.site.reach
  return book.read cell

def required {α : Type} (site : Site) : Option α → Except ContractError α
  | some value => .ok value
  | none => .error (.state (.keyNotFound site.2))

def put (book : Book l) (limit : Nat) (cell : Cell l) (value : cell.type.Carrier) :
    Except ContractError (Book l) := do
  let size ← packedSize cell.type value
  if limit < size then throw (.state (.valueTooLarge limit size))
  cell.site.reach
  return book.write cell (some value)

def erase (book : Book l) (cell : Cell l) : Except ContractError (Book l) := do
  cell.site.reach
  return book.write cell none

end Book

inductive TableOp (s : Schema) where
  | has (key : s.Key)
  | get (key : s.Key)
  | getOrDefault (key : s.Key) (fallback : s.Record)
  | getOrCreate (key : s.Key) (fallback : s.Record)
  | insert (fresh : s.Record) (modify : s.Record → s.Record)
  | update (key : s.Key) (modify : s.Record → s.Record)
  | remove (key : s.Key)

namespace TableOp

abbrev Result {s : Schema} : TableOp s → Type
  | has _ => Bool
  | get _ | getOrDefault _ _ | getOrCreate _ _ => s.Record
  | insert _ _ | update _ _ | remove _ => Unit

def action {s : Schema} (t : Table s) : (op : TableOp s) → Action op.Result
  | has key => t.has key
  | get key => t.get key
  | getOrDefault key fallback => t.getOrDefault key fallback
  | getOrCreate key fallback => t.getOrCreate key fallback
  | insert fresh modify => t.insert fresh modify
  | update key modify => t.update key modify
  | remove key => t.remove key

/-- What the operation gives and the book after it. A row is stored under its own key, except that
an update leaves it under the key it was found under. -/
def meaning (limit : Nat) (site : Site) (book : Book l) :
    (op : TableOp (l.schema site)) → Except ContractError (op.Result × Book l)
  | has key => do
    let _ ← packedSize _ key
    let row ← book.find (.row site key)
    return (row.isSome, book)
  | get key => do
    let _ ← packedSize _ key
    let row ← Book.required site (← book.find (.row site key))
    return (row, book)
  | getOrDefault key fallback => do
    let _ ← packedSize _ key
    let row ← book.find (.row site key)
    return (row.getD fallback, book)
  | getOrCreate key fallback => do
    let _ ← packedSize _ key
    match ← book.find (.row site key) with
    | some row => return (row, book)
    | none =>
      let own := (l.schema site).keyOf fallback
      let _ ← packedSize _ own
      return (fallback, ← book.put limit (.row site own) fallback)
  | insert fresh modify => do
    let row := modify fresh
    let own := (l.schema site).keyOf row
    let _ ← packedSize _ own
    return ((), ← book.put limit (.row site own) row)
  | update key modify => do
    let _ ← packedSize _ key
    let row ← Book.required site (← book.find (.row site key))
    return ((), ← book.put limit (.row site key) (modify row))
  | remove key => do
    let _ ← packedSize _ key
    return ((), ← book.erase (.row site key))

end TableOp

inductive SlotOp (type : WireType) where
  | put (value : type.Carrier)
  | exists?
  | get
  | getOrDefault (fallback : type.Carrier)

namespace SlotOp

abbrev Result {type : WireType} : SlotOp type → Type
  | put _ => Unit
  | exists? => Bool
  | get | getOrDefault _ => type.Carrier

def action {type : WireType} (s : Slot) : (op : SlotOp type) → Action op.Result
  | put value => s.put type value
  | exists? => s.exists?
  | get => s.get type
  | getOrDefault fallback => s.getOrDefault type fallback

def meaning (limit : Nat) (site : Site) (book : Book l) :
    (op : SlotOp (l.slotType site)) → Except ContractError (op.Result × Book l)
  | put value => do
    return ((), ← book.put limit (.slot site) value)
  | exists? => do
    let value ← book.find (.slot site)
    return (value.isSome, book)
  | get => do
    let value ← Book.required site (← book.find (.slot site))
    return (value, book)
  | getOrDefault fallback => do
    let value ← book.find (.slot site)
    return (value.getD fallback, book)

end SlotOp

/-- An operation on a site of the contract that issues it, under a record limit. -/
inductive Request (l : Layout) where
  | table (site : Site) (limit : Nat) (op : TableOp (l.schema site))
  | slot (site : Site) (limit : Nat) (op : SlotOp (l.slotType site))

namespace Request

def site : Request l → Site
  | table site _ _ => site
  | slot site _ _ => site

def limit : Request l → Nat
  | table _ limit _ => limit
  | slot _ limit _ => limit

abbrev Result : Request l → Type
  | table _ _ op => op.Result
  | slot _ _ op => op.Result

def action : (request : Request l) → Action request.Result
  | table site _ op => op.action ⟨site.2⟩
  | slot site _ op => op.action ⟨site.2⟩

def meaning (book : Book l) : (request : Request l) →
    Except ContractError (request.Result × Book l)
  | table site limit op => op.meaning limit site book
  | slot site limit op => op.meaning limit site book

/-- The answer to a request and the book after it. Only contracts have sites. -/
def interpret (request : Request l) (book : Book l) :
    Except ContractError request.Result × Book l :=
  if request.site.1.isContract then
    match request.meaning book with
    | .ok (result, after) => (.ok result, after)
    | .error cause => (.error cause, book)
  else (.error (.state (.notAContract request.site.1.text)), book)

def runAll {σ : Type}
    (answer : (request : Request l) → σ → Except ContractError request.Result × σ) :
    List (Request l) → σ → List ((request : Request l) × Except ContractError request.Result) × σ
  | [], state => ([], state)
  | request :: rest, state =>
    let (result, state) := answer request state
    let (results, state) := runAll answer rest state
    (⟨request, result⟩ :: results, state)

end Request
end ContractStore
