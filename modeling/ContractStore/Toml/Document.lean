import ContractStore.Toml.Scan

/-!
TOML documents. `parse` gives the root table of a document, or nothing if the text is no document or
says something twice. Values may nest as deep as `Scan.depthLimit`.
-/
namespace ContractStore.Toml

namespace Scan

def arrayFrom (item : Scan Value) : (fuel : Nat) → Scan (List Value)
  | 0 => fail
  | fuel + 1 => do
    gap
    match ← attempt (exactly "]") with
    | some () => return []
    | none =>
      let value ← item
      gap
      match ← attempt (exactly ",") with
      | some () => return value :: (← arrayFrom item fuel)
      | none => do
        exactly "]"
        return [value]

def pairsFrom (item : Scan Value) : (fuel : Nat) → Entries → Scan Entries
  | 0, _ => fail
  | fuel + 1, entries => do
    let path ← key
    exactly "="
    blanks
    let value ← item
    blanks
    match entries.addDotted path.dropLast (path.getLast?.getD "") value with
    | none => fail
    | some entries =>
      match ← attempt (exactly ",") with
      | some () => pairsFrom item fuel entries
      | none => do
        exactly "\x7d"
        return entries

/-- A value in which arrays and braces nest less than `depth` deep. -/
def value : (depth : Nat) → Scan Value
  | 0 => simpleValue
  | depth + 1 => do
    match ← peek with
    | some '[' => do
      if depth = 0 then fail
      exactly "["
      let items ← fun cs => arrayFrom (value depth) (cs.length + 1) cs
      return .array items
    | some '\x7b' => do
      if depth = 0 then fail
      exactly "\x7b"
      blanks
      match ← attempt (exactly "\x7d") with
      | some () => return .table .braced []
      | none =>
        let entries ← fun cs => pairsFrom (value depth) (cs.length + 1) [] cs
        return .table .braced entries
    | _ => simpleValue

end Scan

/-- A document that is being read: the finished part, and the table that lines are added to. -/
structure Draft where
  root : Entries
  current : Entries
  path : List String
  collected : Bool

namespace Draft

def new : Draft := ⟨[], [], [], false⟩

def lastOf (path : List String) : String := path.getLast?.getD ""

def finish (d : Draft) : Option Entries :=
  if d.path.isEmpty then some d.current
  else do
    let key := lastOf d.path
    let place (_ : TableKind) (parent : Entries) : Option (Unit × Entries) :=
      if d.collected then
        match parent.find? key with
        | some (.tables elements) => some ((), parent.put key (.tables (elements ++ [d.current])))
        | none => some ((), parent.put key (.tables [d.current]))
        | some _ => none
      else do return ((), ← parent.add key (.table .header d.current))
    let (_, root) ← Entries.modify false place .header d.path.dropLast d.root
    return root

/-- Begins the table of a header. It may have been on the way to others, and then keeps them. -/
def openTable (d : Draft) (path : List String) : Option Draft := do
  let root ← d.finish
  let key := lastOf path
  let take (_ : TableKind) (parent : Entries) : Option (Entries × Entries) :=
    match parent.find? key with
    | none => some ([], parent)
    | some (.table .implied inner) => some (inner, parent.remove key)
    | some _ => none
  let (current, root) ← Entries.modify false take .header path.dropLast root
  return ⟨root, current, path, false⟩

def openElement (d : Draft) (path : List String) : Option Draft := do
  let root ← d.finish
  let key := lastOf path
  let check (_ : TableKind) (parent : Entries) : Option (Unit × Entries) :=
    match parent.find? key with
    | none => some ((), parent)
    | some (.tables _) => some ((), parent)
    | some _ => none
  let (_, root) ← Entries.modify false check .header path.dropLast root
  return ⟨root, [], path, true⟩

def addPair (d : Draft) (path : List String) (value : Value) : Option Draft := do
  let current ← d.current.addDotted path.dropLast (lastOf path) value
  return { d with current }

end Draft

namespace Scan

def lift {α : Type} (result : Option α) : Scan α := fun cs => result.map fun a => (a, cs)

def statement (d : Draft) : Scan Draft := do
  match ← attempt (exactly "[[") with
  | some () => do
    let path ← key
    exactly "]]"
    let d ← lift (d.openElement path)
    lineEnd
    return d
  | none =>
    match ← attempt (exactly "[") with
    | some () => do
      let path ← key
      exactly "]"
      let d ← lift (d.openTable path)
      lineEnd
      return d
    | none => do
      let path ← key
      exactly "="
      blanks
      let v ← value depthLimit
      lineEnd
      lift (d.addPair path v)

def statements : (fuel : Nat) → Draft → Scan Draft
  | 0, _ => fail
  | fuel + 1, d => do
    blanks
    match ← peek with
    | none => return d
    | some '#' | some '\n' | some '\r' => do
      lineEnd
      statements fuel d
    | some _ => do
      let d ← statement d
      statements fuel d

end Scan

/-- The root table of a document. A byte order mark in front of it is dropped. -/
def parse (document : String) : Option Entries := do
  let cs := match document.toList with
    | '\ufeff' :: rest => rest
    | cs => cs
  let (d, _) ← Scan.statements (cs.length + 1) .new cs
  d.finish

end ContractStore.Toml
