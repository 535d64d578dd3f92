/-!
Values of a TOML document. A table knows how it came about, because that decides who may still add
to it: a table under its own header or in braces is closed, one that only lies on the way to others
is open to headers, and one made by a dotted key is open to dotted keys.
-/
namespace ContractStore.Toml

inductive TableKind where
  | header
  | implied
  | dotted
  | braced
  deriving DecidableEq, Repr

inductive Value where
  | text (s : String)
  | integer (n : Int)
  | float
  | boolean (b : Bool)
  | dateTime
  | array (items : List Value)
  | table (kind : TableKind) (entries : List (String × Value))
  | tables (elements : List (List (String × Value)))

abbrev Entries : Type := List (String × Value)

namespace Entries

def find? (entries : Entries) (key : String) : Option Value := entries.lookup key

def remove (entries : Entries) (key : String) : Entries := entries.filter fun e => e.1 != key

def put (entries : Entries) (key : String) (value : Value) : Entries :=
  if (entries.find? key).isSome then
    entries.map fun e => if e.1 == key then (key, value) else e
  else entries ++ [(key, value)]

def add (entries : Entries) (key : String) (value : Value) : Option Entries :=
  if (entries.find? key).isSome then none else some (entries ++ [(key, value)])

/-- Changes the table at the end of `path`, making the tables on the way. A dotted key makes dotted
tables and does not pass through a table that is closed; a path of collected tables goes on in the
last of them. -/
def modify {α : Type} (dotted : Bool) (change : TableKind → Entries → Option (α × Entries)) :
    (kind : TableKind) → (path : List String) → Entries → Option (α × Entries)
  | kind, [], entries => change kind entries
  | _, key :: path, entries =>
    match entries.find? key with
    | none => do
      let kind := if dotted then TableKind.dotted else .implied
      let (result, inner) ← modify dotted change kind path []
      return (result, entries.put key (.table kind inner))
    | some (.table .braced _) => none
    | some (.table kind inner) => do
      if dotted && kind == .header then none
      let (result, inner) ← modify dotted change kind path inner
      return (result, entries.put key (.table kind inner))
    | some (.tables elements) =>
      match elements.getLast? with
      | none => none
      | some last => do
        let (result, last) ← modify dotted change .header path last
        return (result, entries.put key (.tables (elements.dropLast ++ [last])))
    | some _ => none

/-- Adds a value under a dotted key. Only tables made by dotted keys can be added to this way. -/
def addDotted (entries : Entries) (path : List String) (key : String) (value : Value) :
    Option Entries := do
  let add (kind : TableKind) (inner : Entries) : Option (Unit × Entries) := do
    if !path.isEmpty && kind != .dotted then none
    return ((), ← inner.add key value)
  let (_, entries) ← modify true add .header path entries
  return entries

end Entries
end ContractStore.Toml
