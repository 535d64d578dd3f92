import ContractStore.Name
import ContractStore.Table.Basic
import ContractStore.Table.Singleton

/-!
Reading the tables of other contracts. A view starts without a location; binding it to a contract's
table gives it one, and a binding that fails keeps the one it had. External tables and external
singletons are views, read by a key's value or by the fixed key.
-/
namespace ContractStore

structure Location where
  owner : String
  contract : String
  table : String
  deriving DecidableEq, Repr

namespace Location

/-- The table `table` of a contract; a plain account has no tables. -/
def ofName (contract : Name) (table : String) : Except StateError Location :=
  if contract.isContract then .ok ⟨contract.account, contract.contract, table⟩
  else .error (.notAContract contract.text)

def ofParts (owner contract table : String) : Except StateError Location :=
  ofName (Name.contractOf owner contract) table

end Location

structure View (record : WireType) where
  location : Option Location
  deriving DecidableEq, Repr

namespace View
variable {record : WireType}

def unbound : View record := ⟨none⟩

def bound (owner contract table : String) : Except StateError (View record) := do
  let location ← Location.ofParts owner contract table
  return ⟨some location⟩

def isBound (v : View record) : Bool := v.location.isSome

def rebind (v : View record) (result : Except StateError Location) :
    Except StateError Unit × View record :=
  match result with
  | .ok location => (.ok (), ⟨some location⟩)
  | .error cause => (.error cause, v)

def bind (v : View record) (owner contract table : String) :
    Except StateError Unit × View record :=
  v.rebind (Location.ofParts owner contract table)

def bindName (v : View record) (contract : Name) (table : String) :
    Except StateError Unit × View record :=
  v.rebind (Location.ofName contract table)

def require (v : View record) : Action Location :=
  Action.ofState (match v.location with
    | some location => .ok location
    | none => .error .unbound)

def find (v : View record) (key : Bytes) : Action (Option record.Carrier) := do
  let l ← v.require
  Row.ofStored record (← Action.queryExternal l.owner l.contract l.table key)

def get (v : View record) (key : Bytes) : Action record.Carrier := do
  let l ← v.require
  Row.required l.table (← v.find key)

end View

abbrev ExternalTable (schema : Schema) : Type := View schema.type

namespace ExternalTable
variable {schema : Schema}

/-- Whether a row is stored under `key`; if one is, it has to unpack. -/
def has (t : ExternalTable schema) (key : schema.Key) : Action Bool := do
  let row ← View.find t (← Table.packKey schema key)
  return row.isSome

def get (t : ExternalTable schema) (key : schema.Key) : Action schema.Record := do
  View.get t (← Table.packKey schema key)

def getOrDefault (t : ExternalTable schema) (key : schema.Key) (fallback : schema.Record) :
    Action schema.Record := do
  let row ← View.find t (← Table.packKey schema key)
  return row.getD fallback

end ExternalTable

abbrev ExternalSingleton (schema : SingletonSchema) : Type := View schema.type

namespace ExternalSingleton
variable {schema : SingletonSchema}

def exists? (s : ExternalSingleton schema) : Action Bool := do
  let row ← View.find s (← Singleton.packKey)
  return row.isSome

def get (s : ExternalSingleton schema) : Action schema.Record := do
  View.get s (← Singleton.packKey)

def getOrDefault (s : ExternalSingleton schema) (fallback : schema.Record) :
    Action schema.Record := do
  let row ← View.find s (← Singleton.packKey)
  return row.getD fallback

end ExternalSingleton
end ContractStore
