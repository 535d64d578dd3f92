import ContractStore.Table.Row
import ContractStore.Wire.Schema

/-!
Tables of records. A row lies under the packed bytes of its key field, so two keys are one exactly
when their encodings are equal. A table exists as soon as a row is written to it.
-/
namespace ContractStore

structure Table (schema : Schema) where
  name : String
  deriving DecidableEq, Repr

namespace Table
variable {schema : Schema}

def ofRecord (schema : Schema) : Table schema := ⟨schema.typeName⟩

def packKey (schema : Schema) (key : schema.Key) : Action Bytes :=
  Action.ofCodec (schema.keyType.pack key)

/-- Whether a row is stored under `key`; it need not be one that can be unpacked. -/
def has (t : Table schema) (key : schema.Key) : Action Bool := do
  let bytes ← Action.query t.name (← packKey schema key)
  return bytes.isSome

def get (t : Table schema) (key : schema.Key) : Action schema.Record := do
  Row.get schema.type t.name (← packKey schema key)

def getOrDefault (t : Table schema) (key : schema.Key) (fallback : schema.Record) :
    Action schema.Record := do
  let row ← Row.find schema.type t.name (← packKey schema key)
  return row.getD fallback

/-- The row under `key`; if there is none, `fallback` is stored under its own key. -/
def getOrCreate (t : Table schema) (key : schema.Key) (fallback : schema.Record) :
    Action schema.Record := do
  match ← Row.find schema.type t.name (← packKey schema key) with
  | some row => return row
  | none =>
    Row.insert schema.type t.name (← packKey schema (schema.keyOf fallback)) fallback
    return fallback

def insert (t : Table schema) (fresh : schema.Record) (modify : schema.Record → schema.Record) :
    Action Unit := do
  let row := modify fresh
  Row.insert schema.type t.name (← packKey schema (schema.keyOf row)) row

/-- Rewrites the row under `key`, also where `modify` changes its key field. -/
def update (t : Table schema) (key : schema.Key) (modify : schema.Record → schema.Record) :
    Action Unit := do
  let key ← packKey schema key
  let row ← Row.get schema.type t.name key
  Row.update schema.type t.name key (modify row)

def remove (t : Table schema) (key : schema.Key) : Action Unit := do
  Action.delete t.name (← packKey schema key)

end Table
end ContractStore
