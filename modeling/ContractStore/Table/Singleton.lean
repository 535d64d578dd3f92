import ContractStore.Table.Row
import ContractStore.Wire.Initial

/-!
Tables with one row. The record extends the singleton header, and every write sets the header's
identifier to the fixed one, under which the row lies.
-/
namespace ContractStore

structure SingletonSchema where
  typeName : String
  baseLabel : String
  own : WireRow

namespace SingletonSchema

abbrev type (s : SingletonSchema) : WireType :=
  .record s.typeName true (.cons s.baseLabel singletonHeader s.own)

abbrev Record (s : SingletonSchema) : Type := s.type.Carrier

def idOf (s : SingletonSchema) : s.Record → BitVec 32
  | ((id, ()), _) => id

def normalize (s : SingletonSchema) : s.Record → s.Record
  | (_, own) => ((singletonId, ()), own)

end SingletonSchema

structure Singleton (schema : SingletonSchema) where
  name : String
  deriving DecidableEq, Repr

namespace Singleton
variable {schema : SingletonSchema}

def ofRecord (schema : SingletonSchema) : Singleton schema := ⟨schema.typeName⟩

def packKey : Action Bytes := Action.ofCodec ((WireType.int .i32).pack singletonId)

/-- Whether the row is there; if it is, it has to unpack. -/
def exists? (s : Singleton schema) : Action Bool := do
  let row ← Row.find schema.type s.name (← packKey)
  return row.isSome

def get (s : Singleton schema) : Action schema.Record := do
  Row.get schema.type s.name (← packKey)

def getOrDefault (s : Singleton schema) (fallback : schema.Record) : Action schema.Record := do
  let row ← Row.find schema.type s.name (← packKey)
  return row.getD fallback

def getOrCreate (s : Singleton schema) (fallback : schema.Record) : Action schema.Record := do
  let key ← packKey
  match ← Row.find schema.type s.name key with
  | some row => return row
  | none =>
    let row := schema.normalize fallback
    Row.insert schema.type s.name key row
    return row

def update (s : Singleton schema) (modify : schema.Record → schema.Record) : Action Unit := do
  let key ← packKey
  let row ← Row.get schema.type s.name key
  Row.update schema.type s.name key (schema.normalize (modify row))

def remove (s : Singleton schema) : Action Unit := do
  Action.delete s.name (← packKey)

end Singleton
end ContractStore
