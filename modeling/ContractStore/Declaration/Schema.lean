import ContractStore.Declaration.Record
import ContractStore.Table.Singleton
import ContractStore.Wire.Schema

/-!
The schemas of declared records: a record with a key is kept in tables, and one whose base is the
singleton header is kept as a singleton.
-/
namespace ContractStore

namespace RecordExpansion

def row (e : RecordExpansion WireType) : WireRow := .ofList e.fields

def schema? (e : RecordExpansion WireType) : Option Schema := do
  let (label, _) ← e.key
  let ⟨keyType, key⟩ ← Member.ofLabel? e.row label
  return ⟨e.typeName, e.hasBase, e.row, keyType, key⟩

def singleton? (e : RecordExpansion WireType) : Option SingletonSchema :=
  match e.hasBase, e.fields with
  | true, (label, .record header false (.cons "id" (.int .i32) .nil)) :: own =>
    if header = singletonHeaderName then some ⟨e.typeName, label, .ofList own⟩ else none
  | _, _ => none

end RecordExpansion
end ContractStore
