import ContractStore.Call.Contract
import ContractStore.Table.External
import ContractStore.Table.Basic
import ContractStore.Text.Quoted

/-!
How calls, tables and views are shown in diagnostics.
-/
namespace ContractStore

namespace Name

def diagnostic (n : Name) : String := Text.structText "Name" [("name", Text.quote n.text)] []

end Name

namespace CallContext

/-- The arguments are shown by their length, and the host not at all. -/
def diagnostic (ctx : CallContext) : String :=
  Text.structText "CallContext"
    [("method", Text.quote ctx.method), ("args_len", toString ctx.args.length),
      ("contract", ctx.contract.diagnostic), ("caller", ctx.caller.diagnostic)] [".."]

end CallContext

namespace Table

def diagnostic {schema : Schema} (t : Table schema) : String :=
  Text.structText "Table" [("name", Text.quote t.name)] []

end Table

namespace View

def diagnostic {record : WireType} (kind : String) (v : View record) : String :=
  let location := match v.location with
    | none => "None"
    | some l =>
      let fields := [("owner", l.owner), ("contract", l.contract), ("table", l.table)]
      "Some(" ++ Text.structText "Location" (fields.map fun (n, v) => (n, Text.quote v)) [] ++ ")"
  Text.structText kind [("location", location)] []

end View

namespace ExternalTable

def diagnostic {schema : Schema} (t : ExternalTable schema) : String :=
  View.diagnostic "ExternalTable" t

end ExternalTable

namespace ExternalSingleton

def diagnostic {schema : SingletonSchema} (s : ExternalSingleton schema) : String :=
  View.diagnostic "ExternalSingleton" s

end ExternalSingleton
end ContractStore
