import ContractStore.Contracts.Token
import ContractStore.Table.External

/-!
A vault: it reads another contract's balances and keeps copies of them in a table of its own.
-/
namespace ContractStore.Vault

def watched : Except StateError (ExternalTable Token.balanceSchema) :=
  View.bound "initminer" "token" "balances"

def snapshots : Table Token.balanceSchema := ⟨"snapshots"⟩

def snapshot (who : Name) (least : Amount) : Call Unit := do
  let token ← Action.ofState watched
  let held ← ExternalTable.get token who
  let amount := Token.Balance.amount held
  Call.ensure (least.toNat ≤ amount.toNat) s!"{who.text} holds {amount.toNat}"
  snapshots.insert Token.Balance.initial fun _ => held

def contract : Contract where
  typeName := "vault"
  methods := [
    { name := "snapshot"
      params := .unlabelled [.name, .int .u64]
      body := fun (who, least, ()) _ => snapshot who least }]

end ContractStore.Vault
