import ContractStore.Contracts.Keeper
import ContractStore.Contracts.Probe
import ContractStore.Contracts.Token
import ContractStore.Contracts.Vault

/-!
The contracts that can be called, by the code they are deployed as.
-/
namespace ContractStore.Registry

def entries : List (String × Contract) :=
  [("token", Token.contract), ("vault", Vault.contract), ("probe", Probe.contract),
    ("plain", Keeper.plain), ("holder", Keeper.holder)]

def find? (code : String) : Option Contract := entries.lookup code

end ContractStore.Registry
