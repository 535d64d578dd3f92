import ContractStore.Call.Contract

/-!
Ready-made calls: a contract, a caller, and a host that carries the caller's authority.
-/
namespace ContractStore

structure CallFixture where
  contract : Name
  caller : Name
  host : Host

namespace CallFixture

def ownerAccount : Name := ⟨"initminer"⟩

def accounts : List Name := ["alice", "bob", "carol", "dave"].map Name.mk

def new (owner contract : String) (caller : Name) : CallFixture :=
  ⟨Name.contractOf owner contract, caller, Host.new.authorize caller⟩

/-- The same contract called by another account, whose authority is then the only one. -/
def asCaller (f : CallFixture) (caller : Name) : CallFixture :=
  { f with caller, host := f.host.authorizeOnly caller }

def context (f : CallFixture) (method : String) (args : Bytes) : CallContext :=
  ⟨method, args, f.contract, f.caller⟩

end CallFixture
end ContractStore
