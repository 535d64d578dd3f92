import ContractStore.Call.Contract
import ContractStore.Call.Limits
import ContractStore.Store.Overlay

/-!
Running a call. The call's program works on an overlay; if it ends well, the overlay's batch is
applied to the store in one step, and otherwise the store is as it was. The arguments' length is
checked first and the contract's name second.
-/
namespace ContractStore

/-- What a committed call changed. -/
structure Receipt where
  method : String
  writes : Nat
  deletes : Nat
  deriving DecidableEq, Repr

namespace Limits
variable {σ : Type} [Store σ]

def execute (limits : Limits) (ctx : CallContext) (program : Call Unit) (host : Host) (store : σ) :
    Except ContractError Receipt × Host × σ :=
  match limits.checkArgsLen ctx.args.length with
  | .error cause => (.error cause, host, store)
  | .ok () =>
    match Namespace.ofName ctx.contract limits.maxRecordBytes with
    | .error cause => (.error (.state cause), host, store)
    | .ok place =>
      match place.run (program.run host) (Overlay.new store) with
      | ((.error cause, host), _) => (.error cause, host, store)
      | ((.ok (), host), overlay) =>
        match overlay.commit with
        | (.ok batch, store) =>
          (.ok ⟨ctx.method, batch.inserts.length, batch.deletes.length⟩, host, store)
        | (.error cause, store) => (.error (.state cause), host, store)

def call (limits : Limits) (contract : Contract) (ctx : CallContext) (host : Host) (store : σ) :
    Except ContractError Receipt × Host × σ :=
  limits.execute ctx (contract.dispatch ctx) host store

end Limits
end ContractStore
