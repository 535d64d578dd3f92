import ContractStore.Call.Host
import ContractStore.Program.Basic
import ContractStore.Wire.Pack

/-!
Contracts: named methods with typed arguments. A call that names no method fails before anything
runs; otherwise its arguments are unpacked as one tuple and handed to the method.
-/
namespace ContractStore

structure CallContext where
  method : String
  args : Bytes
  contract : Name
  caller : Name
  deriving DecidableEq, Repr

namespace CallContext

def owner (ctx : CallContext) : String := ctx.contract.account

end CallContext

/-- What a method does: store calls that can be aborted, and effects on the host. What happened to
the host before an abort stays. -/
abbrev Call := ExceptT ContractError (StateT Host Program)

namespace Call
variable {α : Type}

/-- An action on stored state leaves the host alone. -/
def ofAction (action : Action α) : Call α := fun host =>
  action.run.bind fun result => .done (result, host)

instance : MonadLift Action Call := ⟨ofAction⟩

def host : Call Host := fun h => .done (.ok h, h)

def print (line : String) : Call Unit := fun h => .done (.ok (), h.print line)

def ofExcept (result : Except ContractError α) : Call α := fun h => .done (result, h)

def ensure (condition : Bool) (what : String) : Call Unit :=
  ofExcept (ContractStore.ensure condition what)

def requireAuth (account : Name) : Call Unit := fun h => .done (h.requireAuth account, h)

def transfer (source target : Name) (amount : Amount) : Call Unit := fun h =>
  match h.transfer source target amount with
  | .ok after => .done (.ok (), after)
  | .error cause => .done (.error cause, h)

end Call

structure Method where
  name : String
  params : WireRow
  body : params.Carrier → CallContext → Call Unit

structure Contract where
  typeName : String
  methods : List Method

namespace Contract

def methodNames (c : Contract) : List String := c.methods.map Method.name

def hasMethod (c : Contract) (name : String) : Bool := c.methodNames.contains name

def dispatch (c : Contract) (ctx : CallContext) : Call Unit :=
  match c.methods.find? fun m => m.name == ctx.method with
  | none => throw (.unknownMethod ctx.method)
  | some m => do
    let args ← Action.ofCodec ((WireType.tuple m.params).unpack ctx.args)
    m.body args ctx

end Contract
end ContractStore
