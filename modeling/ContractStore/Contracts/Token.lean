import ContractStore.Call.Contract
import ContractStore.Slot
import ContractStore.Table.Basic
import ContractStore.Table.Singleton

/-!
A token: one supply that is created once, and a balance for each account. Every change of a balance
rewrites the account's row.
-/
namespace ContractStore.Token

abbrev statsSchema : SingletonSchema :=
  ⟨"stats", "base", .cons "symbol" .string (.cons "total_supply" (.int .u64) .nil)⟩

abbrev Stats : Type := statsSchema.Record

namespace Stats

def mk (symbol : String) (totalSupply : Amount) : Stats :=
  ((singletonId, ()), symbol, totalSupply, ())

def symbol : Stats → String
  | (_, s, _, _) => s

def totalSupply : Stats → Amount
  | (_, _, supply, _) => supply

end Stats

abbrev balanceSchema : Schema where
  typeName := "balances"
  hasBase := false
  fields := .cons "owner" .name (.cons "amount" (.int .u64) .nil)
  keyType := .name
  key := .here

abbrev Balance : Type := balanceSchema.Record

namespace Balance

def mk (owner : Name) (amount : Amount) : Balance := (owner, amount, ())

def owner : Balance → Name
  | (n, _, _) => n

def amount : Balance → Amount
  | (_, a, _) => a

def initial : Balance := balanceSchema.type.initial

end Balance

def balances : Table balanceSchema := Table.ofRecord balanceSchema

def stats : Singleton statsSchema := Singleton.ofRecord statsSchema

def balanceOf (who : Name) : Action Amount := do
  let row ← balances.getOrDefault who Balance.initial
  return Balance.amount row

def setBalance (who : Name) (amount : Amount) : Action Unit :=
  balances.insert Balance.initial fun _ => Balance.mk who amount

def debit (who : Name) (amount : Amount) : Call Unit := do
  let held ← balanceOf who
  match held.checkedSub amount with
  | some left => setBalance who left
  | none => throw (.assertion s!"{who.text} balance not enough")

/-- Gives `amount` to `who`; a balance stops at the greatest amount. -/
def credit (who : Name) (amount : Amount) : Call Unit := do
  let held ← balanceOf who
  setBalance who (held.saturatingAdd amount)

def create (symbol : String) (totalSupply : Amount) (ctx : CallContext) : Call Unit := do
  let owner : Name := ⟨ctx.owner⟩
  Call.requireAuth owner
  let created ← stats.exists?
  Call.ensure (!created) "token already created"
  let _ ← stats.getOrCreate (Stats.mk symbol totalSupply)
  credit owner totalSupply

def transfer (target : Name) (amount : Amount) (ctx : CallContext) : Call Unit := do
  Call.requireAuth ctx.caller
  debit ctx.caller amount
  credit target amount

/-- Pays each recipient in turn from the owner's balance. -/
def airdrop (recipients : List Name) (amount : Amount) (ctx : CallContext) : Call Unit := do
  let owner : Name := ⟨ctx.owner⟩
  Call.requireAuth owner
  recipients.forM fun recipient => do
    credit recipient amount
    debit owner amount

def close (ctx : CallContext) : Call Unit := do
  let held ← balanceOf ctx.caller
  Call.ensure (held == 0) "cannot close a funded account"
  balances.remove ctx.caller

abbrev memoType : WireType := .tuple (.unlabelled [.int .i32, .string])

def memo (value : memoType.Carrier) : Call Unit := do
  (Slot.mk "memo").put memoType value

def contract : Contract where
  typeName := "token"
  methods := [
    { name := "create"
      params := .unlabelled [.string, .int .u64]
      body := fun (symbol, totalSupply, ()) => create symbol totalSupply },
    { name := "transfer"
      params := .unlabelled [.name, .int .u64]
      body := fun (target, amount, ()) => transfer target amount },
    { name := "airdrop"
      params := .unlabelled [.vec .name, .int .u64]
      body := fun (recipients, amount, ()) => airdrop recipients amount },
    { name := "close"
      params := .unlabelled []
      body := fun () => close },
    { name := "memo"
      params := .unlabelled [.int .i32, .string]
      body := fun value _ => memo value }]

end ContractStore.Token
