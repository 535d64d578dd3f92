import ContractStore.Error
import ContractStore.Sha256
import ContractStore.Wire.Domain

/-!
What a contract may ask of its chain besides stored state: the block, who authorised the call, coin
balances, and a log of printed lines.
-/
namespace ContractStore

abbrev Amount : Type := BitVec 64

namespace Amount

def saturatingAdd (a b : Amount) : Amount :=
  if a.uaddOverflow b then BitVec.allOnes 64 else a + b

def checkedSub (a b : Amount) : Option Amount := if b.toNat ≤ a.toNat then some (a - b) else none

end Amount

abbrev NameMap (ν : Type) : Type := SortedMap Domain.name.cmp ν

structure Host where
  block : BitVec 64
  time : BitVec 64
  witness : Name
  /-- The accounts whose authority the call carries. -/
  authorized : List Name
  balances : NameMap Amount
  printed : List String

namespace Host

def new : Host where
  block := 1
  time := 0
  witness := ⟨"initminer"⟩
  authorized := []
  balances := .empty
  printed := []

def withBlock (h : Host) (block time : BitVec 64) : Host := { h with block, time }

def withWitness (h : Host) (witness : Name) : Host := { h with witness }

def authorize (h : Host) (account : Name) : Host :=
  { h with authorized := account :: h.authorized }

def authorizeOnly (h : Host) (account : Name) : Host := { h with authorized := [account] }

def withBalance (h : Host) (account : Name) (amount : Amount) : Host :=
  { h with balances := h.balances.insert account amount }

def sha256 (data : Bytes) : (WireType.checksum .bits256).Carrier := Sha256.digest data

def requireAuth (h : Host) (account : Name) : Except ContractError Unit :=
  if account ∈ h.authorized then .ok ()
  else .error (.state (.permissionDenied s!"missing authority of {account.text}"))

def balanceOf (h : Host) (account : Name) : Amount := (h.balances.find? account).getD 0

/-- Takes `amount` from one account and then credits the other. -/
def transfer (h : Host) (source target : Name) (amount : Amount) : Except ContractError Host :=
  match (h.balanceOf source).checkedSub amount with
  | none => .error (.assertion s!"{source.text} balance not enough")
  | some left =>
    let h := h.withBalance source left
    .ok (h.withBalance target ((h.balanceOf target).saturatingAdd amount))

def print (h : Host) (line : String) : Host := { h with printed := h.printed ++ [line] }

end Host
end ContractStore
