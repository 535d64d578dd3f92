/-!
Names of accounts and of contracts. A contract is written `$contract@owner`; any other text is the
name of a plain account, also when it comes close to that form.
-/
namespace ContractStore

structure Name where
  text : String
  deriving DecidableEq, Repr

namespace Name

/-- The contract and the owner that `chars` names: a dollar sign, all up to the first at sign, and
a non-empty rest. -/
def split : List Char → Option (List Char × List Char)
  | '$' :: rest =>
    match rest.dropWhile (· != '@') with
    | '@' :: owner@(_ :: _) => some (rest.takeWhile (· != '@'), owner)
    | _ => none
  | _ => none

def parts? (n : Name) : Option (String × String) :=
  (split n.text.toList).map fun (contract, owner) => (String.ofList contract, String.ofList owner)

def isContract (n : Name) : Bool := n.parts?.isSome

def account (n : Name) : String := (n.parts?.map Prod.snd).getD n.text

def contract (n : Name) : String := (n.parts?.map Prod.fst).getD ""

def contractOf (owner contract : String) : Name := ⟨"$" ++ contract ++ "@" ++ owner⟩

end Name
end ContractStore
