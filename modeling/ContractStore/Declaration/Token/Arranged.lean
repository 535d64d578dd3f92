import ContractStore.Declaration.Token.Basic

/-!
The order in which generic parameters and arguments are shown: lifetimes first, whatever their order
in the source.
-/
namespace ContractStore.Token

def isLifetimeArgument : List Token → Bool
  | [lifetime _] => true
  | [lifetime _, mark "," _] => true
  | _ => false

def isLifetimeParameter : List Token → Bool
  | mark "#" _ :: group .square _ :: rest => isLifetimeParameter rest
  | lifetime _ :: _ => true
  | _ => false

/-- The entries of a list with the lifetimes first. Each keeps the comma behind it, and a lifetime
that has none gets one if others follow. -/
def lifetimesFirst (isLifetime : List Token → Bool) (tokens : List Token) : List Token :=
  let (first, others) := (entries tokens).partition isLifetime
  let first := first.flatten
  if first.isEmpty || endsInComma first || others.isEmpty then first ++ others.flatten
  else first ++ mark "," false :: others.flatten

mutual

/-- A token as it is shown; a list without parameters is not. -/
def arranged : Token → List Token
  | group .angle inner => [group .angle (lifetimesFirst isLifetimeArgument (arrangedAll inner))]
  | group .params [] => []
  | group .params inner => [group .params (lifetimesFirst isLifetimeParameter (arrangedAll inner))]
  | group bracket inner => [group bracket (arrangedAll inner)]
  | t => [t]

def arrangedAll : List Token → List Token
  | [] => []
  | t :: rest => t.arranged ++ arrangedAll rest

end

def shown (tokens : List Token) : String := text (arrangedAll tokens)

end ContractStore.Token
