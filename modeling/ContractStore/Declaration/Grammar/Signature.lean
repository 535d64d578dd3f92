import ContractStore.Declaration.Grammar.Bound
import ContractStore.Declaration.Grammar.Pattern

/-!
Signatures of functions: a name, generic parameters, parameters, a result type, and conditions.
-/
namespace ContractStore

structure Receiver where
  byReference : Bool
  exclusive : Bool
  deriving DecidableEq, Repr

inductive Parameter where
  | receiver (receiver : Receiver)
  | typed (type : List Token)
  | variadic

structure Signature where
  name : String
  params : List Parameter
  result : Option (List Token)

namespace Grammar
open Reading Token

def generics (g : Grammar) : Reading Unit := do
  if starts "<" (← ahead) then angled .params g.parameter

def endsWhere (tokens : List Token) : Bool :=
  tokens.isEmpty || startsGroup .curly tokens || [";", "=", ","].any (starts · tokens) ||
    starts ":" tokens && !starts "::" tokens

def predicate (g : Grammar) : Reading Unit := do
  if startsLifetime (← ahead) then token
  else
    g.binder
    g.type true
  mark ":"
  sequence "+" endsWhere g.bound

/-- The conditions on types. The word for them is not shown if there are none. -/
def whereClause (g : Grammar) : Reading Unit := do
  let found ← heldBack do
    if ← word? "where" then sequence "," endsWhere g.predicate
  if 1 < found.length then put found

def receiver (g : Grammar) : Reading Receiver := do
  let byReference ← mark? "&"
  if byReference && startsLifetime (← ahead) then token
  let exclusive ← word? "mut"
  word "self"
  if !byReference then
    if ← mark? ":" then g.type true
  return ⟨byReference, exclusive⟩

/-- A parameter that is no receiver: a pattern and its type. A type with arguments may stand alone;
it is shown with a pattern that matches everything. -/
def typedParameter (g : Grammar) : Reading Parameter := do
  let tokens ← ahead
  if startsName tokens && starts "<" (tokens.drop 1) then
    put [.word "_", .mark ":" false]
  else
    g.pattern
    mark ":"
    if ← mark? "..." then return .variadic
  return .typed (← shownBy (g.type true))

def functionParameter (g : Grammar) : Reading Parameter := do
  g.outerAttributes
  if ← mark? "..." then return .variadic
  .receiver <$> g.receiver <|> g.typedParameter

def startsFunction : List Token → Bool
  | .word "fn" :: _ => true
  | .word "extern" :: .literal _ :: rest => startsFunction rest
  | .word w :: rest =>
    ["const", "async", "unsafe", "safe", "extern"].contains w && startsFunction rest
  | _ => false

def signature (g : Grammar) : Reading Signature := do
  whileAhead (fun tokens => !startsWord ["fn"] tokens) token
  word "fn"
  let name := Token.text ((← ahead).take 1)
  token
  g.generics
  let params ← inside .round (separated "," List.isEmpty g.functionParameter)
  let result ← if starts "->" (← ahead) then
      mark "->"
      some <$> shownBy (g.type true)
    else pure none
  g.whereClause
  return ⟨name, params.getD [], result⟩

end Grammar
end ContractStore
