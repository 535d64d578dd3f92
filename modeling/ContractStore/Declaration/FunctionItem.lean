import ContractStore.Declaration.Contract

/-!
The functions of a block of source: attributes, a signature, and a body. Any other item is no
function, and neither is a signature without a body.
-/
namespace ContractStore

namespace PlainAttribute
open Token

def outerOf : List Token → List PlainAttribute
  | mark "#" _ :: group .square inner :: rest => ofTokens inner :: outerOf rest
  | _ => []

def innerOf : List Token → List PlainAttribute
  | mark "#" _ :: mark "!" _ :: group .square inner :: rest => ofTokens inner :: innerOf rest
  | _ => []

end PlainAttribute

def FunctionDecl.ofSignature (attributes : List PlainAttribute) (signature : Signature) :
    FunctionDecl String where
  name := signature.name
  attributes
  receiver := signature.params.findSome? fun
    | .receiver found => some found
    | _ => none
  params := signature.params.filterMap fun
    | .typed type => some (Token.shown type)
    | _ => none
  result := signature.result.map .ofTokens

namespace ContractItem
open Token Reading

def read (g : Grammar) : Reading (ContractItem String) := do
  let outer := PlainAttribute.outerOf (← ahead)
  g.outerAttributes
  discard Grammar.visibility
  discard Grammar.replaceable
  let tokens ← ahead
  if Grammar.startsFunction tokens then
    let signature ← g.signature
    match ← ahead with
    | .group .curly body :: _ =>
      token
      return .function (.ofSignature (outer ++ PlainAttribute.innerOf body) signature)
    | _ =>
      mark ";"
      return .other
  else
    if (Grammar.behindCallMark tokens).isSome then Grammar.macroCall else Grammar.upToSemicolon
    return .other

def listOfSource (source : String) : List (ContractItem String) :=
  let found := do
    let tokens ← ofSource? source
    let g := Grammar.forTokens tokens
    run? (g.innerAttributes *> toEnd (read g)) tokens
  (found.map Prod.fst).getD []

end ContractItem

/-- The type that a block of items belongs to, from what the block says in front of its items. -/
def ContractDecl.targetOfSource (source : String) : String :=
  match Token.ofSource? source with
  | none => source
  | some tokens =>
    match (Grammar.forTokens tokens).implementationHeader.run ⟨tokens, []⟩ with
    | some ((target, _), _) => Token.shown target
    | none => Token.text tokens

end ContractStore
