import ContractStore.Declaration.Grammar.Bound

/-!
Types: paths, tuples, arrays, references and pointers, functions, and interfaces.
-/
namespace ContractStore.Grammar
open Reading Token

def startsFunctionType (tokens : List Token) : Bool := startsWord ["fn", "unsafe", "extern"] tokens

/-- A parameter of a function type, perhaps with a name. One for the value itself is shown as it is
if it can be changed. -/
def typeParameter (g : Grammar) : Reading Unit := do
  g.outerAttributes
  let tokens ← ahead
  if startsWord ["mut"] tokens && startsWord ["self"] (tokens.drop 1) then
    verbatim do
      token
      token
      if ← mark? ":" then g.type true
  else
    let isNamed := startsName tokens || startsWord ["_", "self"] tokens
    if isNamed && starts ":" (tokens.drop 1) && !starts "::" (tokens.drop 1) then
      token
      mark ":"
    if !(← mark? "...") then g.type true

def functionType (g : Grammar) : Reading Unit := do
  whileAhead (fun tokens => !startsWord ["fn"] tokens) token
  word "fn"
  within .round (commas g.typeParameter)
  g.result false

def moreBounds (g : Grammar) (plus : Bool) : Reading Unit := do
  if plus && starts "+" (← ahead) then
    mark "+"
    g.bounds

/-- A type that begins with a path: the path, a macro, or the first of several bounds. Only the
bounds keep the lifetimes that are bound in front. -/
def pathType (g : Grammar) (plus : Bool) (binder : List Token) : Reading Unit := do
  let path ← heldBack g.typePath
  if startsCallMark (← ahead) then
    put path
    mark "!"
    token
  else
    put (binder ++ path)
    g.moreBounds plus

def interfaceType (g : Grammar) (plus : Bool) : Reading Unit :=
  if plus then g.bounds else g.bound

def roundType (g : Grammar) (plus : Bool) (inner : List Token) : Reading Unit := do
  if starts "?" inner then
    within .round g.interfaceBound
    g.moreBounds true
  else
    within .round (commas (g.type true))
    g.moreBounds plus

def readType (g : Grammar) (plus : Bool) : Reading Unit := do
  match ← ahead with
  | .word "for" :: _ => do
    let binder ← heldBack g.binder
    if startsFunctionType (← ahead) then
      put binder
      g.functionType
    else g.pathType plus binder
  | .group .round inner :: _ => g.roundType plus inner
  | .group .square _ :: _ => within .square do
    g.type true
    if ← mark? ";" then g.expression true
  | .lifetime _ :: _ => g.bounds
  | .word "dyn" :: rest =>
    if starts "*" rest then
      verbatim do
        token
        mark "*"
        g.interfaceType plus
    else do
      token
      g.interfaceType plus
  | .word "impl" :: _ => do
    token
    g.interfaceType plus
  | .word "_" :: _ => token
  | .word "builtin" :: .mark "#" _ :: _ => do
    word "builtin"
    mark "#"
    token
    token
  | .mark "!" _ :: _ => token
  | .mark "*" _ :: _ => do
    mark "*"
    token
    g.type false
  | .mark "&" _ :: _ => do
    mark "&"
    if startsLifetime (← ahead) then token
    discard (word? "mut")
    g.type false
  | tokens => if startsFunctionType tokens then g.functionType else g.pathType plus []

end ContractStore.Grammar
