import ContractStore.Declaration.Grammar.Path

/-!
Bounds of types, and the parameters that are declared with them.
-/
namespace ContractStore.Grammar
open Reading Token

def startsBound : List Token → Bool
  | .word _ :: _ => true
  | .lifetime _ :: _ => true
  | .group .round _ :: _ => true
  | .group .square _ :: _ => true
  | tokens => starts "::" tokens || starts "?" tokens || starts "~" tokens

def bounds (g : Grammar) : Reading Unit := sequence "+" (fun tokens => !startsBound tokens) g.bound

/-- Bounds behind a colon. A colon without bounds is not shown. -/
def colonBounds (g : Grammar) (stop : List Token → Bool) : Reading Unit := do
  let found ← heldBack do
    if ← mark? ":" then sequence "+" stop g.bound
  if 1 < found.length then put found

def parameter (g : Grammar) : Reading Unit := do
  g.outerAttributes
  if ← word? "const" then
    token
    mark ":"
    g.type true
    if ← mark? "=" then g.constant
  else
    token
    g.colonBounds fun tokens => starts "," tokens || starts ">" tokens || starts "=" tokens
    if ← mark? "=" then g.type true

def binder (g : Grammar) : Reading Unit := do
  if ← word? "for" then angled .binder g.parameter

/-- Whether a bound holds in constants only; such a bound is shown as it is. -/
def isConstantBound (tokens : List Token) : Bool :=
  let rest := if startsWord ["for"] tokens then
      (tokens.dropWhile fun t => !t.isMark ">").drop 1
    else tokens
  startsGroup .square rest || startsWord ["const"] rest || starts "~" rest

def interfaceBound (g : Grammar) : Reading Unit := do
  g.binder
  let tokens ← ahead
  if startsGroup .square tokens || startsWord ["const"] tokens then token
  if ← mark? "~" then word "const"
  discard (mark? "?")
  g.binder
  g.path .type
  discard g.callArguments?

def readBound (g : Grammar) : Reading Unit := do
  match ← ahead with
  | .lifetime _ :: _ => token
  | .word "use" :: _ => do
    token
    angled .angle token
  | .group .round inner :: _ =>
    if isConstantBound inner then token else within .round g.interfaceBound
  | tokens => if isConstantBound tokens then verbatim g.interfaceBound else g.interfaceBound

end ContractStore.Grammar
