import ContractStore.Declaration.Grammar.Basic

/-!
Paths: names with double colons between them, and what may follow a name, which is a list of
arguments in angle brackets, or a list of types in round ones with a result type.
-/
namespace ContractStore.Grammar
open Reading Token

inductive PathStyle where
  | type
  | expression
  deriving DecidableEq, Repr

def startsArguments (style : PathStyle) (tokens : List Token) : Bool :=
  style == .type && starts "<" tokens && !starts "<=" tokens && !starts "<<=" tokens ||
    starts "::" tokens && starts "<" (tokens.drop 2)

def startsConstant : List Token → Bool
  | .literal _ :: _ => true
  | .mark "-" _ :: .literal _ :: _ => true
  | tokens => startsWord ["true", "false"] tokens || startsGroup .curly tokens

def constant (g : Grammar) : Reading Unit := do
  discard (mark? "-")
  if startsGroup .curly (← ahead) then g.block else token

def argument (g : Grammar) : Reading Unit := do
  let tokens ← ahead
  if startsLifetime tokens && !starts "+" (tokens.drop 1) then token
  else if startsConstant tokens then g.constant
  else match ← shownBy (g.type true) with
    | [.word _] | [.word _, .group .angle _] | [.word _, .mark _ _, .group .angle _] =>
      if ← mark? "=" then
        if startsConstant (← ahead) then g.constant else g.type true
      else if ← mark? ":" then
        sequence "+" (fun tokens => starts "," tokens || starts ">" tokens) g.bound
    | _ => return

def segment (g : Grammar) (style : PathStyle) : Reading Unit := do
  let tokens ← ahead
  if startsWord ["super", "self", "crate", "try"] tokens then token
  else if startsName tokens || startsWord ["Self"] tokens then
    token
    if startsArguments style (← ahead) then
      discard (mark? "::")
      angled .angle g.argument
  else failure

/-- Whether a name follows; a list in round brackets belongs to the name before. -/
def startsSegment (tokens : List Token) : Bool :=
  starts "::" tokens && !startsGroup .round (tokens.drop 2)

def moreSegments (g : Grammar) (style : PathStyle) : Reading Unit := whileAhead startsSegment do
  mark "::"
  g.segment style

def path (g : Grammar) (style : PathStyle) : Reading Unit := do
  discard (mark? "::")
  g.segment style
  g.moreSegments style

def qualifiedPath (g : Grammar) (style : PathStyle) : Reading Unit := do
  if starts "<" (← ahead) then
    discard (heldBack (mark "<"))
    bracketed .angle do
      g.type true
      if ← word? "as" then g.path .type
    discard (heldBack (mark ">"))
    g.moreSegments style
  else g.path style

def result (g : Grammar) (plus : Bool) : Reading Unit := do
  if ← mark? "->" then g.type plus

/-- What stands behind if the last name has no arguments. An empty list of them is left out. -/
def withoutArguments? : List Token → Option (List Token)
  | .group .angle [] :: .mark _ _ :: behind => some behind
  | .group .angle [] :: behind => some behind
  | .word name :: behind => some (.word name :: behind)
  | _ => none

/-- A list of types in round brackets and a result type, if the last name can take them, and whether
there are any. A double colon in front of the list is left out. -/
def callArguments? (g : Grammar) : Reading Bool := do
  let place ← get
  match withoutArguments? place.behind with
  | none => return false
  | some behind =>
    let rest := (behindMark [':', ':'] place.ahead).getD place.ahead
    if startsGroup .round rest then
      set (Place.mk rest behind)
      within .round (commas (g.type true))
      g.result false
      return true
    else return false

def typePath (g : Grammar) : Reading Unit := do
  g.qualifiedPath .type
  repeated do
    if ← g.callArguments? then
      g.moreSegments .type
      return true
    else return false

/-- Whether a macro is called: a mark that is not part of a comparison stands behind the path. -/
def startsCallMark (tokens : List Token) : Bool := starts "!" tokens && !starts "!=" tokens

end ContractStore.Grammar
