import ContractStore.Declaration.Grammar.Path

/-!
Patterns: names, literals and ranges of them, and patterns in brackets behind a path or alone.
-/
namespace ContractStore.Grammar
open Reading Token

def patterns (g : Grammar) : Reading Unit := do
  discard (mark? "|")
  g.pattern
  whileAhead (fun tokens => starts "|" tokens && !starts "||" tokens && !starts "|=" tokens) do
    mark "|"
    g.pattern

def endsPatternRange (tokens : List Token) : Bool :=
  tokens.isEmpty || ["|", "=", ",", ";"].any (starts · tokens) ||
    starts ":" tokens && !starts "::" tokens || startsWord ["if"] tokens

def patternEnd (g : Grammar) : Reading Unit := do
  discard (mark? "-")
  match ← ahead with
  | .literal _ :: _ => token
  | tokens =>
    if startsWord ["true", "false"] tokens then token
    else if ← word? "const" then g.block
    else g.qualifiedPath .expression

/-- The rest of a range, if there is one. Three points mark a range with its end too, and are shown
as the usual mark of one. -/
def patternRange (g : Grammar) : Reading Unit := do
  if starts ".." (← ahead) then
    if starts "..." (← ahead) then
      discard (heldBack (mark "..."))
      put [.mark "..=" false]
    else if !(← mark? "..=") then mark ".."
    if !endsPatternRange (← ahead) then g.patternEnd

def fieldPattern (g : Grammar) : Reading Unit := do
  g.outerAttributes
  if !(← mark? "..") then
    discard (word? "box")
    discard (word? "ref")
    discard (word? "mut")
    discard member
    if ← mark? ":" then g.patterns

def pathPattern (g : Grammar) : Reading Unit := do
  g.qualifiedPath .expression
  let tokens ← ahead
  if startsCallMark tokens then
    mark "!"
    token
  else if startsGroup .curly tokens then within .curly (commas g.fieldPattern)
  else if startsGroup .round tokens then within .round (commas g.patterns)
  else g.patternRange

def namePattern (g : Grammar) : Reading Unit := do
  discard (word? "ref")
  discard (word? "mut")
  token
  if ← mark? "@" then g.pattern

def continuesPath (rest : List Token) : Bool :=
  ["::", "!", ".."].any (starts · rest) || startsGroup .curly rest || startsGroup .round rest

def startsPathPattern (tokens : List Token) : Bool :=
  startsName tokens && continuesPath (tokens.drop 1) ||
    startsWord ["self"] tokens && starts "::" (tokens.drop 1) ||
    starts "::" tokens || starts "<" tokens || startsWord ["Self", "super", "crate"] tokens

def readPattern (g : Grammar) : Reading Unit := do
  match ← ahead with
  | .literal _ :: _ => do
    g.patternEnd
    g.patternRange
  | .word "_" :: _ => token
  | .word "box" :: _ => verbatim do
    token
    g.pattern
  | .mark "&" _ :: _ => do
    mark "&"
    discard (word? "mut")
    g.pattern
  | .group .round _ :: _ => within .round (commas g.patterns)
  | .group .square _ :: _ => within .square (commas g.patterns)
  | tokens =>
    if startsPathPattern tokens then g.pathPattern
    else if starts ".." tokens then g.patternRange
    else if starts "-" tokens || startsWord ["true", "false", "const"] tokens then
      g.patternEnd
      g.patternRange
    else g.namePattern

end ContractStore.Grammar
