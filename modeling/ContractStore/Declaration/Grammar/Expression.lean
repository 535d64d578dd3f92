import ContractStore.Declaration.Grammar.Bound
import ContractStore.Declaration.Grammar.Pattern

/-!
Expressions: operands with operators between them. Between two operators stands a literal, a path, a
block, or a form that begins with a word of its own, followed by calls, fields and indices.
-/
namespace ContractStore.Grammar
open Reading Token

def fieldValue (g : Grammar) : Reading Unit := do
  g.outerAttributes
  if ← mark? ".." then
    if !(← ahead).isEmpty then g.expression true
  else
    discard member
    if ← mark? ":" then g.expression true

def pathExpression (g : Grammar) (braces : Bool) : Reading Unit := do
  g.qualifiedPath .expression
  let tokens ← ahead
  if startsCallMark tokens then
    mark "!"
    token
  else if braces && startsGroup .curly tokens then within .curly (commas g.fieldValue)

def arguments (g : Grammar) : Reading Unit := within .round (commas (g.expression true))

def elements (g : Grammar) : Reading Unit := within .square do
  if !(← ahead).isEmpty then
    g.expression true
    if ← mark? ";" then g.expression true
    else if ← mark? "," then commas (g.expression true)

def startsSelector (tokens : List Token) : Bool :=
  starts "." tokens && !starts ".." tokens || starts "?" tokens

def selectors (g : Grammar) : Reading Unit := repeated do
  let tokens ← ahead
  if startsGroup .round tokens then
    g.arguments
    return true
  else if startsGroup .square tokens then
    within .square (g.expression true)
    return true
  else if startsSelector tokens then
    if !(← mark? "?") then
      mark "."
      if ← member then discard member
      if ← mark? "::" then angled .angle g.argument
    return true
  else return false

def startsExpression (tokens : List Token) : Bool :=
  match tokens with
  | [] => false
  | .word w :: _ => w != "as"
  | .mark _ _ :: _ =>
    ["#", "..", "::", "!", "-", "*", "|", "&", "<"].any (starts · tokens) &&
      ["!=", "-=", "->", "*=", "|=", "&=", "<=", "<<="].all (!starts · tokens)
  | _ => true

def endsRange (braces : Bool) (tokens : List Token) : Bool :=
  tokens.isEmpty || startsSelector tokens ||
    [",", ";", "=", "+", "/", "%", "^", ">", "<=", "!=", "-=", "*=", "&=", "|=", "<<="].any
      (starts · tokens) ||
    startsWord ["as"] tokens || !braces && startsGroup .curly tokens

/-- The mark of a range and its end. Where curly brackets would begin the block behind a condition,
a block as the end is put into round ones. -/
def rangeEnd (g : Grammar) (braces : Bool) : Reading Unit := do
  let closed ← mark? "..="
  if !closed then mark ".."
  let tokens ← ahead
  if closed && !braces && startsGroup .curly tokens then
    bracketed .round g.block
    g.selectors
  else if closed || !endsRange braces tokens then g.operand braces

def operators : List String :=
  ["+=", "-=", "*=", "/=", "%=", "^=", "&=", "|=", "<<=", ">>=", "&&", "||", "<<", ">>", "==", "<=",
    "!=", ">=", "+", "-", "*", "/", "%", "^", "&", "|", "<", ">"]

def operations (g : Grammar) (braces : Bool) : Reading Unit := repeated do
  let tokens ← ahead
  match operators.find? (starts · tokens) with
  | some operator =>
    mark operator
    g.operand braces
    return true
  | none =>
    if starts "=" tokens && !starts "=>" tokens then
      mark "="
      g.operand braces
      return true
    else if starts ".." tokens then
      g.rangeEnd braces
      return true
    else if ← word? "as" then
      g.type false
      return true
    else return false

def conditional (g : Grammar) : Reading Unit := repeated do
  word "if"
  g.expression false
  g.block
  if ← word? "else" then
    if startsWord ["if"] (← ahead) then return true
    g.block
  return false

def matchCase (g : Grammar) : Reading Unit := do
  g.outerAttributes
  g.patterns
  if ← word? "if" then g.expression true
  mark "=>"
  g.leading
  discard (mark? ",")

def bindsLifetimes (tokens : List Token) : Bool :=
  starts "<" (tokens.drop 1) && (startsLifetime (tokens.drop 2) || starts ">" (tokens.drop 2))

def startsBlockForm (tokens : List Token) : Bool :=
  startsWord ["if", "while", "loop", "match", "unsafe"] tokens ||
    startsWord ["for"] tokens && !bindsLifetimes tokens ||
    startsWord ["try", "const"] tokens && startsGroup .curly (tokens.drop 1) ||
    startsGroup .curly tokens || startsLifetime tokens

def blockForm (g : Grammar) : Reading Unit := do
  if startsLifetime (← ahead) then
    token
    mark ":"
  if startsWord ["if"] (← ahead) then g.conditional
  else if ← word? "while" then
    g.expression false
    g.block
  else if ← word? "for" then
    g.patterns
    word "in"
    g.expression false
    g.block
  else if ← word? "match" then
    g.expression false
    within .curly do
      g.innerAttributes
      whileAhead (fun tokens => !tokens.isEmpty) g.matchCase
  else
    if !startsGroup .curly (← ahead) then token
    g.block

def closureParameter (g : Grammar) : Reading Unit := do
  g.outerAttributes
  g.pattern
  if ← mark? ":" then g.type true

/-- Whether a closure comes next. Its modifiers may also stand in front of a block. -/
def startsClosure (tokens : List Token) : Bool :=
  startsWord ["move", "static"] tokens || starts "|" tokens ||
    startsWord ["for"] tokens && bindsLifetimes tokens ||
    startsWord ["const"] tokens && !startsGroup .curly (tokens.drop 1) ||
    startsWord ["async"] tokens &&
      (starts "|" (tokens.drop 1) ||
        startsWord ["move"] (tokens.drop 1) && !startsGroup .curly (tokens.drop 2))

def closure (g : Grammar) (braces : Bool) : Reading Unit := do
  g.binder
  whileAhead (startsWord ["const", "static", "async", "move"]) token
  mark "|"
  sequence "," (starts "|") g.closureParameter
  mark "|"
  if starts "->" (← ahead) then
    g.result true
    g.block
  else g.expression braces

def wordExpression (g : Grammar) (braces : Bool) : Reading Unit := do
  if ← word? "async" then
    discard (word? "move")
    g.block
  else if ← word? "let" then
    g.patterns
    mark "="
    g.expression braces
  else if ← word? "continue" then
    if startsLifetime (← ahead) then token
  else if ← word? "break" then
    if startsLifetime (← ahead) then token
    let tokens ← ahead
    if startsExpression tokens && (braces || !startsGroup .curly tokens) then g.expression true
  else
    token
    if startsExpression (← ahead) then g.expression true

def simpleOperand (g : Grammar) (braces : Bool) : Reading Unit := do
  match ← ahead with
  | .literal _ :: _ => token
  | .group .round _ :: _ => g.arguments
  | .group .square _ :: _ => g.elements
  | .word "builtin" :: .mark "#" _ :: _ => do
    word "builtin"
    mark "#"
    token
    token
  | .word "become" :: _ => verbatim do
    token
    g.expression true
  | tokens =>
    if startsWord ["true", "false", "_"] tokens then token
    else if startsClosure tokens then g.closure braces
    else if startsBlockForm tokens then g.blockForm
    else if startsWord ["async", "let", "continue", "break", "return", "yield"] tokens then
      g.wordExpression braces
    else if starts ".." tokens then g.rangeEnd braces
    else g.pathExpression braces

def readOperand (g : Grammar) (braces : Bool) : Reading Unit := do
  g.outerAttributes
  let tokens ← ahead
  if starts "&" tokens then
    mark "&"
    let tokens ← ahead
    if startsWord ["raw"] tokens && startsWord ["mut", "const"] (tokens.drop 1) then
      token
      token
    else discard (word? "mut")
    g.operand braces
  else if ["*", "!", "-"].any (starts · tokens) then
    token
    g.operand braces
  else
    g.simpleOperand braces
    g.selectors

def readExpression (g : Grammar) (braces : Bool) : Reading Unit := do
  g.operand braces
  g.operations braces

/-- Attributes of a range without a start are those of the range, which is put into brackets. -/
def readLeading (g : Grammar) : Reading Unit := do
  let attributes ← shownBy g.outerAttributes
  let tokens ← ahead
  if startsBlockForm tokens then
    g.blockForm
    if startsSelector (← ahead) then
      g.selectors
      g.operations true
  else if !attributes.isEmpty && starts ".." tokens then bracketed .round (g.expression true)
  else g.expression true

end ContractStore.Grammar
