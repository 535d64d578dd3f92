import ContractStore.Declaration.Grammar.Expression

/-!
Statements: items, bindings, macros in curly brackets, and expressions.
-/
namespace ContractStore.Grammar
open Reading Token

/-- Whether an item comes next, rather than an expression that begins with the same word. -/
def startsItem (tokens : List Token) : Bool :=
  let second := tokens.drop 1
  let third := tokens.drop 2
  match tokens with
  | .word "crate" :: _ => !starts "::" second
  | .word "static" :: _ => startsWord ["mut"] second || startsName second
  | .word "const" :: _ =>
    !(startsGroup .curly second || startsWord ["static", "move"] second || starts "|" second ||
      startsWord ["async"] second && !startsWord ["unsafe", "extern", "fn"] third)
  | .word "unsafe" :: _ => !startsGroup .curly second
  | .word "async" :: _ => startsWord ["unsafe", "extern", "fn"] second
  | .word "union" :: _ => startsName second
  | .word "auto" :: _ => startsWord ["trait"] second
  | .word "default" :: _ => startsWord ["unsafe", "impl"] second
  | _ =>
    startsWord ["pub", "extern", "use", "fn", "mod", "type"] tokens ||
      startsWord ["struct", "enum", "trait", "impl", "macro"] tokens

def isPathWord (w : String) : Bool :=
  !reserved.contains w || ["Self", "self", "super", "crate"].contains w

def behindNames : List Token → Option (List Token)
  | .word w :: .mark ":" true :: .mark ":" _ :: rest =>
    if isPathWord w then behindNames rest else none
  | .word w :: rest => if isPathWord w then some rest else none
  | _ => none

def behindCallMark (tokens : List Token) : Option (List Token) := do
  behindMark ['!'] (← behindNames ((behindMark [':', ':'] tokens).getD tokens))

def startsMacroItem (tokens : List Token) : Bool :=
  (behindCallMark tokens).any fun rest => startsName rest || startsWord ["try"] rest

def startsMacroBlock (tokens : List Token) : Bool :=
  (behindCallMark tokens).any fun rest =>
    startsGroup .curly rest && !startsSelector (rest.drop 1)

def isAssignment (t : Token) : Bool :=
  ["=", "+=", "-=", "*=", "/=", "%=", "^=", "&=", "|=", "<<=", ">>="].any fun text => t.isMark text

/-- Whether an expression that is shown as `tokens` is a range: the mark of one stands in it, and
neither an assignment nor a form that takes in all that follows stands in front of the mark. -/
def isRange (tokens : List Token) : Bool :=
  !startsBlockForm tokens && !startsClosure tokens &&
    !startsWord ["for", "let", "break", "return", "yield"] tokens &&
    (tokens.takeWhile fun t => !isAssignment t).any fun t => t.isMark ".." || t.isMark "..="

/-- An expression as a statement. Attributes of a range are those of the whole range, which is put
into brackets. -/
def expressionStatement (g : Grammar) : Reading Unit := do
  let attributes ← shownBy g.outerAttributes
  let found ← heldBack g.leading
  if !attributes.isEmpty && isRange found then put [.group .round found] else put found
  discard (mark? ";")

def bindingStatement (g : Grammar) : Reading Unit := do
  word "let"
  g.pattern
  if ← mark? ":" then g.type true
  if ← mark? "=" then g.expression true
  if ← word? "else" then g.block
  mark ";"

def statement (g : Grammar) : Reading Unit := do
  if !(← mark? ";") then
    let tokens := behindAttributes (← ahead)
    if startsItem tokens || startsMacroItem tokens then g.item
    else if startsMacroBlock tokens then
      g.outerAttributes
      whileAhead (fun tokens => !startsGroup .curly tokens) token
      token
      discard (mark? ";")
    else if startsWord ["let"] tokens then
      g.outerAttributes
      g.bindingStatement
    else g.expressionStatement

def readStatements (g : Grammar) : Reading Unit := do
  g.innerAttributes
  whileAhead (fun tokens => !tokens.isEmpty) g.statement

end ContractStore.Grammar
