import ContractStore.Declaration.Grammar.Reading
import ContractStore.Declaration.Token.Quotation

/-!
The forms of a declaration's source. Types, patterns, expressions and items contain one another, so
a `Grammar` holds a reader for each of them, and a reader of a form is given the grammar for what
lies inside the form.
-/
namespace ContractStore

structure Grammar where
  type : (plus : Bool) → Reading Unit
  bound : Reading Unit
  pattern : Reading Unit
  /-- An expression. `braces` says whether a name may be followed by its fields in curly brackets;
  in a condition it may not. -/
  expression : (braces : Bool) → Reading Unit
  operand : (braces : Bool) → Reading Unit
  /-- An expression in a place where a form that ends with its block is complete, unless a field or
  a method of it follows. -/
  leading : Reading Unit
  statements : Reading Unit
  item : Reading Unit

namespace Grammar
open Reading Token

def empty : Grammar where
  type _ := failure
  bound := failure
  pattern := failure
  expression _ := failure
  operand _ := failure
  leading := failure
  statements := failure
  item := failure

def block (g : Grammar) : Reading Unit := within .curly g.statements

def startsPathPart : List Token → Bool
  | .word _ :: _ => true
  | tokens => starts ":" tokens

def attributeContents (g : Grammar) : Reading Unit := do
  whileAhead startsPathPart token
  if ← mark? "=" then g.expression true
  else whileAhead (fun tokens => !tokens.isEmpty) token

def startsAttribute (tokens : List Token) : Bool :=
  starts "#" tokens && startsGroup .square (tokens.drop 1)

def outerAttributes (g : Grammar) : Reading Unit := whileAhead startsAttribute do
  mark "#"
  within .square g.attributeContents

def startsInnerAttribute (tokens : List Token) : Bool :=
  starts "#" tokens && starts "!" (tokens.drop 1) && startsGroup .square (tokens.drop 2)

def innerAttributes (g : Grammar) : Reading Unit := whileAhead startsInnerAttribute do
  mark "#"
  mark "!"
  within .square g.attributeContents

def behindAttributes : List Token → List Token
  | .mark "#" _ :: .group .square _ :: rest => behindAttributes rest
  | tokens => tokens

def indexText (source : String) : String :=
  String.intercalate "." <| (source.splitOn ".").map fun part =>
    ((wholeNumber? part).map toString).getD part

/-- A member: a name, or an index. A number with a point stands for two indices, and if the point
ends it, the second one is still to come, which is what the answer tells. -/
def member : Reading Bool := do
  match ← ahead with
  | .literal source :: _ =>
    discard (heldBack token)
    put [.literal (indexText source)]
    return source.toList.getLast? == some '.'
  | _ =>
    token
    return false

end Grammar
end ContractStore
