/-!
Tokens of a declaration's source: words, lifetimes, literals, marks, and groups of tokens in
brackets. Tokens are shown one behind the other, without blanks between them.
-/
namespace ContractStore

inductive Bracket where
  | round
  | square
  | curly
  | angle
  | params
  | binder
  deriving DecidableEq, Repr

namespace Bracket

def opening : Bracket → Char
  | round => '('
  | square => '['
  | curly => '\x7b'
  | angle | params | binder => '<'

def closing : Bracket → Char
  | round => ')'
  | square => ']'
  | curly => '\x7d'
  | angle | params | binder => '>'

end Bracket

inductive Token where
  | word (text : String)
  | lifetime (text : String)
  | literal (text : String)
  /-- Punctuation. A mark is joint if another one follows it directly. -/
  | mark (text : String) (joint : Bool)
  | group (bracket : Bracket) (inner : List Token)
  deriving Repr

namespace Token

mutual

def chars : Token → List Char
  | word s | lifetime s | literal s | mark s _ => s.toList
  | group bracket inner => bracket.opening :: (charsAll inner ++ [bracket.closing])

def charsAll : List Token → List Char
  | [] => []
  | t :: rest => t.chars ++ charsAll rest

end

def text (tokens : List Token) : String :=
  String.ofList ((charsAll tokens).filter fun c => c != ' ')

def isMark (text : String) : Token → Bool
  | mark s _ => s == text
  | _ => false

/-- The entries of a list separated by commas, each with the comma behind it. -/
def entries : List Token → List (List Token)
  | [] => []
  | t :: rest =>
    if t.isMark "," then [t] :: entries rest
    else match entries rest with
      | [] => [[t]]
      | first :: more => (t :: first) :: more

def endsInComma (tokens : List Token) : Bool := tokens.getLast?.any (isMark ",")

def withoutComma (entry : List Token) : List Token :=
  if endsInComma entry then entry.dropLast else entry

def items (tokens : List Token) : List (List Token) := (entries tokens).map withoutComma

def cut (text : String) : List Token → Option (List Token × List Token)
  | [] => none
  | t :: rest =>
    if t.isMark text then some ([], rest)
    else (cut text rest).map fun (before, behind) => (t :: before, behind)

end Token
end ContractStore
