import ContractStore.Declaration.Token.Basic
import ContractStore.Text.Quoted

/-!
Tokens from source text. Blanks and comments separate tokens and are dropped, but a doc comment
stands for the attribute that it is short for. Every bracket has to be closed by its own kind.
-/
namespace ContractStore.Token

def isSpace (c : Char) : Bool :=
  c.isWhitespace || '\u2000' ≤ c && c ≤ '\u200a' ||
    ['\x0b', '\x0c', '\u0085', '\u00a0', '\u1680', '\u2028', '\u2029', '\u202f', '\u205f',
      '\u3000'].contains c

def isBlank (c : Char) : Bool := isSpace c || c == '\u200e' || c == '\u200f'

/-- Whether `c` can stand in a word; beyond ASCII every character can that is no blank. -/
def isWordChar (c : Char) : Bool :=
  c.isAlphanum || c == '_' || 128 ≤ c.toNat && !isBlank c

def isWordStart (c : Char) : Bool := isWordChar c && !c.isDigit

inductive Lexeme where
  | token (t : Token)
  | opening (bracket : Bracket)
  | closing (bracket : Bracket)

abbrev Taken : Type := List Char × List Char

def withSuffix : Taken → Taken
  | (taken, rest) =>
    if rest.head?.any isWordStart then
      (taken ++ rest.takeWhile isWordChar, rest.dropWhile isWordChar)
    else (taken, rest)

/-- The rest of a text up to its closing `quote`; a backslash takes the next character with it. -/
def quotedFrom (quote : Char) : (taken : List Char) → List Char → Option Taken
  | _, [] => none
  | taken, '\\' :: c :: rest => quotedFrom quote (c :: '\\' :: taken) rest
  | taken, c :: rest =>
    if c == quote then some ((c :: taken).reverse, rest) else quotedFrom quote (c :: taken) rest

def rawFrom (closing : List Char) : (taken : List Char) → List Char → Option Taken
  | _, [] => none
  | taken, c :: rest =>
    if closing.isPrefixOf (c :: rest) then
      some (taken.reverse ++ closing, (c :: rest).drop closing.length)
    else rawFrom closing (c :: taken) rest

def textLiteral? (cs : List Char) : Option Taken :=
  let kind := cs.takeWhile Char.isAlpha
  let rest := cs.dropWhile Char.isAlpha
  let hashes := rest.takeWhile (· == '#')
  match rest.dropWhile (· == '#') with
  | '"' :: body =>
    if [[], ['b'], ['c']].contains kind && hashes.isEmpty then
      quotedFrom '"' ('"' :: kind.reverse) body
    else if [['r'], ['b', 'r'], ['c', 'r']].contains kind then
      rawFrom ('"' :: hashes) ('"' :: (kind ++ hashes).reverse) body
    else none
  | _ => none

def charLiteral? (cs : List Char) : Option Taken :=
  let kind := cs.takeWhile (· == 'b')
  if 1 < kind.length then none
  else match cs.drop kind.length with
    | '\'' :: '\\' :: rest => quotedFrom '\'' ('\'' :: kind) ('\\' :: rest)
    | '\'' :: c :: '\'' :: rest => some (kind ++ ['\'', c, '\''], rest)
    | _ => none

/-- A word; a hash behind a leading `r` takes its meaning as a keyword away. -/
def takeWord : List Char → Taken
  | 'r' :: '#' :: rest =>
    if rest.head?.any isWordStart then
      ('r' :: '#' :: rest.takeWhile isWordChar, rest.dropWhile isWordChar)
    else (['r'], '#' :: rest)
  | cs => (cs.takeWhile isWordChar, cs.dropWhile isWordChar)

def isDigits (c : Char) : Bool := c.isDigit || c == '_'

def takeExponent : List Char → Taken
  | [] => ([], [])
  | e :: rest =>
    let signs := (rest.take 1).filter fun c => c == '+' || c == '-'
    let digits := rest.drop signs.length
    if (e == 'e' || e == 'E') && (digits.takeWhile isDigits).any Char.isDigit then
      (e :: signs ++ digits.takeWhile isDigits, digits.dropWhile isDigits)
    else ([], e :: rest)

/-- A number. A point belongs to it unless another point or a word follows. -/
def takeNumber (cs : List Char) : Taken :=
  let whole := cs.takeWhile isDigits
  match cs.dropWhile isDigits with
  | '.' :: rest =>
    if rest.head?.any fun c => c == '.' || isWordStart c then (whole, '.' :: rest)
    else
      let (exponent, behind) := takeExponent (rest.dropWhile isDigits)
      withSuffix (whole ++ '.' :: rest.takeWhile isDigits ++ exponent, behind)
  | rest =>
    let (exponent, behind) := takeExponent rest
    if whole == ['0'] && exponent.isEmpty then
      (whole ++ rest.takeWhile isWordChar, rest.dropWhile isWordChar)
    else withSuffix (whole ++ exponent, behind)

def startsMark : List Char → Bool
  | '/' :: '/' :: _ => false
  | '/' :: '*' :: _ => false
  | c :: _ => "~!@#$%^&*-=+|;:,<.>/?'".toList.contains c
  | [] => false

def bracket? : Char → Option Lexeme
  | '(' => some (.opening .round)
  | ')' => some (.closing .round)
  | '[' => some (.opening .square)
  | ']' => some (.closing .square)
  | '\x7b' => some (.opening .curly)
  | '\x7d' => some (.closing .curly)
  | _ => none

def commentFrom : (depth : Nat) → (taken : List Char) → List Char → Option Taken
  | _, _, [] => none
  | depth, taken, '/' :: '*' :: rest => commentFrom (depth + 1) ('*' :: '/' :: taken) rest
  | depth, taken, '*' :: '/' :: rest =>
    if depth ≤ 1 then some (taken.reverse, rest)
    else commentFrom (depth - 1) ('/' :: '*' :: taken) rest
  | depth, taken, c :: rest => commentFrom depth (c :: taken) rest

/-- The characters of a doc comment as they stand between quotes. A null before a digit is written
out in full, so that the digit does not become part of it. -/
def docChars : List Char → List String
  | [] => []
  | [c] => [Text.quoteChar c]
  | c :: d :: rest =>
    (if c == '\x00' && '0' ≤ d && d ≤ '7' then "\\x00" else Text.quoteChar c) ::
      docChars (d :: rest)

def docAttribute (isInner : Bool) (content : List Char) : List Lexeme :=
  let text := "\"" ++ String.join (docChars content) ++ "\""
  let place := if isInner then [mark "#" false, mark "!" false] else [mark "#" false]
  (place ++ [group .square [word "doc", mark "=" false, literal text]]).map .token

def lineComment (cs : List Char) : List Lexeme × List Char :=
  let line := cs.takeWhile (· != '\n')
  let rest := cs.dropWhile (· != '\n')
  let line := if line.getLast? == some '\r' then line.dropLast else line
  match line with
  | '/' :: content =>
    (if content.head? == some '/' then [] else docAttribute false content, rest)
  | '!' :: content => (docAttribute true content, rest)
  | _ => ([], rest)

def blockComment (cs : List Char) : Option (List Lexeme × List Char) := do
  let (content, rest) ← commentFrom 1 [] cs
  match content with
  | '*' :: content =>
    let isPlain := content.isEmpty || content.head? == some '*'
    return (if isPlain then [] else docAttribute false content, rest)
  | '!' :: content => return (docAttribute true content, rest)
  | _ => return ([], rest)

def lexeme : List Char → Option (Lexeme × List Char)
  | [] => none
  | c :: cs =>
    match (textLiteral? (c :: cs)).or (charLiteral? (c :: cs)) with
    | some found =>
      let (taken, rest) := withSuffix found
      some (.token (literal (String.ofList taken)), rest)
    | none =>
      if isWordStart c then
        let (taken, rest) := takeWord (c :: cs)
        some (.token (word (String.ofList taken)), rest)
      else if c.isDigit then
        let (taken, rest) := takeNumber (c :: cs)
        some (.token (literal (String.ofList taken)), rest)
      else if c == '\'' && cs.head?.any isWordStart then
        let (taken, rest) := takeWord cs
        some (.token (lifetime (String.ofList (c :: taken))), rest)
      else match bracket? c with
        | some lexeme => some (lexeme, cs)
        | none => some (.token (mark c.toString (startsMark cs)), cs)

def lexemes : (fuel : Nat) → List Char → Option (List Lexeme)
  | _, [] => some []
  | 0, _ => none
  | fuel + 1, c :: cs => do
    if isBlank c then lexemes fuel cs
    else match c :: cs with
      | '/' :: '/' :: rest =>
        let (found, rest) := lineComment rest
        return found ++ (← lexemes fuel rest)
      | '/' :: '*' :: rest => do
        let (found, rest) ← blockComment rest
        return found ++ (← lexemes fuel rest)
      | text => do
        let (found, rest) ← lexeme text
        return found :: (← lexemes fuel rest)

/-- Puts the tokens between brackets into groups. `outer` are the brackets that are still open, each
with the tokens in front of it. -/
def grouped : (outer : List (Bracket × List Token)) → (done : List Token) → List Lexeme →
    Option (List Token)
  | [], done, [] => some done.reverse
  | _ :: _, _, [] => none
  | outer, done, .token t :: rest => grouped outer (t :: done) rest
  | outer, done, .opening bracket :: rest => grouped ((bracket, done) :: outer) [] rest
  | [], _, .closing _ :: _ => none
  | (bracket, before) :: outer, done, .closing closed :: rest =>
    if bracket = closed then grouped outer (group bracket done.reverse :: before) rest else none

def ofSource? (source : String) : Option (List Token) := do
  let cs := source.toList
  grouped [] [] (← lexemes cs.length cs)

end ContractStore.Token
