import ContractStore.Declaration.Token.Source
import ContractStore.Text.Hex

/-!
What a literal stands for: the value of a text, or of a whole number.
-/
namespace ContractStore.Token

def number? (base : Nat) (digits : List Char) : Option Nat :=
  if digits.isEmpty then none
  else digits.foldlM (fun n c => do
    let digit ← Text.digitValue? c.toLower
    if digit < base then some (base * n + digit) else none) 0

def wholeNumber? (source : String) : Option Nat :=
  match source.toList.filter (· != '_') with
  | '0' :: 'x' :: digits => number? 16 digits
  | '0' :: 'o' :: digits => number? 8 digits
  | '0' :: 'b' :: digits => number? 2 digits
  | digits => number? 10 digits

def escaped : List Char → Option Taken
  | 'n' :: rest => some (['\n'], rest)
  | 'r' :: rest => some (['\r'], rest)
  | 't' :: rest => some (['\t'], rest)
  | '0' :: rest => some (['\x00'], rest)
  | '\\' :: rest => some (['\\'], rest)
  | '\'' :: rest => some (['\''], rest)
  | '"' :: rest => some (['"'], rest)
  | 'x' :: high :: low :: rest => do return ([Char.ofNat (← number? 16 [high, low])], rest)
  | 'u' :: '\x7b' :: rest => do
    let digits := (rest.takeWhile (· != '\x7d')).filter (· != '_')
    return ([Char.ofNat (← number? 16 digits)], (rest.dropWhile (· != '\x7d')).drop 1)
  | '\n' :: rest => some ([], rest.dropWhile isSpace)
  | '\r' :: '\n' :: rest => some ([], rest.dropWhile isSpace)
  | _ => none

/-- A text with its escapes replaced, up to the closing quote. A line break is one character. -/
def unescaped : (fuel : Nat) → List Char → Option (List Char)
  | 0, _ => none
  | fuel + 1, cs => do
    match cs with
    | [] => none
    | '"' :: _ => return []
    | '\\' :: rest =>
      let (found, rest) ← escaped rest
      return found ++ (← unescaped fuel rest)
    | '\r' :: '\n' :: rest => return '\n' :: (← unescaped fuel rest)
    | c :: rest => return c :: (← unescaped fuel rest)

def textValue? (source : String) : Option String :=
  match source.toList with
  | '"' :: body => (unescaped (body.length + 1) body).map String.ofList
  | 'r' :: rest =>
    let hashes := rest.takeWhile (· == '#')
    let body := rest.drop (hashes.length + 1)
    (rawFrom ('"' :: hashes) [] body).map fun (taken, _) =>
      String.ofList (taken.take (taken.length - hashes.length - 1))
  | _ => none

end ContractStore.Token
