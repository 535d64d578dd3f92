import ContractStore.Toml.Value

/-!
The marks of a TOML document: blanks and comments, texts, keys, numbers, and dates. A scanner takes
what it recognises off the front of the characters, or fails.
-/
namespace ContractStore.Toml

abbrev Scan := StateT (List Char) Option

namespace Scan

def fail {α : Type} : Scan α := fun _ => none

def peek : Scan (Option Char) := fun cs => some (cs.head?, cs)

def next : Scan Char
  | [] => none
  | c :: rest => some (c, rest)

def exactly (text : String) : Scan Unit := fun cs =>
  if text.toList.isPrefixOf cs then some ((), cs.drop text.length) else none

def sat (accept : Char → Bool) : Scan Char := do
  let c ← next
  if accept c then return c else fail

def takeWhile (accept : Char → Bool) : Scan (List Char) := fun cs =>
  some (cs.takeWhile accept, cs.dropWhile accept)

/-- The result of `scan`, or none with nothing taken. -/
def attempt {α : Type} (scan : Scan α) : Scan (Option α) := fun cs =>
  match scan cs with
  | some (result, rest) => some (some result, rest)
  | none => some (none, cs)

def orElse {α : Type} (first second : Scan α) : Scan α := fun cs =>
  match first cs with
  | some result => some result
  | none => second cs

def blanks : Scan Unit := do
  let _ ← takeWhile fun c => c == ' ' || c == '\t'

def newline : Scan Unit
  | '\n' :: rest => some ((), rest)
  | '\r' :: '\n' :: rest => some ((), rest)
  | _ => none

def isPlain (c : Char) : Bool := c == '\t' || 0x20 ≤ c.toNat && c.toNat != 0x7f

def comment : Scan Unit := do
  exactly "#"
  let _ ← takeWhile isPlain

def lineEnd : Scan Unit := do
  blanks
  let _ ← attempt comment
  match ← peek with
  | none => return ()
  | some _ => newline

def gapFrom : (fuel : Nat) → Scan Unit
  | 0 => return ()
  | fuel + 1 => do
    blanks
    match ← attempt (do let _ ← attempt comment; newline) with
    | some () => gapFrom fuel
    | none => return ()

def gap : Scan Unit := fun cs => gapFrom (cs.length + 1) cs

def hexValue (c : Char) : Option Nat :=
  if c.isDigit then some (c.toNat - '0'.toNat)
  else if 'a' ≤ c ∧ c ≤ 'f' then some (c.toNat - 'a'.toNat + 10)
  else if 'A' ≤ c ∧ c ≤ 'F' then some (c.toNat - 'A'.toNat + 10)
  else none

def scalar (digits : Nat) : Scan Char := do
  let n ← (List.range digits).foldlM (fun n _ => do
    match hexValue (← next) with
    | some d => return 16 * n + d
    | none => fail) 0
  if n < 0xd800 ∨ 0xdfff < n ∧ n < 0x110000 then return Char.ofNat n else fail

def escape : Scan Char := do
  match ← next with
  | 'b' => return '\x08'
  | 't' => return '\t'
  | 'n' => return '\n'
  | 'f' => return '\x0c'
  | 'r' => return '\r'
  | '"' => return '"'
  | '\\' => return '\\'
  | 'u' => scalar 4
  | 'U' => scalar 8
  | _ => fail

def basicFrom : (fuel : Nat) → (taken : List Char) → Scan String
  | 0, _ => fail
  | fuel + 1, taken => do
    match ← next with
    | '"' => return String.ofList taken.reverse
    | '\\' => basicFrom fuel ((← escape) :: taken)
    | c => if isPlain c then basicFrom fuel (c :: taken) else fail

def basic : Scan String := fun cs => (do
  exactly "\""
  basicFrom cs.length []) cs

def literal : Scan String := do
  exactly "'"
  let cs ← takeWhile fun c => c != '\'' && isPlain c
  exactly "'"
  return String.ofList cs

/-- The number of quotes ahead, which may end a text of several lines. At most two of them belong to
the text; the result is how many do, if it ends here. -/
def closing (quote : Char) : Scan (Option Nat) := fun cs =>
  let run := (cs.takeWhile (· == quote)).length
  if run < 3 then some (none, cs)
  else
    let taken := min run 5
    some (some (taken - 3), cs.drop taken)

/-- A backslash at the end of a line takes the line break and all blanks and breaks after it. -/
def lineJoin : Scan Unit := do
  exactly "\\"
  blanks
  newline
  let rec breaks : Nat → Scan Unit
    | 0 => return ()
    | fuel + 1 => do
      blanks
      match ← attempt newline with
      | some () => breaks fuel
      | none => return ()
  fun cs => breaks (cs.length + 1) cs

def longFrom (quote : Char) (escapes : Bool) : (fuel : Nat) → (taken : List Char) → Scan String
  | 0, _ => fail
  | fuel + 1, taken => do
    match ← closing quote with
    | some extra => return String.ofList (List.replicate extra quote ++ taken).reverse
    | none =>
      match ← attempt newline with
      | some () => longFrom quote escapes fuel ('\n' :: taken)
      | none =>
        match ← attempt (if escapes then lineJoin else fail) with
        | some () => longFrom quote escapes fuel taken
        | none =>
          match ← next with
          | c =>
            if escapes && c == '\\' then longFrom quote escapes fuel ((← escape) :: taken)
            else if isPlain c then longFrom quote escapes fuel (c :: taken)
            else fail

def long (quote : Char) (escapes : Bool) : Scan String := fun cs => (do
  exactly (String.ofList [quote, quote, quote])
  let _ ← attempt newline
  longFrom quote escapes cs.length []) cs

def text : Scan String :=
  orElse (long '"' true) (orElse (long '\'' false) (orElse basic literal))

def isBareKey (c : Char) : Bool := c.isAlphanum || c == '_' || c == '-'

def simpleKey : Scan String := do
  match ← peek with
  | some '"' => basic
  | some '\'' => literal
  | _ =>
    let cs ← takeWhile isBareKey
    if cs.isEmpty then fail else return String.ofList cs

def depthLimit : Nat := 80

def keyFrom : (fuel : Nat) → Scan (List String)
  | 0 => fail
  | fuel + 1 => do
    blanks
    let key ← simpleKey
    blanks
    match ← attempt (exactly ".") with
    | some () => return key :: (← keyFrom fuel)
    | none => return [key]

def key : Scan (List String) := keyFrom (depthLimit - 1)

def digitRun (isDigit : Char → Bool) : List Char → List Char × List Char
  | '_' :: c :: rest =>
    if isDigit c then
      let (digits, rest) := digitRun isDigit rest
      (c :: digits, rest)
    else ([], '_' :: c :: rest)
  | c :: rest =>
    if isDigit c then
      let (digits, rest) := digitRun isDigit rest
      (c :: digits, rest)
    else ([], c :: rest)
  | [] => ([], [])

def digits (isDigit : Char → Bool) : Scan (List Char) := do
  let first ← sat isDigit
  fun cs =>
    let (more, rest) := digitRun isDigit cs
    some (first :: more, rest)

def ofDigits (base : Nat) (ds : List Char) : Nat :=
  ds.foldl (fun n d => base * n + (hexValue d).getD 0) 0

def decimal : Scan (List Char) := do
  match ← attempt (exactly "0") with
  | some () => return ['0']
  | none => digits Char.isDigit

/-- The least decimal number that is too great for a float: halfway between the greatest float and
the power of two behind it. -/
def floatBound : Nat := 1 <<< 1024 - 1 <<< 970

def overflows (digits : List Char) (exponent : Int) : Bool :=
  let significant := digits.dropWhile (· == '0')
  let mantissa := ofDigits 10 significant
  let magnitude := exponent + significant.length
  if significant.isEmpty || magnitude < 0 then false
  else if 400 < magnitude then true
  else if 0 ≤ exponent then floatBound ≤ mantissa * Nat.pow 10 exponent.toNat
  else floatBound * Nat.pow 10 (-exponent).toNat ≤ mantissa

def fraction : Scan (List Char) := do
  match ← attempt (exactly ".") with
  | some () => digits Char.isDigit
  | none => return []

def exponent : Scan (Option Int) := do
  match ← attempt (sat fun c => c == 'e' || c == 'E') with
  | none => return none
  | some _ =>
    let sign ← attempt (sat fun c => c == '+' || c == '-')
    let size : Int := ofDigits 10 (← digits Char.isDigit)
    return some (if sign == some '-' then -size else size)

def floatTail (negative : Bool) (whole : List Char) : Scan Value := do
  let fraction ← fraction
  let exponent ← exponent
  if fraction.isEmpty && exponent.isNone then fail
  let scale := exponent.getD 0 - fraction.length
  if !negative && overflows (whole ++ fraction) scale then fail
  return .float

def inRange (n : Int) : Bool := (BitVec.ofInt 64 n).toInt == n

def radixInteger : Scan Value := do
  exactly "0"
  let (base, isDigit) ← match ← next with
    | 'x' => pure (16, fun c => (hexValue c).isSome)
    | 'o' => pure (8, fun c => '0' ≤ c && c ≤ '7')
    | 'b' => pure (2, fun c => c == '0' || c == '1')
    | _ => fail
  let ds ← digits isDigit
  let n : Int := ofDigits base ds
  if inRange n then return .integer n else fail

/-- A number with an optional sign. Any number can be infinite or not a number, as a float. -/
def number : Scan Value := do
  let sign ← attempt (sat fun c => c == '+' || c == '-')
  let negative := sign == some '-'
  match ← attempt (orElse (exactly "inf") (exactly "nan")) with
  | some () => return .float
  | none =>
    let ds ← decimal
    match ← peek with
    | some '.' | some 'e' | some 'E' => floatTail negative ds
    | _ =>
      let size : Int := ofDigits 10 ds
      let n := if negative then -size else size
      if inRange n then return .integer n else fail

def fixedDigits (count : Nat) : Scan Nat := do
  let ds ← (List.range count).mapM fun _ => sat Char.isDigit
  return ofDigits 10 ds

def daysIn (year month : Nat) : Nat :=
  let leap := year % 4 = 0 ∧ (year % 100 ≠ 0 ∨ year % 400 = 0)
  if month = 2 then (if leap then 29 else 28)
  else if month ∈ [4, 6, 9, 11] then 30
  else 31

def date : Scan Unit := do
  let year ← fixedDigits 4
  exactly "-"
  let month ← fixedDigits 2
  exactly "-"
  let day ← fixedDigits 2
  if 1 ≤ month ∧ month ≤ 12 ∧ 1 ≤ day ∧ day ≤ daysIn year month then return () else fail

def hourMinute : Scan Unit := do
  let hour ← fixedDigits 2
  exactly ":"
  let minute ← fixedDigits 2
  if hour < 24 ∧ minute < 60 then return () else fail

def time : Scan Unit := do
  hourMinute
  exactly ":"
  let second ← fixedDigits 2
  if 60 < second then fail
  match ← attempt (exactly ".") with
  | some () =>
    let _ ← sat Char.isDigit
    let _ ← takeWhile Char.isDigit
  | none => return ()

def offset : Scan Unit := do
  match ← next with
  | 'Z' | 'z' => return ()
  | '+' | '-' => hourMinute
  | _ => fail

def dateTime : Scan Value := do
  match ← attempt date with
  | some () =>
    let withTime ← attempt do
      let _ ← sat fun c => c == 'T' || c == 't' || c == ' '
      time
    if withTime.isSome then
      let _ ← attempt offset
  | none => time
  return .dateTime

def simpleValue : Scan Value := do
  match ← peek with
  | some '"' | some '\'' => return .text (← text)
  | some 't' => do exactly "true"; return .boolean true
  | some 'f' => do exactly "false"; return .boolean false
  | _ => orElse dateTime (orElse radixInteger number)

end Scan
end ContractStore.Toml
