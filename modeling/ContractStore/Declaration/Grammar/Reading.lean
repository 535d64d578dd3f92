import ContractStore.Declaration.Token.Basic

/-!
Reading tokens. A reading takes tokens that lie ahead and puts those that are shown behind, with the
brackets around generic arguments matched. A mark of several characters is a row of joint ones.
-/
namespace ContractStore

namespace Token

/-- What follows a mark, of whose characters all but the last are joint. -/
def behindMark : List Char → List Token → Option (List Token)
  | [c], mark s _ :: rest => if s == c.toString then some rest else none
  | c :: cs, mark s true :: rest => if s == c.toString then behindMark cs rest else none
  | _, _ => none

def starts (text : String) (tokens : List Token) : Bool := (behindMark text.toList tokens).isSome

def startsWord (texts : List String) : List Token → Bool
  | word s :: _ => texts.contains s
  | _ => false

def startsGroup (bracket : Bracket) : List Token → Bool
  | group found _ :: _ => found = bracket
  | _ => false

def startsLifetime : List Token → Bool
  | lifetime _ :: _ => true
  | _ => false

def reserved : List String :=
  ["_", "abstract", "as", "async", "await", "become", "box", "break", "const", "continue", "crate",
    "do", "dyn", "else", "enum", "extern", "false", "final", "fn", "for", "if", "impl", "in", "let",
    "loop", "macro", "match", "mod", "move", "mut", "override", "priv", "pub", "ref", "return",
    "Self", "self", "static", "struct", "super", "trait", "true", "try", "type", "typeof", "unsafe",
    "unsized", "use", "virtual", "where", "while", "yield"]

def startsName : List Token → Bool
  | word s :: _ => !reserved.contains s
  | _ => false

end Token

structure Place where
  ahead : List Token
  behind : List Token

abbrev Reading (α : Type) : Type := StateT Place Option α

namespace Reading
open Token

def ahead : Reading (List Token) := return (← get).ahead

def put (tokens : List Token) : Reading Unit :=
  modify fun place => { place with behind := tokens.reverse ++ place.behind }

def token : Reading Unit := do
  match ← get with
  | ⟨t :: ahead, behind⟩ => set (Place.mk ahead (t :: behind))
  | ⟨[], _⟩ => failure

def mark? (text : String) : Reading Bool := do
  match behindMark text.toList (← ahead) with
  | some rest =>
    modify fun place => ⟨rest, .mark text false :: place.behind⟩
    return true
  | none => return false

def mark (text : String) : Reading Unit := do
  if !(← mark? text) then failure

def word? (text : String) : Reading Bool := do
  if startsWord [text] (← ahead) then
    token
    return true
  else return false

def word (text : String) : Reading Unit := do
  if !(← word? text) then failure

/-- What a reading would show, which is not put behind. -/
def heldBack (inner : Reading Unit) : Reading (List Token) := do
  let before := (← get).behind
  modify fun place => { place with behind := [] }
  inner
  let place ← get
  set (Place.mk place.ahead before)
  return place.behind.reverse

def shownBy (inner : Reading Unit) : Reading (List Token) := do
  let found ← heldBack inner
  put found
  return found

/-- Shows the tokens that a reading takes as they are, if the reading says so. -/
def verbatimIf (inner : Reading Bool) : Reading Unit := do
  let before ← get
  if ← inner then
    let rest ← ahead
    set (Place.mk rest before.behind)
    put (before.ahead.take (before.ahead.length - rest.length))

def verbatim (inner : Reading Unit) : Reading Unit := verbatimIf do
  inner
  return true

def repeatedFrom (step : Reading Bool) : Nat → Reading Unit
  | 0 => failure
  | n + 1 => do
    if ← step then repeatedFrom step n

/-- Repeats a step for as long as it says so. Every step but the last takes a token. -/
def repeated (step : Reading Bool) : Reading Unit := do
  repeatedFrom step ((← ahead).length + 1)

def whileAhead (continues : List Token → Bool) (step : Reading Unit) : Reading Unit := repeated do
  if continues (← ahead) then
    step
    return true
  else return false

def separatedFrom (separator : String) (stop : List Token → Bool) (item : Reading α) :
    Nat → Reading (List α)
  | 0 => failure
  | n + 1 => do
    if stop (← ahead) then return []
    let first ← item
    if ← mark? separator then return first :: (← separatedFrom separator stop item n)
    return [first]

def separated (separator : String) (stop : List Token → Bool) (item : Reading α) :
    Reading (List α) := do
  separatedFrom separator stop item ((← ahead).length + 1)

def sequence (separator : String) (stop : List Token → Bool) (item : Reading Unit) :
    Reading Unit :=
  discard (separated separator stop item)

def commas (item : Reading Unit) : Reading Unit := sequence "," List.isEmpty item

def toEndFrom (item : Reading α) : Nat → Reading (List α)
  | 0 => failure
  | n + 1 => do
    if (← ahead).isEmpty then return []
    return (← item) :: (← toEndFrom item n)

def toEnd (item : Reading α) : Reading (List α) := do
  toEndFrom item ((← ahead).length + 1)

def run? (inner : Reading α) (tokens : List Token) : Option (α × List Token) :=
  match inner.run ⟨tokens, []⟩ with
  | some (value, ⟨[], behind⟩) => some (value, behind.reverse)
  | _ => none

/-- What some tokens show. If they cannot be read, they stay as they are. -/
def contents (inner : Reading Unit) (tokens : List Token) : List Token :=
  match run? inner tokens with
  | some ((), found) => found
  | none => tokens

def inside (bracket : Bracket) (inner : Reading α) : Reading (Option α) := do
  match ← get with
  | ⟨.group found tokens :: ahead, behind⟩ =>
    if found = bracket then
      match run? inner tokens with
      | some (value, shown) =>
        set (Place.mk ahead (.group bracket shown :: behind))
        return some value
      | none =>
        set (Place.mk ahead (.group bracket tokens :: behind))
        return none
    else failure
  | _ => failure

def within (bracket : Bracket) (inner : Reading Unit) : Reading Unit :=
  discard (inside bracket inner)

def bracketed (bracket : Bracket) (inner : Reading Unit) : Reading Unit := do
  put [.group bracket (← heldBack inner)]

/-- A list between angle brackets, which become the brackets of a group. -/
def angled (bracket : Bracket) (item : Reading Unit) : Reading Unit := do
  discard (heldBack (mark "<"))
  bracketed bracket (sequence "," (starts ">") item)
  discard (heldBack (mark ">"))

end Reading
end ContractStore
