import ContractStore.Declaration.Grammar.Nested
import ContractStore.Declaration.Token.Arranged
import ContractStore.Declaration.Token.Source

/-!
The form of a type, as far as it matters: a tuple, an array, or a path with generic arguments. Every
other form is kept as its text.
-/
namespace ContractStore

inductive TypeExpr where
  | tuple (items : List TypeExpr)
  | array (item : TypeExpr) (size : String)
  | path (qualifier name : String) (args : List TypeExpr)
  | other (text : String)

namespace TypeExpr
open Token

def areSegments : List Token → Bool
  | [] => true
  | word _ :: mark "::" _ :: group .angle _ :: mark "::" _ :: rest => areSegments rest
  | word _ :: group .round _ :: mark "->" _ :: group .round _ :: mark "::" _ :: rest =>
    areSegments rest
  | word _ :: group _ _ :: mark "::" _ :: rest => areSegments rest
  | word _ :: mark "::" _ :: rest => areSegments rest
  | _ => false

/-- Whether `tokens` can stand before the last name of a path. It may begin at the root, or in a
type between brackets. -/
def isQualifier : List Token → Bool
  | mark "::" _ :: rest => areSegments rest
  | group .angle _ :: mark "::" _ :: rest => areSegments rest
  | tokens => areSegments tokens

def lastName (tokens : List Token) : Option (List Token × String × List Token) :=
  let found := match tokens.reverse with
    | group .angle args :: mark "::" _ :: word name :: before => some (before, name, args)
    | group .angle args :: word name :: before => some (before, name, args)
    | word name :: before => some (before, name, [])
    | _ => none
  found.bind fun (before, name, args) =>
    if isQualifier before.reverse then some (before.reverse, name, args) else none

/-- Reads a type from tokens with matched angle brackets, at most `fuel` brackets deep. -/
def read : (fuel : Nat) → List Token → TypeExpr
  | 0, tokens => other (shown tokens)
  | fuel + 1, tokens =>
    match tokens with
    | [group .round inner] =>
      match items inner with
      | [item] => if endsInComma inner then tuple [read fuel item] else other (shown tokens)
      | parts => tuple (parts.map (read fuel))
    | [group .square inner] =>
      match cut ";" inner with
      | some (item, size) => array (read fuel item) (shown size)
      | none => other (shown tokens)
    | _ =>
      match lastName tokens with
      | some (qualifier, name, args) => path (shown qualifier) name ((items args).map (read fuel))
      | none => other (shown tokens)

def ofTokens (tokens : List Token) : TypeExpr := read ((charsAll tokens).length + 1) tokens

def ofText (source : String) : TypeExpr :=
  match ofSource? source with
  | some tokens => ofTokens (Grammar.typeTokens tokens)
  | none => other source

def shownText (source : String) : String :=
  match ofSource? source with
  | some tokens => shown (Grammar.typeTokens tokens)
  | none => source

end TypeExpr
end ContractStore
