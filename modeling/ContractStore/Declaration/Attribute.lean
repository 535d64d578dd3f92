import ContractStore.Declaration.Error
import ContractStore.Declaration.Grammar.Nested
import ContractStore.Declaration.Token.Arranged
import ContractStore.Declaration.Token.Quotation

/-!
Attributes of declarations: the options that a declaration is expanded by, and all others as text.
The options of a contract are read before any of them is looked at. Those of a record are read one
by one, so one that cannot be read counts only if all in front of it are in order.
-/
namespace ContractStore

inductive AttributeOption where
  | word (name : String)
  | list (name : String)
  | text (name value : String)
  | literal (name : String)
  deriving DecidableEq, Repr

namespace AttributeOption

def ofTokens (tokens : List Token) : AttributeOption :=
  match Token.cut "=" tokens, tokens.reverse with
  | some (name, [.literal value]), _ =>
    match Token.textValue? value with
    | some value => text (Token.text name) value
    | none => literal (Token.text name)
  | some (name, _), _ => literal (Token.text name)
  | none, .group _ _ :: name => list (Token.text name.reverse)
  | none, _ => word (Token.text tokens)

def listOfText (source : String) : List AttributeOption :=
  match Token.ofSource? source with
  | some tokens => (Token.items tokens).map ofTokens
  | none => [word source]

end AttributeOption

/-- What follows the name of a record's option. Where it is no text with an equals sign in front,
none can be read, for the cause given. -/
inductive OptionTail where
  | nothing
  | text (value : String)
  | stray (cause : DeclarationError)
  deriving DecidableEq, Repr

inductive RecordOption where
  | named (name : String) (tail : OptionTail)
  | unread (cause : DeclarationError)
  deriving DecidableEq, Repr

namespace OptionTail
open Token

def ofTokens (atEnd : Bool) : List Token → OptionTail
  | [] => nothing
  | mark "=" _ :: literal source :: rest =>
    match textValue? source with
    | some value => if rest.isEmpty then text value else stray .missingComma
    | none => stray (.missingText false)
  | [mark "=" _] => stray (.missingText atEnd)
  | mark "=" _ :: _ => stray (.missingText false)
  | _ => stray .missingEquals

end OptionTail

namespace RecordOption
open Token

def words (atEnd : Bool) : List Token → Except DeclarationError (String × List Token)
  | word name :: mark ":" true :: mark ":" _ :: rest => do
    let (behind, rest) ← words atEnd rest
    return (name ++ "::" ++ behind, rest)
  | word name :: rest => .ok (name, rest)
  | [] => .error (.missingIdent atEnd)
  | _ => .error (.missingIdent false)

def plainPath (atEnd : Bool) : List Token → Except DeclarationError (String × List Token)
  | word name :: rest => words atEnd (word name :: rest)
  | [] => .error (if atEnd then .missingOption else .tokenForOption)
  | literal _ :: _ => .error .literalForOption
  | mark "-" _ :: literal number :: _ =>
    .error (if number.toList.head?.any Char.isDigit then .literalForOption else .tokenForOption)
  | _ => .error .tokenForOption

def path (atEnd : Bool) : List Token → Except DeclarationError (String × List Token)
  | mark ":" true :: mark ":" _ :: rest =>
    (plainPath atEnd rest).map fun (name, rest) => ("::" ++ name, rest)
  | tokens => plainPath atEnd tokens

/-- The option of an entry. The list goes on behind the entry if it ends in a comma. -/
def ofEntry (entry : List Token) : RecordOption :=
  let atEnd := !endsInComma entry
  match path atEnd (withoutComma entry) with
  | .ok (name, rest) => named name (.ofTokens atEnd rest)
  | .error cause => unread cause

def ofOption : AttributeOption → RecordOption
  | .word name => named name .nothing
  | .list name => named name (.stray .missingEquals)
  | .text name value => named name (.text value)
  | .literal name => named name (.stray (.missingText false))

end RecordOption

inductive Attribute where
  | record (options : List RecordOption)
  | foreign (text : String)
  deriving DecidableEq, Repr

namespace Attribute
open Token

def options (entries : List AttributeOption) : Attribute := record (entries.map .ofOption)

def ofText (source : String) : Attribute :=
  match ofSource? source with
  | some [word "record", group _ inner] => record ((entries inner).map .ofEntry)
  | some [word "record"] => record [.unread .missingArguments]
  | some (word "record" :: mark "=" _ :: _) => record [.unread .missingParentheses]
  | some tokens => foreign (Token.text tokens)
  | none => foreign source

def allOptions (attributes : List Attribute) : List RecordOption :=
  attributes.flatMap fun
    | record options => options
    | foreign _ => []

end Attribute

structure PlainAttribute where
  path : String
  argument : Option String
  text : String
  deriving DecidableEq, Repr

namespace PlainAttribute
open Token

def ofTokens (tokens : List Token) : PlainAttribute where
  path := Token.text (tokens.takeWhile fun t => Grammar.startsPathPart [t])
  argument :=
    match tokens.dropWhile fun t => Grammar.startsPathPart [t] with
    | [group _ inner] => some (Token.text inner)
    | _ => none
  text := shown (Grammar.shownAs Grammar.attributeContents tokens)

def ofText (source : String) : PlainAttribute :=
  match ofSource? source with
  | some tokens => ofTokens tokens
  | none => ⟨source, none, source⟩

end PlainAttribute
end ContractStore
