/-!
Why a declaration is refused: the options of a record that cannot be read, and then what the
expansions themselves check. Of what is missing in an option, some are told apart by whether the
option list ends there.
-/
namespace ContractStore

inductive DeclarationError where
  | missingArguments
  | missingParentheses
  | missingEquals
  | missingComma
  | missingText (atEnd : Bool)
  | missingIdent (atEnd : Bool)
  | missingOption
  | literalForOption
  | tokenForOption
  | recordOption
  | recordNotStruct
  | recordUnnamedFields
  | fieldOption
  | baseNotFirst
  | severalKeys
  | enumRepr
  | enumNotEnum
  | variantFields
  | contractNameNotText
  | contractOption
  | methodResult
  | methodReceiver
  | methodParameters
  | noMethods
  deriving DecidableEq, Repr

namespace DeclarationError

/-- What was expected, and that nothing was there if the list ends. -/
def expected (atEnd : Bool) (what : String) : String :=
  (if atEnd then "unexpected end of input, " else "") ++ "expected " ++ what

def message : DeclarationError → String
  | missingArguments => "expected attribute arguments in parentheses: #[record(...)]"
  | missingParentheses => "expected parentheses: #[record(...)]"
  | missingEquals => expected false "`=`"
  | missingComma => expected false "`,`"
  | missingText atEnd => expected atEnd "string literal"
  | missingIdent atEnd => expected atEnd "ident"
  | missingOption => expected true "nested attribute"
  | literalForOption => "unexpected literal in nested attribute, expected ident"
  | tokenForOption => "unexpected token in nested attribute, expected ident"
  | recordOption => "unsupported record attribute, expected `name = \"...\"`"
  | recordNotStruct => "Record can only be derived for structs"
  | recordUnnamedFields => "Record requires a struct with named fields"
  | fieldOption => "unsupported field attribute, expected `base` or `primary_key`"
  | baseNotFirst => "the `base` field must be the first field of the record"
  | severalKeys => "at most one field may be marked `primary_key`"
  | enumRepr => "PrimitiveEnum requires an integer #[repr(..)] such as #[repr(u8)]"
  | enumNotEnum => "PrimitiveEnum can only be derived for enums"
  | variantFields => "PrimitiveEnum variants cannot carry fields"
  | contractNameNotText => "`name` must be a string"
  | contractOption => "unsupported contract attribute, expected `name = \"...\"`"
  | methodResult => "contract methods cannot return a value; use `()` or `Result<(), E>`"
  | methodReceiver => "contract methods must take `&self` first"
  | methodParameters => "contract methods take `state` and `ctx` after `&self`"
  | noMethods => "a contract needs at least one `#[method]`"

end DeclarationError
end ContractStore
