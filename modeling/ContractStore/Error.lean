/-!
Every way an operation can fail, as a cause. The stable code and the text of a cause are one
function each; a contract error shows a codec or state cause behind the name of its layer.
-/
namespace ContractStore

inductive CodecError where
  | outOfBounds (op : String) (needed remaining : Nat)
  /-- A count on the wire is not the one that the type demands. -/
  | schemaMismatch (what : String) (expected got : Nat)
  | trailingBytes (count : Nat)
  | varintOverflow
  | invalidUtf8
  | invalidDiscriminant (what : String) (value : Int)
  deriving DecidableEq, Repr

inductive StateError where
  | keyNotFound (table : String)
  | backend (reason : String)
  | unbound
  | notAContract (name : String)
  | permissionDenied (key : String)
  | valueTooLarge (limit got : Nat)
  deriving DecidableEq, Repr

inductive ContractError where
  | codec (cause : CodecError)
  | state (cause : StateError)
  | unknownMethod (method : String)
  | assertion (what : String)
  | argsTooLarge (limit got : Nat)
  deriving DecidableEq, Repr

namespace CodecError

def code : CodecError → String
  | outOfBounds .. => "CODEC_OUT_OF_BOUNDS"
  | schemaMismatch .. => "CODEC_SCHEMA_MISMATCH"
  | trailingBytes _ => "CODEC_TRAILING_BYTES"
  | varintOverflow => "CODEC_VARINT_OVERFLOW"
  | invalidUtf8 => "CODEC_INVALID_UTF8"
  | invalidDiscriminant .. => "CODEC_INVALID_DISCRIMINANT"

def message : CodecError → String
  | outOfBounds op needed remaining =>
    s!"Stream bounds violation during {op}: needed {needed} byte(s), {remaining} remaining"
  | schemaMismatch what expected got =>
    s!"Schema mismatch unpacking {what}: expected {expected}, got {got}"
  | trailingBytes count => s!"{count} trailing byte(s) after unpacking"
  | varintOverflow => "Varint overflows 32 bits"
  | invalidUtf8 => "Invalid UTF-8 in string field"
  | invalidDiscriminant what value => s!"Invalid discriminant {value} for enum {what}"

end CodecError

namespace StateError

def code : StateError → String
  | keyNotFound _ => "STATE_KEY_NOT_FOUND"
  | backend _ => "STATE_BACKEND_ERROR"
  | unbound => "STATE_TABLE_UNBOUND"
  | notAContract _ => "STATE_NOT_A_CONTRACT"
  | permissionDenied _ => "STATE_PERMISSION_DENIED"
  | valueTooLarge .. => "STATE_VALUE_TOO_LARGE"

def message : StateError → String
  | keyNotFound table => s!"Key not found in table '{table}'"
  | backend reason => s!"State backend error: {reason}"
  | unbound => "External table is not bound to a contract"
  | notAContract name => s!"Name '{name}' is not a contract name"
  | permissionDenied key => s!"Permission denied for state key: {key}"
  | valueTooLarge limit got => s!"Value of {got} bytes exceeds the record limit of {limit}"

end StateError

namespace ContractError

def code : ContractError → String
  | codec cause => cause.code
  | state cause => cause.code
  | unknownMethod _ => "CONTRACT_UNKNOWN_METHOD"
  | assertion _ => "CONTRACT_ASSERTION_FAILED"
  | argsTooLarge .. => "CONTRACT_ARGS_TOO_LARGE"

def message : ContractError → String
  | codec cause => "Codec error: " ++ cause.message
  | state cause => "State error: " ++ cause.message
  | unknownMethod method => s!"Unknown contract method: {method}"
  | assertion what => s!"Assertion failed: {what}"
  | argsTooLarge limit got =>
    s!"Call arguments too large: {got} bytes exceeds limit of {limit}"

end ContractError

def ensure (condition : Bool) (what : String) : Except ContractError Unit :=
  if condition then .ok () else .error (.assertion what)

end ContractStore
