import ContractStore.Call.Limits
import ContractStore.Toml.Document

/-!
Limits from a TOML document: the table `execution`, in which every limit may be missing. The limits
may also be listed in an array, by position. A date stands for a table without any of the keys.
-/
namespace ContractStore

inductive LimitsFileError where
  | malformed
  | unusable (cause : LimitsError)
  deriving DecidableEq, Repr

namespace Limits
open Toml

def readSize (fallback : Nat) : Option Value → Option Nat
  | none => some fallback
  | some (.integer n) => if 0 ≤ n then some n.toNat else none
  | some _ => none

def readSwitch (fallback : Bool) : Option Value → Option Bool
  | none => some fallback
  | some (.boolean b) => some b
  | some _ => none

/-- Reads each limit where `find` says; what is missing has its default. -/
def readFrom (args records log : Option Value) : Option Limits := do
  let maxArgsBytes ← readSize default.maxArgsBytes args
  let maxRecordBytes ← readSize default.maxRecordBytes records
  let logCalls ← readSwitch default.logCalls log
  return { maxArgsBytes, maxRecordBytes, logCalls }

def ofValue : Value → Option Limits
  | .table _ entries =>
    readFrom (entries.lookup "max_args_bytes") (entries.lookup "max_record_bytes")
      (entries.lookup "log_calls")
  | .array items => readFrom items[0]? items[1]? items[2]?
  | .dateTime => some default
  | _ => none

def ofToml (document : String) : Except LimitsFileError Limits := do
  let some root := Toml.parse document | throw .malformed
  let some limits := (match root.find? "execution" with
    | none => some default
    | some value => ofValue value) | throw .malformed
  (limits.validate).mapError .unusable
  return limits

end Limits
end ContractStore
