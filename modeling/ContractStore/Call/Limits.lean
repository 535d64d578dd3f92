import ContractStore.Error
import ContractStore.Program.Namespace

/-!
Limits on calls.
-/
namespace ContractStore

structure Limits where
  maxArgsBytes : Nat
  maxRecordBytes : Nat
  logCalls : Bool
  deriving DecidableEq, Repr

inductive LimitsError where
  | noArgs
  | noRecords
  deriving DecidableEq, Repr

def LimitsError.message : LimitsError → String
  | noArgs => "max_args_bytes must be greater than zero"
  | noRecords => "max_record_bytes must be greater than zero"

namespace Limits

def default : Limits := ⟨64 * 1024, defaultRecordLimit, true⟩

instance : Inhabited Limits := ⟨default⟩

def validate (l : Limits) : Except LimitsError Unit :=
  if l.maxArgsBytes = 0 then .error .noArgs
  else if l.maxRecordBytes = 0 then .error .noRecords
  else .ok ()

def checkArgsLen (l : Limits) (length : Nat) : Except ContractError Unit :=
  if l.maxArgsBytes < length then .error (.argsTooLarge l.maxArgsBytes length) else .ok ()

end Limits
end ContractStore
