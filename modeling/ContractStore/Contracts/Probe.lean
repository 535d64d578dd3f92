import ContractStore.Call.Contract
import ContractStore.Slot
import ContractStore.Table.Singleton

/-!
A contract that exercises every service a contract has: each method does one thing to the store or
the host, or fails in one way.
-/
namespace ContractStore.Probe

abbrev settingsSchema : SingletonSchema :=
  ⟨"Settings", "base", .cons "flags" (.int .u32) (.cons "names" (.vec .string) .nil)⟩

abbrev Settings : Type := settingsSchema.Record

def shout (lines : List String) : Call Unit := lines.forM Call.print

/-- Writes and then fails, so that the write can be seen to be dropped or kept. -/
def refuse (reason : String) : Call Unit := do
  Action.save "refused" [1]
  throw (.assertion reason)

def check (n : BitVec 64) : Call Unit := do
  Call.ensure (n != 0) s!"n must be positive, got {n.toNat}"
  Call.ensure (n.toNat < 100) s!"{n.toNat} is too big"

def raw (code : BitVec 8) (table : String) (key value : Bytes) : Call Unit :=
  match code.toNat with
  | 0 => Action.insert table key value
  | 1 => Action.update table key value
  | 2 => Action.delete table key
  | 3 => Action.save table value
  | other => throw (.assertion s!"bad code {other}")

abbrev bytesType : WireType := .vec (.int .u8)

def bytesOf (values : bytesType.Carrier) : Bytes := List.map UInt8.ofBitVec values

abbrev stepType : WireType := .tuple (.unlabelled [.int .u8, .string, bytesType, bytesType])

def multi (steps : List stepType.Carrier) (failure : String) : Call Unit := do
  steps.forM fun (code, table, key, value, ()) =>
    raw code table (bytesOf key) (bytesOf value)
  Call.ensure failure.isEmpty failure

abbrev infoType : WireType :=
  .tuple (.unlabelled [.int .u64, .int .u64, .name, .name, .name, .int .u64])

def info (who : Name) (ctx : CallContext) : Call Unit := do
  let host ← Call.host
  (Slot.mk "info").put infoType
    (host.block, host.time, host.witness, ⟨ctx.owner⟩, ctx.caller, host.balanceOf who, ())

def pay (target : Name) (amount : Amount) (memo : String) (ctx : CallContext) : Call Unit := do
  Call.requireAuth ctx.caller
  Call.transfer ctx.caller target amount
  Call.print memo

def hash (data : bytesType.Carrier) : Call Unit := do
  (Slot.mk "hash").put (.checksum .bits256) (Host.sha256 (bytesOf data))

abbrev manyRow : WireRow :=
  .unlabelled [.int .u8, .int .i16, .int .u32, .int .i64, .int .u128, .bool, .float .single,
    .string, bytesType, .tuple (.unlabelled [.int .u8, .int .u8]), .array (.int .u8) 2,
    .checksum .bits160]

/-- Rewrites the settings with another identifier, which does not stay, and more flags. -/
def bump (id more : BitVec 32) : Call Unit := do
  let settings : Singleton settingsSchema := Singleton.ofRecord settingsSchema
  let _ ← settings.getOrCreate settingsSchema.type.initial
  settings.update fun (_, (flags : BitVec 32), names) => ((id, ()), flags + more, names)

def peek (source : Name) (table : String) (key : Bytes) : Call Unit := do
  match ← Action.queryExternal source.account source.contract table key with
  | some row => Action.insert "copies" key row
  | none => throw (.assertion "nothing to copy")

def contract : Contract where
  typeName := "probe"
  methods := [
    { name := "ping"
      params := .unlabelled []
      body := fun () _ => Call.print "ping" },
    { name := "shout"
      params := .unlabelled [.vec .string]
      body := fun (lines, ()) _ => shout lines },
    { name := "refuse"
      params := .unlabelled [.string]
      body := fun (reason, ()) _ => refuse reason },
    { name := "stubborn"
      params := .unlabelled [.bool]
      body := fun (agrees, ()) _ => Call.ensure agrees "stubborn says no" },
    { name := "check"
      params := .unlabelled [.int .u64]
      body := fun (n, ()) _ => check n },
    { name := "codec_fail"
      params := .unlabelled [.int .u32]
      body := fun ((n : BitVec 32), ()) _ => throw (.codec (.trailingBytes n.toNat)) },
    { name := "state_fail"
      params := .unlabelled [.string]
      body := fun (reason, ()) _ => throw (.state (.backend reason)) },
    { name := "multi"
      params := .unlabelled [.vec stepType, .string]
      body := fun (steps, failure, ()) _ => multi steps failure },
    { name := "info"
      params := .unlabelled [.name]
      body := fun (who, ()) => info who },
    { name := "pay"
      params := .unlabelled [.name, .int .u64, .string]
      body := fun (target, amount, memo, ()) => pay target amount memo },
    { name := "hash"
      params := .unlabelled [bytesType]
      body := fun (data, ()) _ => hash data },
    { name := "many"
      params := manyRow
      body := fun values _ => (Slot.mk "many").put (.tuple manyRow) values },
    { name := "bump"
      params := .unlabelled [.int .i32, .int .u32]
      body := fun (id, more, ()) _ => bump id more },
    { name := "peek"
      params := .unlabelled [.name, .string, bytesType]
      body := fun (source, table, key, ()) _ => peek source table (bytesOf key) }]

end ContractStore.Probe
