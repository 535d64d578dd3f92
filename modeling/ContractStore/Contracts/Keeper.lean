import ContractStore.Call.Contract

/-!
Two small contracts with one method each: one without arguments, and one that is made for bytes and
keeps the byte it was made with next to the one it is given.
-/
namespace ContractStore.Keeper

def plain : Contract where
  typeName := "Plain"
  methods := [
    { name := "only"
      params := .unlabelled []
      body := fun () _ => do Action.save "only" (Bytes.ofString "plain") }]

def heldByte : UInt8 := 9

def holder : Contract where
  typeName := "Holder<u8>"
  methods := [
    { name := "keep"
      params := .unlabelled [.int .u8]
      body := fun ((extra : BitVec 8), ()) _ => do
        Action.save "kept" [heldByte, UInt8.ofBitVec extra] }]

end ContractStore.Keeper
