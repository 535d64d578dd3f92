import ContractStore.Proofs.Wire.RoundTrip
import ContractStore.Wire.Schema

/-!
Rows field by field. The values of a row are a list in which each is told with its type. A row is
encoded one value after the other, and decoding reads one value of each type in turn, so a record is
its count and then as many values as it has fields. A reader that expects another count stops at it.
-/
namespace ContractStore

abbrev TypedValue : Type := (type : WireType) × type.Carrier

namespace TypedValue

def pack (value : TypedValue) : Except CodecError Bytes := value.1.pack value.2

def packAll (values : List TypedValue) : Except CodecError Bytes :=
  (values.mapM pack).map List.flatten

theorem packAll_cons (type : WireType) (x : type.Carrier) (rest : List TypedValue) :
    packAll (⟨type, x⟩ :: rest) = (do
      let front ← type.encode x
      let back ← packAll rest
      return front ++ back) := by
  unfold packAll
  rw [List.mapM_cons, pack, type.pack_eq_encode]
  cases type.encode x with
  | error cause => rfl
  | ok front => cases rest.mapM pack <;> rfl

end TypedValue

def Reader.typed (type : WireType) : Reader TypedValue := do
  let x ← type.decode
  return ⟨type, x⟩

namespace WireRow

def types : WireRow → List WireType
  | nil => []
  | cons _ type rest => type :: rest.types

def values : (r : WireRow) → r.Carrier → List TypedValue
  | .nil, () => []
  | .cons _ type rest, (x, more) => ⟨type, x⟩ :: rest.values more

theorem types_ofList (fields : List (String × WireType)) :
    (ofList fields).types = fields.map Prod.snd := by
  induction fields with
  | nil => rfl
  | cons field rest ih =>
    unfold ofList
    rw [types, ih, List.map_cons]

theorem labels_ofList (fields : List (String × WireType)) :
    (ofList fields).labels = fields.map Prod.fst := by
  induction fields with
  | nil => rfl
  | cons field rest ih =>
    unfold ofList
    rw [labels, ih, List.map_cons]

theorem types_of_values (r : WireRow) (x : r.Carrier) : (r.values x).map Sigma.fst = r.types := by
  cases r with
  | nil => rfl
  | cons label type rest => exact congrArg (type :: ·) (rest.types_of_values x.2)

theorem values_injective (r : WireRow) {x y : r.Carrier} (same : r.values x = r.values y) :
    x = y := by
  cases r with
  | nil => rfl
  | cons label type rest =>
    obtain ⟨head, tail⟩ := List.cons.inj same
    exact Prod.ext (eq_of_heq (Sigma.mk.inj head).2) (rest.values_injective tail)

theorem encode_eq_packAll (r : WireRow) (x : r.Carrier) :
    r.encode x = TypedValue.packAll (r.values x) := by
  cases r with
  | nil => rfl
  | cons label type rest =>
    refine Eq.trans ?_ (TypedValue.packAll_cons type x.1 (rest.values x.2)).symm
    rw [← rest.encode_eq_packAll x.2]
    rfl

theorem decode_values (r : WireRow) :
    (do let x ← r.decode; return r.values x) = r.types.mapM Reader.typed := by
  cases r with
  | nil => rfl
  | cons label type rest =>
    rw [types, List.mapM_cons, ← rest.decode_values]
    change ((type.decode >>= fun x => rest.decode >>= fun more => pure (x, more)) >>= fun x =>
      pure (values (.cons label type rest) x)) = _
    simp only [Reader.typed, bind_assoc, pure_bind]
    rfl

end WireRow

namespace Member

/-- The member that a row's first label names is the first of its values. -/
theorem head?_values (label : String) (type : WireType) (rest : WireRow) :
    ∃ member : Member (.cons label type rest) type,
      ofLabel? (.cons label type rest) label = some ⟨type, member⟩ ∧
        ∀ x, ((WireRow.cons label type rest).values x).head? = some ⟨type, member.get x⟩ := by
  refine ⟨.here, ?_, fun _ => rfl⟩
  unfold ofLabel?
  rw [if_pos rfl]

end Member

namespace Reader

theorem expectSize_of_ne (what : String) {size count : Nat} (small : size < Varint.bound)
    (small' : count < Varint.bound) (ne : count ≠ size) (rest : Bytes) :
    expectSize what size (Varint.encode count ++ rest) =
      .error (.schemaMismatch what size count) rest := by
  have counted : Varint.countOf size = .ok size := by
    unfold Varint.countOf
    rw [if_pos small]
  unfold expectSize
  rw [counted]
  have taken := Varint.reads_encode small' rest
  change (Varint.read >>= fun got => if got = size then pure ()
    else throw (.schemaMismatch what size got)) (Varint.encode count ++ rest) = _
  rw [bind_of_ok taken, if_neg ne]
  rfl

end Reader

namespace WireType

theorem decode_record_values (typeName : String) (hasBase : Bool) (fields : WireRow) :
    (do let x ← (record typeName hasBase fields).decode; return fields.values x) = (do
      Reader.expectSize typeName (fields.wireCount hasBase)
      fields.types.mapM Reader.typed) := by
  rw [← fields.decode_values]
  change ((Reader.expectSize typeName (fields.wireCount hasBase) >>= fun _ => fields.decode) >>=
    fun x => pure (fields.values x)) = _
  rw [bind_assoc]

theorem pack_record (typeName : String) (hasBase : Bool) (fields : WireRow)
    (x : (record typeName hasBase fields).Carrier)
    (small : fields.wireCount hasBase < Varint.bound) :
    (record typeName hasBase fields).pack x =
      (TypedValue.packAll (fields.values x)).map
        (Varint.encode (fields.wireCount hasBase) ++ ·) := by
  rw [pack_eq_encode, ← fields.encode_eq_packAll x]
  change Encoding.sized (fields.wireCount hasBase) (fields.encode x) = _
  unfold Encoding.sized
  rw [Encoding.count_of_small small]
  cases fields.encode x <;> rfl

/-- Packed values of a record with another number of fields are refused at their count. -/
theorem decode_record_of_other_count {typeName typeName' : String} {hasBase hasBase' : Bool}
    {fields fields' : WireRow} (small : fields'.wireCount hasBase' < Varint.bound)
    (ne : fields.wireCount hasBase ≠ fields'.wireCount hasBase')
    {x : (record typeName hasBase fields).Carrier} {bytes : Bytes}
    (packed : (record typeName hasBase fields).pack x = .ok bytes) (rest : Bytes) :
    ∃ unread, (record typeName' hasBase' fields').decode (bytes ++ rest) =
      .error (.schemaMismatch typeName' (fields'.wireCount hasBase') (fields.wireCount hasBase))
        unread := by
  rw [pack_eq_encode] at packed
  obtain ⟨back, small', _, rfl⟩ := Encoding.sized_eq_ok packed
  refine ⟨back ++ rest, ?_⟩
  rw [List.append_assoc, decode]
  exact Reader.bind_of_error (Reader.expectSize_of_ne typeName' small small' ne (back ++ rest))

end WireType
end ContractStore
