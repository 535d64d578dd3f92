/-!
The types that values on the wire can have. Types nest freely: a container holds any type, a tuple
or record any row of them. A row is an ordered list of labelled types.
-/
namespace ContractStore

inductive IntKind where
  | u8 | u16 | u32 | u64 | u128 | i8 | i16 | i32 | i64 | i128
  deriving DecidableEq, Repr

namespace IntKind

def name : IntKind → String
  | u8 => "u8"
  | u16 => "u16"
  | u32 => "u32"
  | u64 => "u64"
  | u128 => "u128"
  | i8 => "i8"
  | i16 => "i16"
  | i32 => "i32"
  | i64 => "i64"
  | i128 => "i128"

def bytes : IntKind → Nat
  | u8 | i8 => 1
  | u16 | i16 => 2
  | u32 | i32 => 4
  | u64 | i64 => 8
  | u128 | i128 => 16

abbrev bits (k : IntKind) : Nat := 8 * k.bytes

def signed : IntKind → Bool
  | u8 | u16 | u32 | u64 | u128 => false
  | i8 | i16 | i32 | i64 | i128 => true

def value (k : IntKind) (pattern : BitVec k.bits) : Int :=
  if k.signed then pattern.toInt else pattern.toNat

def ofInt? (k : IntKind) (n : Int) : Option (BitVec k.bits) :=
  let pattern := BitVec.ofInt k.bits n
  if k.value pattern = n then some pattern else none

theorem value_injective (k : IntKind) {a b : BitVec k.bits} (h : k.value a = k.value b) :
    a = b := by
  unfold value at h
  split at h
  · exact BitVec.toInt_inj.1 h
  · exact BitVec.toNat_inj.1 (Int.ofNat.inj h)

end IntKind

inductive FloatKind where
  | single | double
  deriving DecidableEq, Repr

namespace FloatKind

def bytes : FloatKind → Nat
  | single => 4
  | double => 8

abbrev bits (k : FloatKind) : Nat := 8 * k.bytes

def fractionBits : FloatKind → Nat
  | single => 23
  | double => 52

end FloatKind

inductive ChecksumKind where
  | bits160 | bits256 | bits512
  deriving DecidableEq, Repr

namespace ChecksumKind

def bytes : ChecksumKind → Nat
  | bits160 => 20
  | bits256 => 32
  | bits512 => 64

def name : ChecksumKind → String
  | bits160 => "Checksum160"
  | bits256 => "Checksum256"
  | bits512 => "Checksum512"

end ChecksumKind

structure EnumDecl where
  name : String
  repr : IntKind
  variants : List (String × BitVec repr.bits)
  nonempty : 0 < variants.length
  distinct : (variants.map Prod.snd).Nodup

namespace EnumDecl

def ofList? (name : String) (repr : IntKind) (variants : List (String × BitVec repr.bits)) :
    Option EnumDecl :=
  if h : 0 < variants.length ∧ (variants.map Prod.snd).Nodup then
    some ⟨name, repr, variants, h.1, h.2⟩
  else none

abbrev Variant (e : EnumDecl) : Type := Fin e.variants.length

def label (e : EnumDecl) (v : e.Variant) : String := e.variants[v].1

def pattern (e : EnumDecl) (v : e.Variant) : BitVec e.repr.bits := e.variants[v].2

def first (e : EnumDecl) : e.Variant := ⟨0, e.nonempty⟩

def ofPattern? (e : EnumDecl) (pattern : BitVec e.repr.bits) : Option e.Variant :=
  (List.finRange e.variants.length).find? fun v => e.pattern v == pattern

def ofLabel? (e : EnumDecl) (label : String) : Option e.Variant :=
  (List.finRange e.variants.length).find? fun v => e.label v == label

theorem pattern_injective (e : EnumDecl) {a b : e.Variant} (h : e.pattern a = e.pattern b) :
    a = b := by
  have distinct := List.pairwise_iff_getElem.1 e.distinct
  rcases Nat.lt_trichotomy a.1 b.1 with lt | eq | gt
  · exact absurd (by simpa [pattern] using h)
      (distinct a.1 b.1 (by simp) (by simp) lt)
  · exact Fin.ext eq
  · exact absurd (by simpa [pattern] using h.symm)
      (distinct b.1 a.1 (by simp) (by simp) gt)

end EnumDecl

/-- In which order a container's entries are written: by value, or by their packed bytes. -/
inductive EntryOrder where
  | byValue | byBytes
  deriving DecidableEq, Repr

mutual

inductive WireType where
  | int (kind : IntKind)
  /-- A float is its bit pattern. -/
  | float (kind : FloatKind)
  | bool
  | varint
  | string
  | name
  | checksum (kind : ChecksumKind)
  | vec (item : WireType)
  | array (item : WireType) (size : Nat)
  | set (order : EntryOrder) (item : WireType)
  | map (order : EntryOrder) (key value : WireType)
  | tuple (items : WireRow)
  | enum (decl : EnumDecl)
  /-- With `hasBase`, the first field is the record that this one extends. -/
  | record (typeName : String) (hasBase : Bool) (fields : WireRow)

inductive WireRow where
  | nil
  | cons (label : String) (type : WireType) (rest : WireRow)

end

namespace WireRow

def length : WireRow → Nat
  | nil => 0
  | cons _ _ rest => rest.length + 1

def labels : WireRow → List String
  | nil => []
  | cons label _ rest => label :: rest.labels

def unlabelled : List WireType → WireRow
  | [] => nil
  | type :: rest => cons "" type (unlabelled rest)

def ofList : List (String × WireType) → WireRow
  | [] => nil
  | (label, type) :: rest => cons label type (ofList rest)

def ownLabels (hasBase : Bool) (fields : WireRow) : List String :=
  if hasBase then fields.labels.drop 1 else fields.labels

/-- The count in front of a record: its own fields, and one for the base. -/
def wireCount (hasBase : Bool) (fields : WireRow) : Nat :=
  (fields.ownLabels hasBase).length + hasBase.toNat

end WireRow

namespace WireType

abbrev unit : WireType := tuple .nil

end WireType
end ContractStore
