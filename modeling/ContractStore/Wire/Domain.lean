import ContractStore.Bytes
import ContractStore.Name
import ContractStore.SortedMap
import ContractStore.Wire.WireType

/-!
What the values of a wire type are, and how they are ordered. A domain is a type with a lawful
three-way comparison; it is built by recursion on the wire type, because a set or map is a list that
ascends in the order of its own keys. Every value has one representation, so equal values are equal
in the logic. Numbers are compared as numbers, texts and byte strings from the left, variants of an
enumeration by the numbers they stand for.
-/
namespace ContractStore
open Std

structure Domain where
  Carrier : Type
  cmp : Carrier → Carrier → Ordering
  trans : TransCmp cmp
  lawful : LawfulEqCmp cmp

namespace Domain

attribute [instance] trans lawful

theorem transCmp_on (d : Domain) {α : Type} (view : α → d.Carrier) :
    TransCmp fun a b => d.cmp (view a) (view b) where
  eq_swap := d.trans.eq_swap
  isLE_trans := d.trans.isLE_trans

def comap (d : Domain) {α : Type} (view : α → d.Carrier)
    (injective : ∀ {a b}, view a = view b → a = b) : Domain where
  Carrier := α
  cmp a b := d.cmp (view a) (view b)
  trans := d.transCmp_on view
  lawful.compare_self := d.lawful.compare_self
  lawful.eq_of_compare h := injective (LawfulEqCmp.eq_of_compare h)

def ofOrd (α : Type) [Ord α] [TransOrd α] [LawfulEqOrd α] : Domain :=
  ⟨α, compare, inferInstance, inferInstance⟩

def unit : Domain where
  Carrier := Unit
  cmp _ _ := .eq
  trans.eq_swap := rfl
  trans.isLE_trans _ _ := rfl
  lawful.compare_self := rfl
  lawful.eq_of_compare _ := rfl

def prod (a b : Domain) : Domain where
  Carrier := a.Carrier × b.Carrier
  cmp := compareLex (fun x y => a.cmp x.1 y.1) (fun x y => b.cmp x.2 y.2)
  trans :=
    have := a.transCmp_on (Prod.fst : a.Carrier × b.Carrier → a.Carrier)
    have := b.transCmp_on (Prod.snd : a.Carrier × b.Carrier → b.Carrier)
    inferInstance
  lawful.compare_self := by simp [compareLex, ReflCmp.compare_self]
  lawful.eq_of_compare h :=
    have h := compareLex_eq_eq.1 h
    Prod.ext (LawfulEqCmp.eq_of_compare h.1) (LawfulEqCmp.eq_of_compare h.2)

def list (d : Domain) : Domain :=
  ⟨List d.Carrier, List.compareLex d.cmp, inferInstance, inferInstance⟩

def sized (d : Domain) (n : Nat) : Domain :=
  d.list.comap (α := { xs : List d.Carrier // xs.length = n }) Subtype.val Subtype.ext

def map (key value : Domain) : Domain :=
  (key.prod value).list.comap (α := SortedMap key.cmp value.Carrier) SortedMap.entries
    SortedMap.ext

def set (item : Domain) : Domain := item.map unit

def int (k : IntKind) : Domain := (ofOrd Int).comap k.value k.value_injective

def bits (n : Nat) : Domain := ofOrd (BitVec n)

def name : Domain :=
  (ofOrd String).comap Name.text fun {a b} h => by cases a; cases b; cases h; rfl

def enum (e : EnumDecl) : Domain := (int e.repr).comap e.pattern e.pattern_injective

end Domain

mutual

def WireType.domain : WireType → Domain
  | .int kind => .int kind
  | .float kind => .bits kind.bits
  | .bool => .ofOrd Bool
  | .varint => .bits 32
  | .string => .ofOrd String
  | .name => .name
  | .checksum kind => (Domain.ofOrd UInt8).sized kind.bytes
  | .vec item => item.domain.list
  | .array item size => item.domain.sized size
  | .set _ item => item.domain.set
  | .map _ key value => key.domain.map value.domain
  | .tuple items => items.domain
  | .enum decl => .enum decl
  | .record _ _ fields => fields.domain

def WireRow.domain : WireRow → Domain
  | .nil => .unit
  | .cons _ type rest => type.domain.prod rest.domain

end

abbrev WireType.Carrier (t : WireType) : Type := t.domain.Carrier

abbrev WireRow.Carrier (r : WireRow) : Type := r.domain.Carrier

abbrev WireType.cmp (t : WireType) : t.Carrier → t.Carrier → Ordering := t.domain.cmp

end ContractStore
