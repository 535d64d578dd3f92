import ContractStore.Proofs.Name
import ContractStore.Proofs.Program.Action
import ContractStore.Proofs.Table.Book

/-!
What is done to a memory store against what is meant on values. An action matches its meaning if it
gives the same result and leaves a store that is related to the new value; where it fails, it has
left the store alone. The steps that operations are made of match one by one: a look-up, packing,
asking for a value that has to be there, and the write of a packed value.
-/
namespace ContractStore

/-- What the store holds under `raw` is `value`, packed. -/
def Holds (type : WireType) (store : MemoryStore) (raw : Bytes) (value : Option type.Carrier) :
    Prop :=
  Option.Rel (fun value bytes => type.encode value = .ok bytes) value (store.find? raw)

namespace Holds
variable {type : WireType} {store : MemoryStore} {raw : Bytes} {value : Option type.Carrier}

theorem isSome_eq (h : Holds type store raw value) : (store.find? raw).isSome = value.isSome := by
  unfold Holds at h
  generalize store.find? raw = stored at h ⊢
  cases h <;> rfl

theorem ofStored_eq (n : Namespace) (h : Holds type store raw value) :
    n.perform (Row.ofStored type (store.find? raw)) store = (.ok value, store) := by
  unfold Holds at h
  generalize store.find? raw = stored at h
  cases h with
  | none => rfl
  | some encoded =>
    rename_i value bytes
    change n.perform (some <$> Action.ofCodec (type.unpack bytes)) store = _
    rw [WireType.unpack_of_encode encoded]
    rfl

theorem insert_self {value : type.Carrier} {bytes : Bytes} (encoded : type.encode value = .ok bytes)
    (store : MemoryStore) (raw : Bytes) : Holds type (store.insert raw bytes) raw (some value) := by
  unfold Holds
  rw [SortedMap.find?_insert_self]
  exact .some encoded

theorem erase_self (type : WireType) (store : MemoryStore) (raw : Bytes) :
    Holds type (store.erase raw) raw none := by
  unfold Holds
  rw [SortedMap.find?_erase_self]
  exact .none

end Holds

namespace Site

theorem reach_eq_place (site : Site) (space : KeySpace) :
    site.reach =
      ((space.place site.1.account site.1.contract site.2).map fun _ => ()).mapError .state := by
  unfold reach
  by_cases fits : KeySpace.Fits site.1.account site.1.contract site.2
  · obtain ⟨bytes, lies⟩ := space.place_of_fits fits
    rw [if_pos fits, lies]
    rfl
  · rw [if_neg fits, space.place_of_not_fits fits]
    rfl

theorem reach_eq_rowKey (site : Site) (limit : Nat) (key : Bytes) :
    site.reach =
      (((site.1.home limit).rowKey site.2 key).map fun _ => ()).mapError .state := by
  rw [site.reach_eq_place .table]
  unfold Namespace.rowKey tableKey Name.home
  cases KeySpace.table.place site.1.account site.1.contract site.2 <;> rfl

theorem reach_eq_slotKey (site : Site) (limit : Nat) :
    site.reach =
      (((site.1.home limit).slotKey site.2).map fun _ => ()).mapError .state :=
  site.reach_eq_place .storage

def accept (site : Site) (limit : Nat) (type : WireType) (value : type.Carrier) :
    Except ContractError Unit := do
  let size ← packedSize type value
  if limit < size then throw (.state (.valueTooLarge limit size))
  site.reach

end Site

/-- What was done to `store` is what was meant. An operation that fails leaves the store. -/
def Matches {α σ : Type} (related : MemoryStore → σ → Prop) (store : MemoryStore)
    (done : Except ContractError α × MemoryStore) (meant : Except ContractError (α × σ)) : Prop :=
  match meant with
  | .ok (x, after) => done.1 = .ok x ∧ related done.2 after
  | .error cause => done = (.error cause, store)

def settled {α σ : Type} (state : σ) :
    Except ContractError (α × σ) → Except ContractError α × σ
  | .ok (x, after) => (.ok x, after)
  | .error cause => (.error cause, state)

namespace Matches
variable {α σ : Type} {related : MemoryStore → σ → Prop} {store : MemoryStore}
  {done : Except ContractError α × MemoryStore} {meant : Except ContractError (α × σ)}

theorem settles {state : σ} (matched : Matches related store done meant)
    (now : related store state) :
    done.1 = (settled state meant).1 ∧ related done.2 (settled state meant).2 := by
  cases meant with
  | ok outcome => exact matched
  | error cause =>
    cases matched
    exact ⟨rfl, now⟩

theorem eq_of_error {cause : ContractError} (matched : Matches related store done meant)
    (failed : done.1 = .error cause) : done.2 = store := by
  cases meant with
  | ok outcome =>
    have succeeded := matched.1
    rw [failed] at succeeded
    cases succeeded
  | error cause' =>
    cases matched
    rfl

end Matches

section Step
variable {α β σ : Type} {related : MemoryStore → σ → Prop} {n : Namespace} {store : MemoryStore}

theorem matches_look {first : Action α} {seen : Except ContractError α} {state : σ}
    (now : related store state) (looked : n.perform first store = (seen, store)) :
    Matches related store (n.perform first store) (do
      let x ← seen
      return (x, state)) := by
  rw [looked]
  cases seen with
  | ok x => exact ⟨rfl, now⟩
  | error cause => rfl

theorem matches_look_bind {first : Action α} {next : α → Action β} {seen : Except ContractError α}
    {rest : α → Except ContractError (β × σ)} (looked : n.perform first store = (seen, store))
    (later : ∀ x, Matches related store (n.perform (next x) store) (rest x)) :
    Matches related store (n.perform (first >>= next) store) (seen >>= rest) := by
  rw [Namespace.perform_bind, looked]
  cases seen with
  | ok x => exact later x
  | error cause => rfl

theorem matches_packed {type : WireType} {value : type.Carrier} {next : Bytes → Action β}
    {rest : Nat → Except ContractError (β × σ)}
    (later : ∀ bytes, type.encode value = .ok bytes →
      Matches related store (n.perform (next bytes) store) (rest bytes.length)) :
    Matches related store (n.perform (Action.ofCodec (type.pack value) >>= next) store)
      (packedSize type value >>= rest) := by
  rw [Namespace.perform_bind, Namespace.perform_ofCodec]
  unfold packedSize
  rw [type.packSize_eq_encode, type.pack_eq_encode]
  cases encoded : type.encode value with
  | ok bytes => exact later bytes encoded
  | error cause => rfl

theorem perform_required (site : Site) (found : Option α) :
    n.perform (Row.required site.2 found) store = (Book.required site found, store) := by
  cases found <;> rfl

theorem perform_get_of_find {type : WireType} {site : Site} {key : Bytes}
    {seen : Except ContractError (Option type.Carrier)}
    (found : n.perform (Row.find type site.2 key) store = (seen, store)) :
    n.perform (Row.get type site.2 key) store = (do Book.required site (← seen), store) := by
  unfold Row.get
  rw [Namespace.perform_bind, found]
  cases seen with
  | error cause => rfl
  | ok row => exact perform_required site row

theorem matches_then_return {first : Action Unit} {put : Except ContractError σ}
    (h : Matches related store (n.perform first store) (do return ((), ← put))) (x : α) :
    Matches related store (n.perform (do first; return x) store) (do return (x, ← put)) := by
  rw [Namespace.perform_bind]
  generalize n.perform first store = done at h ⊢
  obtain ⟨result, after⟩ := done
  cases put with
  | error cause =>
    cases h
    rfl
  | ok written =>
    obtain ⟨succeeded, now⟩ := h
    cases succeeded
    exact ⟨rfl, now⟩

variable {type : WireType} {location : Except StateError Bytes} {read : Action (Option Bytes)}
  {reach : Except ContractError Unit} {value : Option type.Carrier}

theorem perform_find_held (reaches : reach = (location.map fun _ => ()).mapError .state)
    (holds : ∀ raw, location = .ok raw → Holds type store raw value)
    (reads : n.perform read store = ((location.map store.find?).mapError .state, store)) :
    n.perform (read >>= Row.ofStored type) store = (do reach; return value, store) := by
  rw [Namespace.perform_bind, reads, reaches]
  cases lies : location with
  | error cause => rfl
  | ok raw => exact (holds raw lies).ofStored_eq n

theorem perform_present_held (reaches : reach = (location.map fun _ => ()).mapError .state)
    (holds : ∀ raw, location = .ok raw → Holds type store raw value)
    (reads : n.perform read store = ((location.map store.find?).mapError .state, store)) :
    n.perform (do let stored ← read; return stored.isSome) store =
      (do reach; return value.isSome, store) := by
  rw [Namespace.perform_bind, reads, reaches]
  cases lies : location with
  | error cause => rfl
  | ok raw =>
    change (Except.ok (store.find? raw).isSome, store) = _
    rw [(holds raw lies).isSome_eq]
    rfl

/-- A packed value is written where its site has a raw key, if it is within the limit. -/
theorem matches_write {site : Site} {write : Bytes → Action Unit} {value : type.Carrier} {after : σ}
    (reaches : site.reach = (location.map fun _ => ()).mapError .state)
    (written : ∀ bytes, n.perform (write bytes) store = n.write store location bytes)
    (kept : ∀ raw bytes, location = .ok raw → type.encode value = .ok bytes →
      related (store.insert raw bytes) after) :
    Matches related store (n.perform (Action.ofCodec (type.pack value) >>= write) store) (do
      site.accept n.recordLimit type value
      return ((), after)) := by
  unfold Site.accept
  rw [bind_assoc]
  refine matches_packed fun bytes encoded => ?_
  rw [written]
  unfold Namespace.write
  by_cases large : n.recordLimit < bytes.length
  · rw [if_pos large, if_pos large]
    rfl
  · rw [if_neg large, if_neg large, reaches]
    cases lies : location with
    | error cause => rfl
    | ok raw => exact ⟨rfl, kept raw bytes lies encoded⟩

theorem matches_delete {site : Site} {limit : Nat} {key : Bytes} {after : σ}
    (kept : ∀ raw, (site.1.home limit).rowKey site.2 key = .ok raw →
      related (store.erase raw) after) :
    Matches related store ((site.1.home limit).perform (Action.delete site.2 key) store) (do
      site.reach
      return ((), after)) := by
  rw [Namespace.perform_delete, site.reach_eq_rowKey limit key]
  cases lies : (site.1.home limit).rowKey site.2 key with
  | error cause => rfl
  | ok raw => exact ⟨rfl, kept raw lies⟩

end Step
end ContractStore
