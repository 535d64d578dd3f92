import Mathlib
import ContractStore.Proofs.Call.Transaction
import ContractStore.Proofs.Name
import ContractStore.Proofs.Program.Action
import ContractStore.Proofs.Store.KeyLayout

/-!
Whose data a call can change. A raw key belongs to at most one contract name (`Name.eq_of_owns`).
One store call changes at most one raw key, and that one is the caller's own (`confined_of_effect`);
changes of that kind add up, so a whole run is confined as well (`confined_run`), and a call leaves
what its run leaves or nothing.
-/
namespace ContractStore

namespace Name

def Owns (name : Name) (raw : Bytes) : Prop :=
  name.isContract = true ∧
    ((∃ table key, tableKey name.account name.contract table key = .ok raw) ∨
      ∃ slot, storageKey name.account name.contract slot = .ok raw)

theorem eq_of_owns {name other : Name} {raw : Bytes} (h : name.Owns raw) (h' : other.Owns raw) :
    name = other := by
  obtain ⟨contract, place⟩ := h
  obtain ⟨contract', place'⟩ := h'
  have parts : name.account = other.account ∧ name.contract = other.contract := by
    rcases place with ⟨table, key, lies⟩ | ⟨slot, lies⟩
    · rcases place' with ⟨table', key', lies'⟩ | ⟨slot', lies'⟩
      · obtain ⟨owners, contracts, _⟩ := eq_of_tableKey lies lies'
        exact ⟨owners, contracts⟩
      · exact absurd lies' (tableKey_ne_storageKey lies)
    · rcases place' with ⟨table', key', lies'⟩ | ⟨slot', lies'⟩
      · exact absurd lies (tableKey_ne_storageKey lies')
      · obtain ⟨owners, contracts, _⟩ := eq_of_storageKey lies lies'
        exact ⟨owners, contracts⟩
  exact eq_of_parts contract contract' parts.1 parts.2

def Agree (name : Name) (left right : MemoryStore) : Prop :=
  ∀ raw, name.Owns raw → left.find? raw = right.find? raw

theorem agree_refl (name : Name) (store : MemoryStore) : name.Agree store store := fun _ _ => rfl

theorem Agree.trans {name : Name} {left middle right : MemoryStore} (h : name.Agree left middle)
    (h' : name.Agree middle right) : name.Agree left right :=
  fun raw own => (h raw own).trans (h' raw own)

end Name

namespace Namespace

/-- What lies elsewhere is as before, and what is new is within the record limit. -/
def Confined (n : Namespace) (before after : MemoryStore) : Prop :=
  ∀ raw, after.find? raw ≠ before.find? raw →
    n.Owns raw ∧ ∀ value, after.find? raw = some value → value.length ≤ n.recordLimit

variable {n : Namespace} {before middle after : MemoryStore}

theorem confined_refl (n : Namespace) (store : MemoryStore) : n.Confined store store :=
  fun _ changed => absurd rfl changed

theorem Confined.trans (h : n.Confined before middle) (h' : n.Confined middle after) :
    n.Confined before after := by
  intro raw changed
  by_cases last : after.find? raw = middle.find? raw
  · rw [last] at changed ⊢
    exact h raw changed
  · exact h' raw last

theorem confined_of_effect (effect : n.Effect n.Owns before after) :
    n.Confined before after := by
  intro raw changed
  cases effect with
  | none => exact absurd rfl changed
  | inserted own fits done =>
    rename_i key value
    cases done
    by_cases here : raw = key
    · subst here
      refine ⟨own, fun found stored => ?_⟩
      rw [SortedMap.find?_insert_self] at stored
      cases stored
      exact fits
    · exact absurd (SortedMap.find?_insert_of_ne before value here) changed
  | deleted own done =>
    rename_i key
    cases done
    by_cases here : raw = key
    · subst here
      refine ⟨own, fun found stored => ?_⟩
      rw [SortedMap.find?_erase_self] at stored
      cases stored
    · exact absurd (SortedMap.find?_erase_of_ne before here) changed

theorem confined_run {α : Type} (n : Namespace) (program : Program α) (store : MemoryStore) :
    n.Confined store (n.run program store).2 :=
  n.run_induction (n.Confined store)
    (fun _ _ effect confined => confined.trans (confined_of_effect effect)) program store
    (n.confined_refl store)

end Namespace

namespace Limits

theorem changed_of_execute {limits : Limits} {ctx : CallContext} {program : Call Unit} {host : Host}
    {store : MemoryStore} {raw : Bytes}
    (changed : (limits.execute ctx program host store).2.2.find? raw ≠ store.find? raw) :
    ctx.contract.Owns raw ∧ ∀ value,
      (limits.execute ctx program host store).2.2.find? raw = some value →
        value.length ≤ limits.maxRecordBytes := by
  by_cases fits : ctx.args.length ≤ limits.maxArgsBytes
  · cases contract : ctx.contract.isContract with
    | false =>
      rw [execute_of_account program host store fits contract] at changed
      exact absurd rfl changed
    | true =>
      have confined := Namespace.confined_run
        ⟨ctx.contract.account, ctx.contract.contract, limits.maxRecordBytes⟩ (program.run host)
        store
      have ran := execute_eq_direct program host store fits contract
      unfold direct at ran
      generalize Namespace.run _ (program.run host) store = done at ran confined
      obtain ⟨⟨outcome, after⟩, written⟩ := done
      cases outcome with
      | error cause =>
        rw [show limits.execute ctx program host store = _ from ran] at changed
        exact absurd rfl changed
      | ok u =>
        obtain ⟨receipt, committed⟩ := ran
        rw [committed] at changed ⊢
        obtain ⟨own, small⟩ := confined raw changed
        exact ⟨⟨contract, own⟩, small⟩
  · rw [execute_of_long_args program host store (by omega)] at changed
    exact absurd rfl changed

theorem find?_execute_of_not_owned (limits : Limits) {ctx : CallContext} (program : Call Unit)
    (host : Host) (store : MemoryStore) {raw : Bytes} (elsewhere : ¬ ctx.contract.Owns raw) :
    (limits.execute ctx program host store).2.2.find? raw = store.find? raw := by
  by_cases same : (limits.execute ctx program host store).2.2.find? raw = store.find? raw
  · exact same
  · exact absurd (changed_of_execute same).1 elsewhere

theorem agree_of_execute (limits : Limits) (ctx : CallContext) (program : Call Unit) (host : Host)
    (store : MemoryStore) {name : Name} (other : name ≠ ctx.contract) :
    name.Agree (limits.execute ctx program host store).2.2 store := by
  intro raw own
  refine find?_execute_of_not_owned limits program host store fun mine => ?_
  exact other (Name.eq_of_owns own mine)

/-- A call changes only raw keys of its own contract, and what it stores is within the record limit;
so no other contract can tell from its own rows and slots that the call was made. -/
theorem execute_confined_to_own_keys (limits : Limits) (ctx : CallContext) (program : Call Unit)
    (host : Host) (store : MemoryStore) :
    let after := (limits.execute ctx program host store).2.2
    (∀ raw, after.find? raw ≠ store.find? raw →
      ctx.contract.Owns raw ∧
        ∀ value, after.find? raw = some value → value.length ≤ limits.maxRecordBytes) ∧
      ∀ (other : Name) (limit : Nat) (n : Namespace), other ≠ ctx.contract →
        Namespace.ofName other limit = .ok n →
        (∀ table key,
          (n.answer (.query table key) after).1 = (n.answer (.query table key) store).1) ∧
          ∀ slot, (n.answer (.load slot) after).1 = (n.answer (.load slot) store).1 := by
  intro after
  refine ⟨fun raw changed => changed_of_execute changed, ?_⟩
  intro other limit n differ named
  obtain ⟨contract, rfl⟩ := Namespace.ofName_eq_ok named
  have agree : other.Agree after store := agree_of_execute limits ctx program host store differ
  constructor
  · intro table key
    refine Namespace.look_congr fun raw lies => ?_
    exact congrArg Except.ok (agree raw ⟨contract, .inl ⟨table, key, lies⟩⟩)
  · intro slot
    refine Namespace.look_congr fun raw lies => ?_
    exact congrArg Except.ok (agree raw ⟨contract, .inr ⟨slot, lies⟩⟩)

/-- Of `$c@o@x` and `$c@o`, the first saves a value and the second's slot of that name stays. -/
theorem saving_changes_only_own_slot :
    let ctx : CallContext := ⟨"m", [], ⟨"$c@o@x"⟩, ⟨"o"⟩⟩
    let other : Name := ⟨"$c@o"⟩
    let n : Namespace := ⟨"o", "c", 1⟩
    let raw : Bytes := [2, 3, 111, 64, 120, 1, 99, 1, 115]
    let store : MemoryStore := SortedMap.empty.insert [2, 1, 111, 1, 99, 1, 115] [5]
    let after := (Limits.default.execute ctx (liftM (Action.save "s" [7])) Host.new store).2.2
    after.find? raw ≠ store.find? raw ∧ ctx.contract.Owns raw ∧ other ≠ ctx.contract ∧
      Namespace.ofName other 1 = .ok n ∧
        (n.answer (.load "s") after).1 = (n.answer (.load "s") store).1 := by
  intro ctx other n raw store after
  have changed : after.find? raw ≠ store.find? raw := by decide +kernel
  have differ : other ≠ ctx.contract := by decide
  have named : Namespace.ofName other 1 = .ok n := by cbv
  obtain ⟨own, others⟩ := execute_confined_to_own_keys Limits.default ctx
    (liftM (Action.save "s" [7])) Host.new store
  exact ⟨changed, (own raw changed).1, differ, named, (others other 1 n differ named).2 "s"⟩

end Limits
end ContractStore
