import ContractStore.Program.Namespace

/-!
What one store call can do to a store: nothing, or one insert or delete under the raw key it is
about (`Namespace.effect_of_answer`), which is one of the caller's own.
-/
namespace ContractStore.Namespace
variable {σ : Type}

def Owns (n : Namespace) (raw : Bytes) : Prop :=
  (∃ table key, n.rowKey table key = .ok raw) ∨ ∃ slot, n.slotKey slot = .ok raw

def Changes (n : Namespace) : StoreCall → Bytes → Prop
  | .insert table key _, raw | .update table key _, raw | .delete table key, raw =>
    n.rowKey table key = .ok raw
  | .save slot _, raw => n.slotKey slot = .ok raw
  | .query .., _ | .queryExternal .., _ | .load .., _ => False

theorem Changes.own {n : Namespace} {request : StoreCall} {raw : Bytes}
    (changes : n.Changes request raw) : n.Owns raw := by
  cases request with
  | insert table key record => exact .inl ⟨table, key, changes⟩
  | update table key record => exact .inl ⟨table, key, changes⟩
  | delete table key => exact .inl ⟨table, key, changes⟩
  | save slot value => exact .inr ⟨slot, changes⟩
  | query table key => exact changes.elim
  | queryExternal owner contract table key => exact changes.elim
  | load slot => exact changes.elim

/-- What is made of `before` by a contract that may change `place`: nothing, or one change. -/
inductive Effect [Store σ] (n : Namespace) (place : Bytes → Prop) (before : σ) : σ → Prop where
  | none : Effect n place before before
  | inserted {raw value : Bytes} {after : σ} (own : place raw)
      (fits : value.length ≤ n.recordLimit) (done : Store.insert before raw value = .ok after) :
      Effect n place before after
  | deleted {raw : Bytes} {after : σ} (own : place raw)
      (done : Store.delete before raw = .ok after) :
      Effect n place before after

theorem Effect.mono [Store σ] {n : Namespace} {place wider : Bytes → Prop} {before after : σ}
    (effect : n.Effect place before after) (within : ∀ raw, place raw → wider raw) :
    n.Effect wider before after := by
  cases effect with
  | none => exact .none
  | inserted own fits done => exact .inserted (within _ own) fits done
  | deleted own done => exact .deleted (within _ own) done

theorem length_le_of_checkSize {n : Namespace} {value : Bytes} {u : Unit}
    (passed : n.checkSize value = .ok u) : value.length ≤ n.recordLimit := by
  unfold checkSize at passed
  split at passed
  · cases passed
  · omega

section Answer
variable [Store σ] {n : Namespace} {place : Bytes → Prop} {before : σ}

theorem effect_of_change {result : Except StateError σ}
    (done : ∀ after, result = .ok after → n.Effect place before after) :
    n.Effect place before (change result before).2 := by
  cases result with
  | error cause => exact .none
  | ok after => exact done after rfl

theorem effect_of_sized_write (n : Namespace) (before : σ) (key : Except StateError Bytes)
    (value : Bytes) (after : σ)
    (done : (do n.checkSize value; let raw ← key; Store.insert before raw value) = .ok after) :
    n.Effect (key = .ok ·) before after := by
  cases size : n.checkSize value with
  | error cause =>
    rw [size] at done
    cases done
  | ok u =>
    rw [size] at done
    cases key with
    | error cause => cases done
    | ok raw => exact .inserted rfl (length_le_of_checkSize size) done

theorem effect_of_answer (n : Namespace) (request : StoreCall) (before : σ) :
    n.Effect (n.Changes request) before (n.answer request before).2 := by
  cases request with
  | query table key => exact .none
  | insert table key record =>
    exact effect_of_change (n.effect_of_sized_write before (n.rowKey table key) record)
  | update table key record =>
    exact effect_of_change (n.effect_of_sized_write before (n.rowKey table key) record)
  | delete table key =>
    refine effect_of_change fun after done => ?_
    cases raw : n.rowKey table key with
    | error cause =>
      rw [raw] at done
      cases done
    | ok place =>
      rw [raw] at done
      exact .deleted raw done
  | queryExternal owner contract table key => exact .none
  | load slot => exact .none
  | save slot value =>
    exact effect_of_change (n.effect_of_sized_write before (n.slotKey slot) value)

theorem run_induction {α : Type} (n : Namespace) (motive : σ → Prop)
    (step : ∀ before after, n.Effect n.Owns before after → motive before → motive after)
    (program : Program α) (store : σ) (start : motive store) :
    motive (n.run program store).2 := by
  induction program generalizing store with
  | done result => exact start
  | call request next ih =>
    have effect := (n.effect_of_answer request store).mono fun _ changes => changes.own
    exact ih (n.answer request store).1 (n.answer request store).2 (step _ _ effect start)

end Answer
end ContractStore.Namespace
