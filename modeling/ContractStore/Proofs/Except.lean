/-!
Steps that can fail. What a step does is settled by when it goes through and when it fails with
which cause. A list of steps goes through exactly if each of them does, and otherwise the first that
fails is the one that is reported.
-/
namespace ContractStore
variable {ε α β : Type}

/-- The conditions under which a step goes through and fails; they leave no case out. -/
structure Settles (result : Except ε α) (accepted : Prop) (refused : ε → Prop) : Prop where
  total : accepted ∨ ∃ cause, refused cause
  passes : accepted → ∃ x, result = .ok x
  fails : ∀ cause, refused cause → result = .error cause

namespace Settles
variable {result : Except ε α} {accepted : Prop} {refused : ε → Prop}

theorem ok_iff (settles : Settles result accepted refused) : (∃ x, result = .ok x) ↔ accepted := by
  refine ⟨?_, settles.passes⟩
  rintro ⟨x, passed⟩
  cases settles.total with
  | inl holds => exact holds
  | inr violated =>
    obtain ⟨cause, violated⟩ := violated
    cases passed.symm.trans (settles.fails cause violated)

theorem error_iff (settles : Settles result accepted refused) (cause : ε) :
    result = .error cause ↔ refused cause := by
  refine ⟨fun failed => ?_, settles.fails cause⟩
  cases settles.total with
  | inl holds =>
    obtain ⟨x, passed⟩ := settles.passes holds
    cases failed.symm.trans passed
  | inr violated =>
    obtain ⟨cause', violated⟩ := violated
    cases failed.symm.trans (settles.fails cause' violated)
    exact violated

end Settles

theorem bind_eq_ok {first : Except ε α} {next : α → Except ε β} {y : β}
    (h : (first >>= next) = .ok y) : ∃ x, first = .ok x ∧ next x = .ok y := by
  cases first with
  | error cause => cases h
  | ok x => exact ⟨x, rfl, h⟩

theorem mapM_eq_ok_iff {f : α → Except ε β} {xs : List α} {ys : List β} :
    xs.mapM f = .ok ys ↔ xs.map f = ys.map .ok := by
  induction xs generalizing ys with
  | nil => cases ys <;> simp [pure, Except.pure]
  | cons x xs ih =>
    cases head : f x with
    | error cause => cases ys <;> simp [head, bind, Except.bind]
    | ok y =>
      cases rest : xs.mapM f with
      | error cause =>
        have never (zs : List β) : xs.map f ≠ zs.map .ok := fun same => by
          simp [ih.2 same] at rest
        cases ys <;> simp [head, rest, bind, Except.bind, never]
      | ok zs =>
        have tail := ih.1 rest
        cases ys with
        | nil => simp [head, rest, bind, Except.bind, pure, Except.pure]
        | cons y' ys =>
          have injective : zs.map (Except.ok (ε := ε)) = ys.map .ok ↔ zs = ys :=
            List.map_inj_right fun a b same => Except.ok.inj same
          simp [head, rest, bind, Except.bind, pure, Except.pure, tail, injective]

theorem length_of_mapM {f : α → Except ε β} {xs : List α} {ys : List β}
    (h : xs.mapM f = .ok ys) : ys.length = xs.length := by
  have same := congrArg List.length (mapM_eq_ok_iff.1 h)
  simpa using same.symm

theorem each_of_mapM {f : α → Except ε β} {xs : List α} {ys : List β}
    (h : xs.mapM f = .ok ys) {x : α} (mem : x ∈ xs) : ∃ y, f x = .ok y := by
  have image := List.mem_map_of_mem (f := f) mem
  rw [mapM_eq_ok_iff.1 h] at image
  obtain ⟨y, _, same⟩ := List.mem_map.1 image
  exact ⟨y, same.symm⟩

theorem pairwise_of_mapM {f : α → Except ε β} {R : α → α → Prop}
    {S : β → β → Prop} (step : ∀ x x' y y', f x = .ok y → f x' = .ok y' → R x x' → S y y')
    {xs : List α} {ys : List β} (h : xs.mapM f = .ok ys) (related : xs.Pairwise R) :
    ys.Pairwise S := by
  have images := mapM_eq_ok_iff.1 h
  have mapped : (xs.map f).Pairwise fun a b => ∀ y y', a = .ok y → b = .ok y' → S y y' := by
    apply List.pairwise_map.2
    apply related.imp
    intro x x' before y y' first second
    exact step x x' y y' first second before
  rw [images, List.pairwise_map] at mapped
  apply mapped.imp
  intro y y' before
  exact before y y' rfl rfl

theorem mapM_eq_error_iff {f : α → Except ε β} {xs : List α} {cause : ε} :
    xs.mapM f = .error cause ↔
      ∃ before x after, xs = before ++ x :: after ∧ (∀ y ∈ before, ∃ z, f y = .ok z) ∧
        f x = .error cause := by
  induction xs with
  | nil =>
    refine ⟨fun failed => (nomatch failed), ?_⟩
    rintro ⟨before, _, _, split, _⟩
    cases before <;> cases split
  | cons first rest ih =>
    cases head : f first with
    | error reason =>
      rw [List.mapM_cons, head]
      constructor
      · intro failed
        cases failed
        exact ⟨[], first, rest, rfl, fun _ mem => (nomatch mem), head⟩
      · rintro ⟨before, x, after, split, passed, failed⟩
        cases before with
        | nil =>
          cases split
          cases head.symm.trans failed
          rfl
        | cons _ before =>
          cases split
          obtain ⟨z, passes⟩ := passed first List.mem_cons_self
          cases head.symm.trans passes
    | ok y =>
      have later : (first :: rest).mapM f = .error cause ↔ rest.mapM f = .error cause := by
        rw [List.mapM_cons, head]
        cases rest.mapM f <;> simp [bind, Except.bind, pure, Except.pure]
      rw [later, ih]
      constructor
      · rintro ⟨before, x, after, rfl, passed, failed⟩
        refine ⟨first :: before, x, after, rfl, ?_, failed⟩
        exact List.forall_mem_cons.2 ⟨⟨y, head⟩, passed⟩
      · rintro ⟨before, x, after, split, passed, failed⟩
        cases before with
        | nil =>
          cases split
          cases head.symm.trans failed
        | cons _ before =>
          cases split
          exact ⟨before, x, after, rfl, (List.forall_mem_cons.1 passed).2, failed⟩

theorem mapM_eq_error {f : α → Except ε β} {xs : List α} {cause : ε}
    (h : xs.mapM f = .error cause) : ∃ x ∈ xs, f x = .error cause := by
  obtain ⟨before, x, after, rfl, _, failed⟩ := mapM_eq_error_iff.1 h
  exact ⟨x, List.mem_append_right before List.mem_cons_self, failed⟩

theorem mapM_total {f : α → Except ε β} {xs : List α} (each : ∀ x ∈ xs, ∃ y, f x = .ok y) :
    ∃ ys, xs.mapM f = .ok ys := by
  cases result : xs.mapM f with
  | ok ys => exact ⟨ys, rfl⟩
  | error cause =>
    obtain ⟨x, mem, failed⟩ := mapM_eq_error result
    obtain ⟨y, passed⟩ := each x mem
    cases failed.symm.trans passed

namespace Settles

theorem map {result : Except ε α} {accepted : Prop} {refused : ε → Prop}
    (settles : Settles result accepted refused) (f : α → β) :
    Settles (result.map f) accepted refused where
  total := settles.total
  passes holds := by
    obtain ⟨x, passed⟩ := settles.passes holds
    rw [passed]
    exact ⟨f x, rfl⟩
  fails cause violated := by
    rw [settles.fails cause violated]
    rfl

theorem mapM {f : α → Except ε β} {accepted : α → Prop} {refused : α → ε → Prop}
    (settles : ∀ x, Settles (f x) (accepted x) (refused x)) (xs : List α) :
    Settles (xs.mapM f) (∀ x ∈ xs, accepted x) fun cause =>
      ∃ before x after, xs = before ++ x :: after ∧ (∀ y ∈ before, accepted y) ∧
        refused x cause where
  total := by
    cases result : xs.mapM f with
    | ok ys => exact .inl fun x mem => (settles x).ok_iff.1 (each_of_mapM result mem)
    | error cause =>
      obtain ⟨before, x, after, split, passed, failed⟩ := mapM_eq_error_iff.1 result
      exact .inr ⟨cause, before, x, after, split, fun y mem => (settles y).ok_iff.1 (passed y mem),
        ((settles x).error_iff cause).1 failed⟩
  passes holds := mapM_total fun x mem => (settles x).passes (holds x mem)
  fails cause := by
    rintro ⟨before, x, after, split, holds, violated⟩
    exact mapM_eq_error_iff.2 ⟨before, x, after, split,
      fun y mem => (settles y).passes (holds y mem), (settles x).fails cause violated⟩

end Settles

/-- Where every item is checked and the last counts, the checks are made on all items. -/
theorem foldlM_last (f : α → Except ε β) (xs : List α) (start : β) :
    xs.foldlM (fun _ x => f x) start = (xs.mapM f).map fun ys => ys.getLastD start := by
  induction xs generalizing start with
  | nil => rfl
  | cons x rest ih =>
    rw [List.foldlM_cons, List.mapM_cons]
    cases f x with
    | error cause => rfl
    | ok y =>
      refine (ih y).trans ?_
      cases rest.mapM f with
      | error cause => rfl
      | ok ys => cases ys <;> rfl

theorem forM_eq_mapM (f : α → Except ε Unit) (xs : List α) :
    xs.forM f = (xs.mapM f).map fun _ => () := by
  induction xs with
  | nil => rfl
  | cons x rest ih =>
    rw [List.mapM_cons]
    change (f x >>= fun _ => rest.forM f) = _
    rw [ih]
    cases f x with
    | error cause => rfl
    | ok _ => cases rest.mapM f <;> rfl

theorem perm_of_perm_map {f : α → β} {xs : List α} {ys : List β}
    (perm : ys.Perm (xs.map f)) : ∃ zs : List α, zs.Perm xs ∧ zs.map f = ys := by
  generalize image : xs.map f = ys' at perm
  induction perm generalizing xs with
  | nil =>
    cases List.map_eq_nil_iff.1 image
    exact ⟨[], .nil, rfl⟩
  | cons y _ ih =>
    obtain ⟨x, rest, rfl, rfl, tail⟩ := List.map_eq_cons_iff.1 image
    obtain ⟨zs, perm, rfl⟩ := ih tail
    exact ⟨x :: zs, perm.cons x, rfl⟩
  | swap y y' _ =>
    obtain ⟨x, rest, rfl, rfl, tail⟩ := List.map_eq_cons_iff.1 image
    obtain ⟨x', rest, rfl, rfl, rfl⟩ := List.map_eq_cons_iff.1 tail
    exact ⟨x' :: x :: rest, .swap x x' rest, rfl⟩
  | trans _ _ ih ih' =>
    obtain ⟨zs, perm, tail⟩ := ih' image
    obtain ⟨zs', perm', found⟩ := ih tail
    exact ⟨zs', perm'.trans perm, found⟩

theorem mapM_perm {f : α → Except ε β} {xs xs' : List α} (perm : xs.Perm xs')
    {ys' : List β} (h : xs'.mapM f = .ok ys') : ∃ ys, xs.mapM f = .ok ys ∧ ys.Perm ys' := by
  have images := perm.map f
  rw [mapM_eq_ok_iff.1 h] at images
  obtain ⟨ys, same, found⟩ := perm_of_perm_map images
  exact ⟨ys, mapM_eq_ok_iff.2 found.symm, same⟩

end ContractStore
