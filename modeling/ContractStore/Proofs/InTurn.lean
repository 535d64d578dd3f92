/-!
Steps taken in turn. A step gives a reply and a new state; a list of steps gives all replies and the
last state.
-/
namespace ContractStore

def inTurn {α β σ : Type} (step : α → σ → β × σ) : List α → σ → List β × σ
  | [], state => ([], state)
  | a :: rest, state =>
    let (reply, next) := step a state
    let (replies, last) := inTurn step rest next
    (reply :: replies, last)

variable {α β σ : Type} (step : α → σ → β × σ)

theorem inTurn_cons (a : α) (rest : List α) (state : σ) :
    inTurn step (a :: rest) state =
      ((step a state).1 :: (inTurn step rest (step a state).2).1,
        (inTurn step rest (step a state).2).2) := rfl

theorem inTurn_append (first second : List α) (state : σ) :
    inTurn step (first ++ second) state =
      ((inTurn step first state).1 ++ (inTurn step second (inTurn step first state).2).1,
        (inTurn step second (inTurn step first state).2).2) := by
  induction first generalizing state with
  | nil => rfl
  | cons a rest ih =>
    rw [List.cons_append, inTurn_cons, ih, inTurn_cons]
    rfl

/-- Steps that answer alike in related states, and leave related states, do so however many are
taken. -/
theorem inTurn_related {τ : Type} {step : α → σ → β × σ} {step' : α → τ → β × τ}
    (related : σ → τ → Prop)
    (alike : ∀ a state state', related state state' → (step a state).1 = (step' a state').1 ∧
      related (step a state).2 (step' a state').2)
    (steps : List α) {state : σ} {state' : τ} (first : related state state') :
    (inTurn step steps state).1 = (inTurn step' steps state').1 ∧
      related (inTurn step steps state).2 (inTurn step' steps state').2 := by
  induction steps generalizing state state' with
  | nil => exact ⟨rfl, first⟩
  | cons a rest ih =>
    obtain ⟨same, next⟩ := alike a state state' first
    obtain ⟨sameLater, last⟩ := ih next
    rw [inTurn_cons, inTurn_cons, same, sameLater]
    exact ⟨rfl, last⟩

theorem length_inTurn (steps : List α) (state : σ) :
    (inTurn step steps state).1.length = steps.length := by
  induction steps generalizing state with
  | nil => rfl
  | cons a rest ih =>
    rw [inTurn_cons, List.length_cons, ih, List.length_cons]

def costInTurn (cost : α → σ → Nat) (next : σ → α → σ) : List α → σ → Nat
  | [], _ => 0
  | a :: rest, state => cost a state + costInTurn cost next rest (next state a)

theorem costInTurn_eq_zero_iff {cost : α → σ → Nat} {costs : α → σ → Prop}
    (free : ∀ a state, cost a state = 0 ↔ ¬ costs a state) (next : σ → α → σ) (steps : List α)
    (state : σ) :
    costInTurn cost next steps state = 0 ↔
      ∀ earlier a later, steps = earlier ++ a :: later →
        ¬ costs a (earlier.foldl next state) := by
  induction steps generalizing state with
  | nil =>
    refine ⟨fun _ earlier a later split => ?_, fun _ => rfl⟩
    cases earlier <;> cases split
  | cons first rest ih =>
    unfold costInTurn
    rw [Nat.add_eq_zero_iff, ih, free]
    constructor
    · rintro ⟨head, tail⟩ earlier a later split
      cases earlier with
      | nil =>
        cases split
        exact head
      | cons _ earlier =>
        cases split
        exact tail earlier a later rfl
    · intro all
      refine ⟨all [] first rest rfl, fun earlier a later split => ?_⟩
      exact all (first :: earlier) a later (congrArg (first :: ·) split)

end ContractStore
