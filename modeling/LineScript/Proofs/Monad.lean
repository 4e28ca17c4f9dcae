/-
This file opens sequences of steps that may fail: what two steps in a row do, what is known of them
when they end well, and how a map that follows the single steps follows a whole row of them. Nothing
here is particular to one kind of step.
-/

namespace LineScript

variable {ε σ α β : Type}

/-! ### Steps without a state -/

theorem except_bind_eq_ok {first : Except ε α} {next : α → Except ε β} {result : β} :
    (first >>= next) = .ok result ↔ ∃ value, first = .ok value ∧ next value = .ok result := by
  cases first with
  | error error =>
    constructor
    · intro failed
      cases failed
    · rintro ⟨_, failed, _⟩
      cases failed
  | ok value =>
    constructor
    · intro rest
      exact ⟨value, rfl, rest⟩
    · rintro ⟨_, same, rest⟩
      cases same
      exact rest

/-! ### Rows of steps -/

section Rows

variable {δ ι τ : Type} {step : σ → ι → Except ε σ} {other : τ → ι → Except δ τ} {image : σ → τ}
  (steps : ∀ state entry next, step state entry = .ok next →
    other (image state) entry = .ok (image next))

include steps

/-- A map of states that follows every step to its end follows a row of steps to its end. -/
theorem foldlM_eq_ok_of_steps {entries : List ι} {state final : σ}
    (ran : entries.foldlM step state = .ok final) :
    entries.foldlM other (image state) = .ok (image final) := by
  induction entries generalizing state with
  | nil =>
    cases ran
    rfl
  | cons entry rest inductionHypothesis =>
    rw [List.foldlM_cons] at ran
    obtain ⟨next, first, others⟩ := except_bind_eq_ok.mp ran
    rw [List.foldlM_cons, steps state entry next first]
    exact inductionHypothesis others

/-- If the map also follows every step to its error, it follows a row of steps to its error. -/
theorem foldlM_eq_error_of_steps {failure : ε → δ}
    (failures : ∀ state entry error, step state entry = .error error →
      other (image state) entry = .error (failure error))
    {entries : List ι} {state : σ} {error : ε} (ran : entries.foldlM step state = .error error) :
    entries.foldlM other (image state) = .error (failure error) := by
  induction entries generalizing state with
  | nil => cases ran
  | cons entry rest inductionHypothesis =>
    rw [List.foldlM_cons] at ran ⊢
    cases first : step state entry with
    | error early =>
      rw [first] at ran
      cases ran
      rw [failures state entry _ first]
      rfl
    | ok next =>
      rw [first] at ran
      rw [steps state entry next first]
      exact inductionHypothesis ran

end Rows

/-! ### Steps with a state that survives a failure -/

theorem pure_apply (value : α) (state : σ) : (pure value : EStateM ε σ α) state = .ok value state :=
  rfl

theorem get_apply (state : σ) : (get : EStateM ε σ σ) state = .ok state state := rfl

theorem throw_apply (error : ε) (state : σ) :
    (throw error : EStateM ε σ α) state = .error error state := rfl

theorem bind_apply (first : EStateM ε σ α) (next : α → EStateM ε σ β) (state : σ) :
    (first >>= next) state =
      match first state with
      | .ok value middle => next value middle
      | .error error middle => .error error middle := by
  simp only [bind, EStateM.bind]
  cases first state <;> rfl

theorem bind_eq_ok {first : EStateM ε σ α} {next : α → EStateM ε σ β} {result : β}
    {state final : σ} :
    (first >>= next) state = .ok result final ↔
      ∃ value middle, first state = .ok value middle ∧ next value middle = .ok result final := by
  rw [bind_apply]
  cases first state with
  | ok value middle =>
    constructor
    · intro rest
      exact ⟨value, middle, rfl, rest⟩
    · rintro ⟨_, _, same, rest⟩
      cases same
      exact rest
  | error error middle =>
    constructor
    · intro failed
      cases failed
    · rintro ⟨_, _, failed, _⟩
      cases failed

theorem bind_eq_error {first : EStateM ε σ α} {next : α → EStateM ε σ β} {error : ε}
    {state final : σ} :
    (first >>= next) state = .error error final ↔
      first state = .error error final ∨
        ∃ value middle, first state = .ok value middle ∧
          next value middle = .error error final := by
  rw [bind_apply]
  cases first state with
  | ok value middle =>
    constructor
    · intro rest
      exact .inr ⟨value, middle, rfl, rest⟩
    · rintro (failed | ⟨_, _, same, rest⟩)
      · cases failed
      · cases same
        exact rest
  | error early middle =>
    constructor
    · intro failed
      cases failed
      exact .inl rfl
    · rintro (failed | ⟨_, _, same, _⟩)
      · cases failed
        rfl
      · cases same

end LineScript
