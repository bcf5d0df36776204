import Mathlib

/-!
# Machines

A machine is a partial step function: an action that is not possible in a state has
no successor.  A run takes one action after the other.
-/

namespace DfeClickhouse.Library.Machine

variable {σ α : Type} {step : σ → α → Option σ}

/-- The state after a list of actions, all of which are possible. -/
def run (step : σ → α → Option σ) : σ → List α → Option σ
  | state, [] => some state
  | state, action :: actions => do
      let next ← step state action
      run step next actions

theorem run_cons_iff {state final : σ} {action : α} {actions : List α} :
    run step state (action :: actions) = some final ↔
      ∃ next, step state action = some next ∧ run step next actions = some final := by
  rw [run]
  exact Option.bind_eq_some_iff

/-- What every step with one of the actions keeps, a run of them keeps. -/
theorem run_keeps_of_mem {holds : σ → Prop} {actions : List α}
    (keeps : ∀ state action next, action ∈ actions → holds state →
      step state action = some next → holds next)
    {state final : σ} (start : holds state) (runs : run step state actions = some final) :
    holds final := by
  induction actions generalizing state with
  | nil =>
      cases runs
      exact start
  | cons action actions ih =>
      obtain ⟨next, stepped, runs⟩ := run_cons_iff.mp runs
      apply ih ?_ (keeps state action next List.mem_cons_self start stepped) runs
      intro state action next member
      exact keeps state action next (List.mem_cons_of_mem _ member)

/-- What every step keeps, every run keeps. -/
theorem run_keeps {holds : σ → Prop}
    (keeps : ∀ state action next, holds state → step state action = some next → holds next)
    {state final : σ} {actions : List α} (start : holds state)
    (runs : run step state actions = some final) : holds final := by
  apply run_keeps_of_mem ?_ start runs
  intro state action next _
  exact keeps state action next

end DfeClickhouse.Library.Machine
