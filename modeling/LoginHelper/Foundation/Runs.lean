/- Unit: LoginHelper/Foundation/Runs
   layer: library
   digest: Runs of a deterministic machine, conditions along a run, and properties of its history. -/

import Mathlib.Logic.Basic
import Mathlib.Data.List.Basic

set_option autoImplicit false
set_option relaxedAutoImplicit false

namespace LoginHelper.Foundation.Runs

section Runs

variable {σ α : Type} (step : σ → α → σ)

/-- The state after the actions, taken from the left. -/
def run (s : σ) (actions : List α) : σ := actions.foldl step s

/-- Every action meets the condition in the state it is taken in. -/
def Along (ok : σ → α → Prop) : σ → List α → Prop
  | _, [] => True
  | s, a :: actions => ok s a ∧ Along ok (step s a) actions

@[simp] theorem run_nil (s : σ) : run step s [] = s := rfl
@[simp] theorem run_cons (s : σ) (a : α) (actions : List α) :
    run step s (a :: actions) = run step (step s a) actions := rfl

/-- An invariant that each fit action preserves holds at the end of a fit run. -/
theorem run_invariant {Inv : σ → Prop} {ok : σ → α → Prop}
    (preserved : ∀ s a, Inv s → ok s a → Inv (step s a)) {s : σ} (start : Inv s) {actions : List α}
    (fit : Along step ok s actions) : Inv (run step s actions) := by
  induction actions generalizing s with
  | nil => exact start
  | cons a actions ih => exact ih (preserved s a start fit.1) fit.2

/-- The rule for a run without conditions. -/
theorem run_invariant_always {Inv : σ → Prop} (preserved : ∀ s a, Inv s → Inv (step s a)) {s : σ}
    (start : Inv s) (actions : List α) : Inv (run step s actions) := by
  induction actions generalizing s with
  | nil => exact start
  | cons a actions ih => exact ih (preserved s a start)

end Runs

section Histories

variable {ε : Type}

/-- Every entry of a history, the newest first, stands in the relation to its past. -/
def Throughout (P : ε → List ε → Prop) : List ε → Prop
  | [] => True
  | e :: past => P e past ∧ Throughout P past

end Histories

end LoginHelper.Foundation.Runs
