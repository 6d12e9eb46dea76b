/- Unit: LoginHelper/Foundation/SideBySide
   layer: library
   digest: Two computations, and two runs of a machine, that do the same on related states. -/

import LoginHelper.Foundation.Execution
import LoginHelper.Foundation.Runs
import Mathlib.Data.List.Forall2

set_option autoImplicit false
set_option relaxedAutoImplicit false

namespace LoginHelper.Foundation.SideBySide

open LoginHelper.Foundation.Execution LoginHelper.Foundation.Runs

variable {ε φ σ α β γ δ : Type}

/-- Both end in the same way, with related values and related states. -/
inductive SameEnding (V : α → β → Prop) (R : σ → σ → Prop) :
    Outcome ε φ σ α → Outcome ε φ σ β → Prop
  | done {a : α} {b : β} {s t : σ} (values : V a b) (states : R s t) :
      SameEnding V R (.done a s) (.done b t)
  | threw (e : ε) {s t : σ} (states : R s t) : SameEnding V R (.threw e s) (.threw e t)
  | undefined (u : φ) : SameEnding V R (.undefined u) (.undefined u)

def Both (R : σ → σ → Prop) (V : α → β → Prop) (x : Exec ε φ σ α) (y : Exec ε φ σ β) : Prop :=
  ∀ s t, R s t → SameEnding V R (x.run s) (y.run t)

section Rules

variable {R : σ → σ → Prop} {V : α → β → Prop} {W : γ → δ → Prop}

theorem both_pure {a : α} {b : β} (values : V a b) :
    Both R V (pure a : Exec ε φ σ α) (pure b) :=
  fun _ _ states => .done values states

theorem SameEnding.andThen {x : Outcome ε φ σ α} {y : Outcome ε φ σ β}
    {f : α → σ → Outcome ε φ σ γ} {g : β → σ → Outcome ε φ σ δ} (first : SameEnding V R x y)
    (next : ∀ a b s t, V a b → R s t → SameEnding W R (f a s) (g b t)) :
    SameEnding W R (x.andThen f) (y.andThen g) := by
  cases first with
  | done values states => exact next _ _ _ _ values states
  | threw e states => exact .threw e states
  | undefined u => exact .undefined u

theorem both_bind {x : Exec ε φ σ α} {y : Exec ε φ σ β} {f : α → Exec ε φ σ γ}
    {g : β → Exec ε φ σ δ} (first : Both R V x y)
    (next : ∀ a b, V a b → Both R W (f a) (g b)) : Both R W (x >>= f) (y >>= g) := by
  intro s t states
  exact (first s t states).andThen fun a b s' t' values states' => next a b values s' t' states'

theorem both_readState {f g : σ → Exec ε φ σ α} {V : α → α → Prop}
    (next : ∀ s t, R s t → SameEnding V R ((f s).run s) ((g t).run t)) :
    Both R V (readState >>= f) (readState >>= g) := by
  intro s t states
  rw [bind_run, bind_run, readState_run, readState_run, Outcome.andThen_done, Outcome.andThen_done]
  exact next s t states

theorem both_modifyState {f g : σ → σ} (kept : ∀ s t, R s t → R (f s) (g t)) :
    Both R Eq (modifyState f : Exec ε φ σ Unit) (modifyState g) :=
  fun s t states => .done rfl (kept s t states)

theorem both_ite (p : Prop) [Decidable p] {x x' : Exec ε φ σ α} {y y' : Exec ε φ σ β}
    (yes : Both R V x y) (no : Both R V x' y') :
    Both R V (if p then x else x') (if p then y else y') := by
  split
  · exact yes
  · exact no

theorem both_goUndefined (u : φ) : Both R V (goUndefined u) (goUndefined u : Exec ε φ σ β) :=
  fun _ _ _ => .undefined u

theorem both_returnedOr (x : Except ε α) :
    Both R Eq (returnedOr x : Exec ε φ σ α) (returnedOr x) := by
  cases x with
  | error e => exact fun _ _ states => .threw e states
  | ok a => exact both_pure rfl

end Rules

/-- Steps that keep two states related keep them related along whole runs. -/
theorem both_run {κ : Type} {step : σ → κ → σ} {R : σ → σ → Prop} {A : κ → κ → Prop}
    (stepped : ∀ s t a b, R s t → A a b → R (step s a) (step t b)) {s t : σ} (start : R s t)
    {actions actions' : List κ} (same : List.Forall₂ A actions actions') :
    R (run step s actions) (run step t actions') := by
  induction same generalizing s t with
  | nil => exact start
  | cons first _ ih => exact ih (stepped _ _ _ _ start first)

end LoginHelper.Foundation.SideBySide
