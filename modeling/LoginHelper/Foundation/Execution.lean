/- Unit: LoginHelper/Foundation/Execution
   layer: library
   digest: State passing computations that return, throw with their state kept, or go undefined. -/

import Mathlib.Logic.Basic

set_option autoImplicit false
set_option relaxedAutoImplicit false

namespace LoginHelper.Foundation.Execution

/-- The three ways a computation over a global state ends. An exception keeps
every assignment made before it; nothing is known after a fault. -/
inductive Outcome (ε φ σ α : Type) where
  | done (value : α) (state : σ)
  | threw (exception : ε) (state : σ)
  | undefined (fault : φ)

variable {ε φ σ α β : Type}

def Outcome.andThen : Outcome ε φ σ α → (α → σ → Outcome ε φ σ β) → Outcome ε φ σ β
  | .done a s, f => f a s
  | .threw e s, _ => .threw e s
  | .undefined u, _ => .undefined u

@[simp] theorem Outcome.andThen_done (a : α) (s : σ) (f : α → σ → Outcome ε φ σ β) :
    (Outcome.done a s).andThen f = f a s := rfl
@[simp] theorem Outcome.andThen_threw (e : ε) (s : σ) (f : α → σ → Outcome ε φ σ β) :
    (Outcome.threw e s).andThen f = .threw e s := rfl

def Outcome.state? : Outcome ε φ σ α → Option σ
  | .done _ s | .threw _ s => some s
  | .undefined _ => none

theorem Outcome.andThen_eq_done {x : Outcome ε φ σ α} {f : α → σ → Outcome ε φ σ β} {b : β} {u : σ}
    (h : x.andThen f = .done b u) : ∃ a t, x = .done a t ∧ f a t = .done b u := by
  cases x with
  | done a t => exact ⟨a, t, rfl, h⟩
  | threw e t => cases h
  | undefined v => cases h

/-- A property of the outcome that any fault satisfies: `value` of what is
returned, `thrown` of the state an exception leaves. -/
def Outcome.Yields (value : α → σ → Prop) (thrown : σ → Prop) : Outcome ε φ σ α → Prop
  | .done a s => value a s
  | .threw _ s => thrown s
  | .undefined _ => True

theorem Outcome.Yields.state {R : σ → Prop} {x : Outcome ε φ σ α}
    (h : x.Yields (fun _ s => R s) R) {s : σ} (known : x.state? = some s) : R s := by
  cases x with
  | done a t => cases known; exact h
  | threw e t => cases known; exact h
  | undefined u => cases known

theorem Outcome.Yields.mono {value value' : α → σ → Prop} {thrown thrown' : σ → Prop}
    {x : Outcome ε φ σ α} (h : x.Yields value thrown) (returned : ∀ a s, value a s → value' a s)
    (caught : ∀ s, thrown s → thrown' s) : x.Yields value' thrown' := by
  cases x with
  | done a s => exact returned a s h
  | threw e s => exact caught s h
  | undefined u => exact trivial

theorem Outcome.Yields.andThen {value : α → σ → Prop} {value' : β → σ → Prop}
    {thrown thrown' : σ → Prop} {x : Outcome ε φ σ α} {f : α → σ → Outcome ε φ σ β}
    (h : x.Yields value thrown) (next : ∀ a s, value a s → (f a s).Yields value' thrown')
    (caught : ∀ s, thrown s → thrown' s) : (x.andThen f).Yields value' thrown' := by
  cases x with
  | done a s => exact next a s h
  | threw e s => exact caught s h
  | undefined u => exact trivial

/-- A computation that reads and writes the globals `σ` and may throw `ε`. -/
structure Exec (ε φ σ α : Type) where
  run : σ → Outcome ε φ σ α

instance : Monad (Exec ε φ σ) where
  pure a := ⟨fun s => .done a s⟩
  bind x f := ⟨fun s => (x.run s).andThen fun a s => (f a).run s⟩

def readState : Exec ε φ σ σ := ⟨fun s => .done s s⟩

def modifyState (f : σ → σ) : Exec ε φ σ Unit := ⟨fun s => .done () (f s)⟩

def raise (e : ε) : Exec ε φ σ α := ⟨fun s => .threw e s⟩

def goUndefined (u : φ) : Exec ε φ σ α := ⟨fun _ => .undefined u⟩

@[simp] theorem pure_run (a : α) (s : σ) : (pure a : Exec ε φ σ α).run s = .done a s := rfl
@[simp] theorem bind_run (x : Exec ε φ σ α) (f : α → Exec ε φ σ β) (s : σ) :
    (x >>= f).run s = (x.run s).andThen fun a s => (f a).run s := rfl
@[simp] theorem readState_run (s : σ) : (readState : Exec ε φ σ σ).run s = .done s s := rfl
@[simp] theorem modifyState_run (f : σ → σ) (s : σ) :
    (modifyState f : Exec ε φ σ Unit).run s = .done () (f s) := rfl
@[simp] theorem raise_run (e : ε) (s : σ) : (raise e : Exec ε φ σ α).run s = .threw e s := rfl

@[simp] theorem ite_run (p : Prop) [Decidable p] (x y : Exec ε φ σ α) (s : σ) :
    (if p then x else y).run s = if p then x.run s else y.run s := by
  split <;> rfl

def definedOr (u : φ) (x : Option α) : Exec ε φ σ α :=
  match x with
  | some a => pure a
  | none => goUndefined u

@[simp] theorem definedOr_some (u : φ) (a : α) :
    (definedOr u (some a) : Exec ε φ σ α) = pure a := rfl

def returnedOr (x : Except ε α) : Exec ε φ σ α :=
  match x with
  | .ok a => pure a
  | .error e => raise e

@[simp] theorem returnedOr_ok (a : α) : (returnedOr (.ok a) : Exec ε φ σ α) = pure a := rfl
@[simp] theorem returnedOr_error (e : ε) :
    (returnedOr (.error e : Except ε α) : Exec ε φ σ α) = raise e := rfl

/-- `for (i : indices) body(i)`. -/
def forEach {ι : Type} (body : ι → Exec ε φ σ Unit) : List ι → Exec ε φ σ Unit
  | [] => pure ()
  | i :: rest => body i >>= fun _ => forEach body rest

/-- A relation that holds of doing nothing and of one thing after the other. -/
structure IsFrame (R : σ → σ → Prop) : Prop where
  refl : ∀ s, R s s
  trans : ∀ s t u, R s t → R t u → R s u

def Exec.Keeps (R : σ → σ → Prop) (x : Exec ε φ σ α) : Prop :=
  ∀ s, (x.run s).Yields (fun _ t => R s t) (fun t => R s t)

section Frames

variable {R : σ → σ → Prop} (frame : IsFrame R)

include frame

theorem keeps_pure (a : α) : (pure a : Exec ε φ σ α).Keeps R := frame.refl

theorem keeps_readState : (readState : Exec ε φ σ σ).Keeps R := frame.refl

theorem keeps_raise (e : ε) : (raise e : Exec ε φ σ α).Keeps R := frame.refl

theorem keeps_bind {x : Exec ε φ σ α} {f : α → Exec ε φ σ β} (first : x.Keeps R)
    (next : ∀ a, (f a).Keeps R) : (x >>= f).Keeps R := by
  intro s
  have start := first s
  rw [bind_run]
  cases hx : x.run s with
  | done a t =>
    rw [hx] at start
    have rest := next a t
    rw [Outcome.andThen_done]
    cases hf : (f a).run t with
    | done b u => rw [hf] at rest; exact frame.trans s t u start rest
    | threw e u => rw [hf] at rest; exact frame.trans s t u start rest
    | undefined u => exact trivial
  | threw e t => rw [hx] at start; exact start
  | undefined u => exact trivial

theorem keeps_definedOr (u : φ) (x : Option α) : (definedOr u x : Exec ε φ σ α).Keeps R := by
  cases x with
  | none => exact fun _ => trivial
  | some a => exact keeps_pure frame a

theorem keeps_returnedOr (x : Except ε α) : (returnedOr x : Exec ε φ σ α).Keeps R := by
  cases x with
  | error e => exact keeps_raise frame e
  | ok a => exact keeps_pure frame a

theorem keeps_forEach {ι : Type} {body : ι → Exec ε φ σ Unit} (each : ∀ i, (body i).Keeps R)
    (l : List ι) : (forEach body l).Keeps R := by
  induction l with
  | nil => exact keeps_pure frame ()
  | cons i l ih => exact keeps_bind frame (each i) fun _ => ih

end Frames

theorem keeps_ite {R : σ → σ → Prop} (p : Prop) [Decidable p] {x y : Exec ε φ σ α}
    (hx : x.Keeps R) (hy : y.Keeps R) : (if p then x else y).Keeps R := by
  split
  · exact hx
  · exact hy

theorem Outcome.andThen_eq_threw {x : Outcome ε φ σ α} {f : α → σ → Outcome ε φ σ β} {e : ε} {u : σ}
    (h : x.andThen f = .threw e u) : x = .threw e u ∨ ∃ a t, x = .done a t ∧ f a t = .threw e u := by
  cases x with
  | done a t => exact .inr ⟨a, t, rfl, h⟩
  | threw e' t =>
    cases h
    exact .inl rfl
  | undefined v => cases h

def Exec.Throws (T : σ → ε → σ → Prop) (x : Exec ε φ σ α) : Prop :=
  ∀ s e t, x.run s = .threw e t → T s e t

section Exceptions

variable {T : σ → ε → σ → Prop}

theorem throws_pure (a : α) : (pure a : Exec ε φ σ α).Throws T := nofun

theorem throws_readState : (readState : Exec ε φ σ σ).Throws T := nofun

theorem throws_modifyState (f : σ → σ) : (modifyState f : Exec ε φ σ Unit).Throws T := nofun

theorem throws_definedOr (u : φ) (x : Option α) : (definedOr u x : Exec ε φ σ α).Throws T := by
  cases x with
  | none => exact nofun
  | some a => exact throws_pure a

theorem throws_returnedOr {x : Except ε α} (thrown : ∀ s e, x = .error e → T s e s) :
    (returnedOr x : Exec ε φ σ α).Throws T := by
  cases x with
  | ok a => exact throws_pure a
  | error e =>
    intro s e' t run
    cases run
    exact thrown s e rfl

/-- The rule for one thing after the other: what is thrown behind the first part stands in
the relation also to the state before it. -/
theorem throws_bind {R : σ → σ → Prop} {x : Exec ε φ σ α} {f : α → Exec ε φ σ β}
    (back : ∀ s t e u, R s t → T t e u → T s e u) (kept : x.Keeps R) (first : x.Throws T)
    (next : ∀ a, (f a).Throws T) : (x >>= f).Throws T := by
  intro s e u run
  rcases Outcome.andThen_eq_threw run with early | ⟨a, t, reached, late⟩
  · exact first s e u early
  · have here := kept s
    rw [reached] at here
    exact back s t e u here (next a t e u late)

theorem throws_ite (p : Prop) [Decidable p] {x y : Exec ε φ σ α} (hx : x.Throws T)
    (hy : y.Throws T) : (if p then x else y).Throws T := by
  split
  · exact hx
  · exact hy

abbrev Exec.Quiet (x : Exec ε φ σ α) : Prop := x.Throws fun _ _ _ => False

theorem Exec.Quiet.throws {x : Exec ε φ σ α} (quiet : x.Quiet) : x.Throws T :=
  fun s e t run => (quiet s e t run).elim

theorem quiet_bind {x : Exec ε φ σ α} {f : α → Exec ε φ σ β} (first : x.Quiet)
    (next : ∀ a, (f a).Quiet) : (x >>= f).Quiet := by
  intro s e u run
  rcases Outcome.andThen_eq_threw run with early | ⟨a, t, -, late⟩
  · exact first s e u early
  · exact next a t e u late

theorem quiet_forEach {ι : Type} {body : ι → Exec ε φ σ Unit} (each : ∀ i, (body i).Quiet)
    (l : List ι) : (forEach body l).Quiet := by
  induction l with
  | nil => exact throws_pure ()
  | cons i l ih => exact quiet_bind (each i) fun _ => ih

end Exceptions

theorem Outcome.andThen_eq_undefined {x : Outcome ε φ σ α} {f : α → σ → Outcome ε φ σ β} {u : φ} :
    x.andThen f = .undefined u ↔
      x = .undefined u ∨ ∃ a t, x = .done a t ∧ f a t = .undefined u := by
  constructor
  · intro fault
    cases x with
    | done a t => exact .inr ⟨a, t, rfl, fault⟩
    | threw e t => cases fault
    | undefined v =>
      cases fault
      exact .inl rfl
  · rintro (rfl | ⟨a, t, rfl, later⟩)
    · rfl
    · exact later

end LoginHelper.Foundation.Execution
