/- Unit: LoginHelper/Foundation/Loops
   layer: library
   digest: Computations that return, and loops that leave because a measure runs out. -/

import LoginHelper.Foundation.Execution

set_option autoImplicit false
set_option relaxedAutoImplicit false

namespace LoginHelper.Foundation.Loops

open LoginHelper.Foundation.Execution

variable {ε φ σ ς α β : Type}

/-- The computation returns, and what it returns and leaves meets the condition. -/
def Returns (x : Exec ε φ σ α) (s : σ) (post : α → σ → Prop) : Prop :=
  ∃ a t, x.run s = .done a t ∧ post a t

theorem returns_pure {a : α} {s : σ} {post : α → σ → Prop} (h : post a s) :
    Returns (pure a : Exec ε φ σ α) s post := ⟨a, s, rfl, h⟩

theorem Returns.bind {x : Exec ε φ σ α} {f : α → Exec ε φ σ β} {s : σ} {mid : α → σ → Prop}
    {post : β → σ → Prop} (first : Returns x s mid)
    (next : ∀ a t, mid a t → Returns (f a) t post) : Returns (x >>= f) s post := by
  obtain ⟨a, t, run, h⟩ := first
  obtain ⟨b, u, run', h'⟩ := next a t h
  refine ⟨b, u, ?_, h'⟩
  rw [bind_run, run, Outcome.andThen_done, run']

theorem Returns.mono {x : Exec ε φ σ α} {s : σ} {post post' : α → σ → Prop}
    (h : Returns x s post) (weaker : ∀ a t, post a t → post' a t) : Returns x s post' := by
  obtain ⟨a, t, run, holds⟩ := h
  exact ⟨a, t, run, weaker a t holds⟩

theorem returns_bind_of_run {x : Exec ε φ σ α} {f : α → Exec ε φ σ β} {s t : σ} {a : α}
    {post : β → σ → Prop} (run : x.run s = .done a t) (next : Returns (f a) t post) :
    Returns (x >>= f) s post := by
  obtain ⟨b, u, run', h⟩ := next
  exact ⟨b, u, by rw [bind_run, run, Outcome.andThen_done, run'], h⟩

/-- What a round of a loop comes to: another one, or the end. -/
inductive Round (ς α : Type)
  | again (locals : ς)
  | leave (value : α)

/-- A loop over its local variables. `endless` is the fault of a loop that is stopped
before it has left. -/
def loop (endless : φ) (body : ς → Exec ε φ σ (Round ς α)) : Nat → ς → Exec ε φ σ α
  | 0, _ => goUndefined endless
  | fuel + 1, s =>
    body s >>= fun
      | .again s' => loop endless body fuel s'
      | .leave a => pure a

/-- The condition on what a round comes to: the invariant and a smaller measure, or the
postcondition. -/
def RoundPost (inv : ς → σ → Prop) (measure : ς → Nat) (post : α → σ → Prop) (s : ς) :
    Round ς α → σ → Prop
  | .again s', t => inv s' t ∧ measure s' < measure s
  | .leave a, t => post a t

/-- A loop whose rounds keep an invariant and lower a measure leaves after at most as many
rounds as the measure says, with the postcondition. -/
theorem loop_returns (endless : φ) {body : ς → Exec ε φ σ (Round ς α)} (inv : ς → σ → Prop)
    (measure : ς → Nat) (post : α → σ → Prop)
    (round : ∀ s t, inv s t → Returns (body s) t (RoundPost inv measure post s))
    {fuel : Nat} {s : ς} {t : σ} (enough : measure s < fuel) (start : inv s t) :
    Returns (loop endless body fuel s) t post := by
  induction fuel generalizing s t with
  | zero => omega
  | succ fuel ih =>
    apply (round s t start).bind
    intro result u holds
    cases result with
    | again s' =>
      obtain ⟨kept, smaller⟩ := holds
      exact ih (by omega) kept
    | leave a => exact returns_pure holds

theorem foldlM_range {f : σ → Nat → Option σ} (inv : Nat → σ → Prop) {n : Nat} {s : σ}
    (start : inv 0 s) (round : ∀ i < n, ∀ t, inv i t → ∃ t', f t i = some t' ∧ inv (i + 1) t') :
    ∃ t, (List.range n).foldlM f s = some t ∧ inv n t := by
  induction n with
  | zero => exact ⟨s, rfl, start⟩
  | succ n ih =>
    obtain ⟨t, run, holds⟩ := ih fun i below => round i (Nat.lt_succ_of_lt below)
    obtain ⟨t', last, kept⟩ := round n (Nat.lt_succ_self n) t holds
    refine ⟨t', ?_, kept⟩
    rw [List.range_succ, List.foldlM_append, run]
    simp [last]

end LoginHelper.Foundation.Loops
