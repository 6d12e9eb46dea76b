/- Unit: LoginHelper/Foundation/LeftmostMatch
   layer: library
   digest: Leftmost position of a pattern under an arbitrary element comparison. -/

import Mathlib.Data.List.Basic

set_option autoImplicit false
set_option relaxedAutoImplicit false

namespace LoginHelper.Foundation.LeftmostMatch

/-- A result is leftmost for `P` when it is the least index with `P`, or when
there is none and it says so. -/
def Leftmost (P : Nat → Prop) : Option Nat → Prop
  | some i => P i ∧ ∀ j < i, ¬ P j
  | none => ∀ j, ¬ P j

theorem Leftmost.congr {P Q : Nat → Prop} (same : ∀ i, P i ↔ Q i) (r : Option Nat) :
    Leftmost P r ↔ Leftmost Q r := by
  cases r <;> simp [Leftmost, same]

variable {α β : Type} (eq : α → β → Bool)

/-- The whole pattern corresponds to the data from index `i` on. -/
def MatchesAt (data : List α) (pattern : List β) (i : Nat) : Prop :=
  i + pattern.length ≤ data.length ∧
    ∀ k a b, data[i + k]? = some a → pattern[k]? = some b → eq a b = true

/-- The pattern corresponds to the front of the data. -/
def fits : List α → List β → Bool
  | _, [] => true
  | [], _ :: _ => false
  | a :: data, b :: pattern => eq a b && fits data pattern

def search : List α → List β → Option Nat
  | [], pattern => if fits eq [] pattern then some 0 else none
  | a :: data, pattern =>
      if fits eq (a :: data) pattern then some 0 else (search data pattern).map (· + 1)

theorem fits_iff (data : List α) (pattern : List β) :
    fits eq data pattern = true ↔ MatchesAt eq data pattern 0 := by
  induction pattern generalizing data with
  | nil => simp [fits, MatchesAt]
  | cons b pattern ih =>
    cases data with
    | nil => simp [fits, MatchesAt]
    | cons a data =>
      simp only [fits, Bool.and_eq_true, ih, MatchesAt, List.length_cons, Nat.zero_add]
      constructor
      · rintro ⟨head, room, tail⟩
        refine ⟨by omega, ?_⟩
        intro k x y hx hy
        cases k with
        | zero => simp_all
        | succ k => exact tail k x y (by simpa using hx) (by simpa using hy)
      · rintro ⟨room, all⟩
        refine ⟨all 0 a b rfl rfl, by omega, ?_⟩
        intro k x y hx hy
        exact all (k + 1) x y (by simpa using hx) (by simpa using hy)

theorem matchesAt_cons_succ (a : α) (data : List α) (pattern : List β) (i : Nat) :
    MatchesAt eq (a :: data) pattern (i + 1) ↔ MatchesAt eq data pattern i := by
  simp only [MatchesAt, List.length_cons, show ∀ k, i + 1 + k = i + k + 1 by omega,
    List.getElem?_cons_succ]
  exact and_congr_left' (by omega)

/-- The search tries positions from the left, so what it returns is leftmost. -/
theorem search_leftmost (data : List α) (pattern : List β) :
    Leftmost (MatchesAt eq data pattern) (search eq data pattern) := by
  induction data with
  | nil =>
    rw [search]
    split
    · rename_i front
      exact ⟨(fits_iff eq [] pattern).mp front, by simp⟩
    · rename_i front
      intro j hj
      have room := hj.1
      rw [List.length_nil] at room
      have hp : pattern = [] := List.length_eq_zero_iff.mp (by omega)
      exact front (by simp [hp, fits])
  | cons a data ih =>
    rw [search]
    split
    · rename_i front
      exact ⟨(fits_iff eq _ pattern).mp front, by simp⟩
    · rename_i front
      have notFirst : ¬ MatchesAt eq (a :: data) pattern 0 :=
        fun h => front ((fits_iff eq _ pattern).mpr h)
      cases found : search eq data pattern with
      | none =>
        rw [found] at ih
        intro j hj
        cases j with
        | zero => exact notFirst hj
        | succ j => exact ih j ((matchesAt_cons_succ eq a data pattern j).mp hj)
      | some i =>
        rw [found] at ih
        refine ⟨(matchesAt_cons_succ eq a data pattern i).mpr ih.1, ?_⟩
        intro j hji hj
        cases j with
        | zero => exact notFirst hj
        | succ j =>
          have hlt : j + 1 < i + 1 := hji
          exact ih.2 j (by omega) ((matchesAt_cons_succ eq a data pattern j).mp hj)

end LoginHelper.Foundation.LeftmostMatch
