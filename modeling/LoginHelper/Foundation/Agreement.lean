/- Unit: LoginHelper/Foundation/Agreement
   layer: library
   digest: Lists compared from the front, an element or a stretch at a time. -/

import Mathlib.Data.List.Forall2

set_option autoImplicit false
set_option relaxedAutoImplicit false

namespace LoginHelper.Foundation.Agreement

variable {α β : Type} {R : α → β → Prop} {xs : List α} {ys : List β} {p n : Nat}

/-- Below position `p` the elements at equal positions are related. -/
def AgreeBelow (R : α → β → Prop) (xs : List α) (ys : List β) (p : Nat) : Prop :=
  ∀ i a b, i < p → xs[i]? = some a → ys[i]? = some b → R a b

namespace AgreeBelow

theorem zero : AgreeBelow R xs ys 0 := by
  intro i a b before
  exact absurd before (Nat.not_lt_zero i)

theorem mono {R' : α → β → Prop} (h : AgreeBelow R xs ys p) (weaker : ∀ a b, R a b → R' a b) :
    AgreeBelow R' xs ys p := by
  intro i a b before ha hb
  exact weaker a b (h i a b before ha hb)

theorem succ {x : α} {y : β} (h : AgreeBelow R xs ys p) (hx : xs[p]? = some x)
    (hy : ys[p]? = some y) (related : R x y) : AgreeBelow R xs ys (p + 1) := by
  intro i a b before ha hb
  rcases Nat.lt_succ_iff_lt_or_eq.mp before with earlier | rfl
  · exact h i a b earlier ha hb
  · rw [hx] at ha
    rw [hy] at hb
    cases ha
    cases hb
    exact related

theorem chunk {ys : List α} (h : AgreeBelow Eq xs ys p)
    (same : (xs.drop p).take n = (ys.drop p).take n) : AgreeBelow Eq xs ys (p + n) := by
  intro i a b before ha hb
  rcases Nat.lt_or_ge i p with earlier | later
  · exact h i a b earlier ha hb
  · obtain ⟨j, rfl⟩ := Nat.exists_eq_add_of_le later
    have inside : j < n := by omega
    have at_j := congrArg (·[j]?) same
    simp only [List.getElem?_take_of_lt inside, List.getElem?_drop, ha, hb] at at_j
    exact Option.some.inj at_j

theorem forall₂_iff (lengths : xs.length = ys.length) :
    AgreeBelow R xs ys xs.length ↔ List.Forall₂ R xs ys := by
  rw [List.forall₂_iff_get]
  constructor
  · intro h
    refine ⟨lengths, ?_⟩
    intro i hx hy
    exact h i _ _ hx (List.getElem?_eq_getElem hx) (List.getElem?_eq_getElem hy)
  · intro related i a b before ha hb
    obtain ⟨hx, rfl⟩ := List.getElem?_eq_some_iff.mp ha
    obtain ⟨hy, rfl⟩ := List.getElem?_eq_some_iff.mp hb
    exact related.2 i hx hy

end AgreeBelow

end LoginHelper.Foundation.Agreement
