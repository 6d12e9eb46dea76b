/- Unit: LoginHelper/Foundation/RegexPlaces
   layer: library
   digest: What an expression can take at a place, rule by rule, and the first place a search finds. -/

import LoginHelper.Foundation.OrderedRegex

set_option autoImplicit false
set_option relaxedAutoImplicit false

namespace LoginHelper.Foundation.RegexPlaces

open LoginHelper.Foundation.OrderedRegex

variable {α : Type}

def Takes (r : Regex α) (text rest : List α) (c c' : Captures α) : Prop :=
  (rest, c') ∈ ways r (text ++ rest) c

private theorem repeatGreedy_suffix {once : List α → Captures α → List (Success α)}
    (suffix : ∀ s c, ∀ x ∈ once s c, x.1 <:+ s) (fuel : Nat) (s : List α) (c : Captures α) :
    ∀ x ∈ repeatGreedy once fuel s c, x.1 <:+ s := by
  induction fuel generalizing s c with
  | zero =>
    intro x member
    obtain rfl := List.mem_singleton.mp member
    exact List.suffix_rfl
  | succ fuel ih =>
    intro x member
    rcases List.mem_append.mp member with again | stop
    · obtain ⟨y, round, further⟩ := List.mem_flatMap.mp again
      exact (ih y.1 y.2 x further).trans (suffix s c y (List.mem_of_mem_filter round))
    · obtain rfl := List.mem_singleton.mp stop
      exact List.suffix_rfl

theorem ways_suffix (r : Regex α) (s : List α) (c : Captures α) :
    ∀ x ∈ ways r s c, x.1 <:+ s := by
  induction r generalizing s c with
  | epsilon =>
    intro x member
    obtain rfl := List.mem_singleton.mp member
    exact List.suffix_rfl
  | char accepts =>
    intro x member
    cases s with
    | nil => cases member
    | cons a s =>
      rw [ways] at member
      split at member
      · obtain rfl := List.mem_singleton.mp member
        exact List.suffix_cons a s
      · cases member
  | seq r q hr hq =>
    intro x member
    obtain ⟨y, first, second⟩ := List.mem_flatMap.mp member
    exact (hq y.1 y.2 x second).trans (hr s c y first)
  | alt r q hr hq =>
    intro x member
    rcases List.mem_append.mp member with left | right
    · exact hr s c x left
    · exact hq s c x right
  | star body ih => exact repeatGreedy_suffix ih _ s c
  | group index body ih =>
    intro x member
    obtain ⟨y, inner, rfl⟩ := List.mem_map.mp member
    exact ih s c y inner
  | endOfInput =>
    intro x member
    rw [ways] at member
    split at member
    · obtain rfl := List.mem_singleton.mp member
      exact List.suffix_rfl
    · cases member

theorem mem_ways_iff {r : Regex α} {s rest : List α} {c c' : Captures α} :
    (rest, c') ∈ ways r s c ↔ ∃ text, s = text ++ rest ∧ Takes r text rest c c' := by
  constructor
  · intro way
    obtain ⟨text, rfl⟩ := ways_suffix r s c _ way
    exact ⟨text, rfl, way⟩
  · rintro ⟨text, rfl, takes⟩
    exact takes

section Rules

variable {text rest : List α} {c c' : Captures α}

theorem takes_epsilon : Takes .epsilon text rest c c' ↔ text = [] ∧ c' = c := by
  simp [Takes, ways]

theorem takes_endOfInput : Takes .endOfInput text rest c c' ↔ text = [] ∧ rest = [] ∧ c' = c := by
  rw [Takes, ways]
  cases text with
  | nil => cases rest <;> simp
  | cons a text => simp

theorem takes_char {accepts : α → Bool} :
    Takes (.char accepts) text rest c c' ↔ ∃ a, text = [a] ∧ accepts a = true ∧ c' = c := by
  constructor
  · intro takes
    cases text with
    | nil =>
      cases rest with
      | nil => cases takes
      | cons a rest =>
        rw [Takes, List.nil_append, ways] at takes
        split at takes
        · have same := (Prod.mk.inj (List.mem_singleton.mp takes)).1
          exact absurd same (List.cons_ne_self a rest)
        · cases takes
    | cons a text =>
      rw [Takes, List.cons_append, ways] at takes
      split at takes
      case isTrue accepted =>
        obtain ⟨same, rfl⟩ := Prod.mk.inj (List.mem_singleton.mp takes)
        obtain rfl : text = [] := List.self_eq_append_left.mp same
        exact ⟨a, rfl, accepted, rfl⟩
      case isFalse => cases takes
  · rintro ⟨a, rfl, accepted, rfl⟩
    rw [Takes, List.singleton_append, ways, if_pos accepted]
    exact List.mem_singleton_self _

theorem takes_seq {r q : Regex α} : Takes (.seq r q) text rest c c' ↔
    ∃ first second between, text = first ++ second ∧ Takes r first (second ++ rest) c between ∧
      Takes q second rest between c' := by
  constructor
  · intro takes
    obtain ⟨⟨left, between⟩, first, second⟩ := List.mem_flatMap.mp takes
    obtain ⟨behind, split, taken⟩ := mem_ways_iff.mp second
    obtain rfl : left = behind ++ rest := split
    obtain ⟨front, whole, took⟩ := mem_ways_iff.mp first
    rw [← List.append_assoc] at whole
    exact ⟨front, behind, between, List.append_cancel_right whole, took, taken⟩
  · rintro ⟨first, second, between, rfl, took, taken⟩
    rw [Takes, ways, List.append_assoc]
    exact List.mem_flatMap.mpr ⟨_, took, taken⟩

theorem takes_alt {r q : Regex α} :
    Takes (.alt r q) text rest c c' ↔ Takes r text rest c c' ∨ Takes q text rest c c' :=
  List.mem_append

theorem takes_group {r : Regex α} {index : Nat} : Takes (.group index r) text rest c c' ↔
    ∃ inner, Takes r text rest c inner ∧ c' = (index, text) :: inner := by
  rw [Takes, ways, List.mem_map]
  constructor
  · rintro ⟨⟨left, inner⟩, way, same⟩
    obtain ⟨rfl, rfl⟩ := Prod.mk.inj same
    refine ⟨inner, way, ?_⟩
    rw [List.length_append, Nat.add_sub_cancel, List.take_left]
  · rintro ⟨inner, way, rfl⟩
    refine ⟨_, way, ?_⟩
    rw [List.length_append, Nat.add_sub_cancel, List.take_left]

theorem takes_optional {r : Regex α} : Takes r.optional text rest c c' ↔
    Takes r text rest c c' ∨ text = [] ∧ c' = c := by
  rw [Regex.optional, takes_alt, takes_epsilon]

theorem takes_class {accepts : α → Bool} : Takes (.star (.char accepts)) text rest c c' ↔
    (∀ a ∈ text, accepts a = true) ∧ c' = c := by
  have rounds (fuel : Nat) (enough : text.length ≤ fuel) :
      (rest, c') ∈ repeatGreedy (ways (.char accepts)) fuel (text ++ rest) c ↔
        (∀ a ∈ text, accepts a = true) ∧ c' = c := by
    induction text generalizing fuel with
    | nil =>
      cases fuel with
      | zero => simp [repeatGreedy]
      | succ fuel =>
        rw [List.nil_append, repeatGreedy, List.mem_append, or_iff_right]
        · simp
        · -- what is left after a round is shorter
          intro again
          obtain ⟨y, round, further⟩ := List.mem_flatMap.mp again
          have shorter : y.1.length < rest.length := by simpa using (List.mem_filter.mp round).2
          have left := (repeatGreedy_suffix (ways_suffix _) fuel y.1 y.2 _ further).length_le
          exact absurd left (Nat.not_le.mpr shorter)
    | cons a text ih =>
      cases fuel with
      | zero => cases enough
      | succ fuel =>
        have once : (ways (.char accepts) (a :: (text ++ rest)) c).filter
            (fun x => x.1.length < (a :: (text ++ rest)).length) =
              if accepts a = true then [(text ++ rest, c)] else [] := by
          rw [ways]
          split <;> simp
        have stop : (rest, c') ∉ [(a :: (text ++ rest), c)] := by
          intro member
          have same := congrArg List.length (Prod.mk.inj (List.mem_singleton.mp member)).1
          rw [List.length_cons, List.length_append] at same
          omega
        rw [List.cons_append, repeatGreedy, List.mem_append, or_iff_left stop, once,
          List.forall_mem_cons]
        by_cases accepted : accepts a = true
        · rw [if_pos accepted, List.flatMap_singleton, ih fuel (Nat.le_of_succ_le_succ enough)]
          simp [accepted]
        · simp [accepted]
  exact rounds _ (by rw [List.length_append]; omega)

theorem takes_times_class {accepts : α → Bool} (n : Nat) :
    Takes ((Regex.char accepts).times n) text rest c c' ↔
      text.length = n ∧ (∀ a ∈ text, accepts a = true) ∧ c' = c := by
  induction n generalizing text c with
  | zero =>
    rw [Regex.times, takes_epsilon, List.length_eq_zero_iff]
    constructor
    · rintro ⟨rfl, rfl⟩
      exact ⟨rfl, List.forall_mem_nil _, rfl⟩
    · rintro ⟨rfl, -, rfl⟩
      exact ⟨rfl, rfl⟩
  | succ n ih =>
    rw [Regex.times, takes_seq]
    constructor
    · rintro ⟨first, second, between, rfl, took, taken⟩
      obtain ⟨a, rfl, accepted, rfl⟩ := takes_char.mp took
      obtain ⟨length, all, rfl⟩ := ih.mp taken
      exact ⟨by simp [length], List.forall_mem_cons.mpr ⟨accepted, all⟩, rfl⟩
    · rintro ⟨length, all, rfl⟩
      cases text with
      | nil => cases length
      | cons a text =>
        obtain ⟨accepted, others⟩ := List.forall_mem_cons.mp all
        exact ⟨[a], text, c', rfl, takes_char.mpr ⟨a, rfl, accepted, rfl⟩,
          ih.mpr ⟨Nat.succ.inj length, others, rfl⟩⟩

section Keyed

variable {β : Type} [BEq β] [LawfulBEq β] (key : α → β)

theorem takes_keyed {wanted : List α} : Takes (keyed key wanted) text rest c c' ↔
    text.map key = wanted.map key ∧ c' = c := by
  constructor
  · intro takes
    obtain ⟨typed, split, same⟩ := mem_ways_keyed key takes
    obtain rfl := List.append_cancel_right split
    rw [Takes, ways_keyed key same] at takes
    exact ⟨same, (Prod.mk.inj (List.mem_singleton.mp takes)).2⟩
  · rintro ⟨same, rfl⟩
    rw [Takes, ways_keyed key same]
    exact List.mem_singleton_self _

end Keyed

end Rules

def MatchesFront (r : Regex α) (s : List α) (c c' : Captures α) : Prop :=
  ∃ text rest, s = text ++ rest ∧ Takes r text rest c c'

section Chains

variable {s : List α} {c c' : Captures α}

theorem matchesFront_epsilon : MatchesFront .epsilon s c c' ↔ c' = c := by
  constructor
  · rintro ⟨text, rest, -, takes⟩
    exact (takes_epsilon.mp takes).2
  · rintro rfl
    exact ⟨[], s, rfl, takes_epsilon.mpr ⟨rfl, rfl⟩⟩

theorem matchesFront_seq {r q : Regex α} : MatchesFront (.seq r q) s c c' ↔
    ∃ text rest between, s = text ++ rest ∧ Takes r text rest c between ∧
      MatchesFront q rest between c' := by
  constructor
  · rintro ⟨text, rest, rfl, takes⟩
    obtain ⟨first, second, between, rfl, took, taken⟩ := takes_seq.mp takes
    exact ⟨first, second ++ rest, between, List.append_assoc .., took, second, rest, rfl, taken⟩
  · rintro ⟨first, _, between, rfl, took, second, rest, rfl, taken⟩
    exact ⟨first ++ second, rest, (List.append_assoc ..).symm,
      takes_seq.mpr ⟨first, second, between, rfl, took, taken⟩⟩

theorem matchesFront_iff_mem {r : Regex α} :
    MatchesFront r s c c' ↔ ∃ x ∈ ways r s c, x.2 = c' := by
  constructor
  · rintro ⟨text, rest, rfl, takes⟩
    exact ⟨_, takes, rfl⟩
  · rintro ⟨⟨rest, _⟩, way, rfl⟩
    obtain ⟨text, split, takes⟩ := mem_ways_iff.mp way
    exact ⟨text, rest, split, takes⟩

end Chains

/-- The value can be read at a place of the text, and nothing can at an earlier one. -/
def ReadAtFirst {β : Type} (At : List α → β → Prop) (s : List α) (value : β) : Prop :=
  ∃ k ≤ s.length, At (s.drop k) value ∧ ∀ j < k, ∀ other, ¬ At (s.drop j) other

section First

variable {β : Type} {At : List α → β → Prop}

theorem readAtFirst_nil {value : β} : ReadAtFirst At [] value ↔ At [] value := by
  constructor
  · rintro ⟨k, -, here, -⟩
    rwa [List.drop_nil] at here
  · exact fun here => ⟨0, Nat.le_refl 0, here, fun j earlier => absurd earlier (Nat.not_lt_zero j)⟩

theorem readAtFirst_cons {a : α} {s : List α} {value : β} : ReadAtFirst At (a :: s) value ↔
    At (a :: s) value ∨ (∀ other, ¬ At (a :: s) other) ∧ ReadAtFirst At s value := by
  constructor
  · rintro ⟨k, inside, here, none⟩
    cases k with
    | zero => exact .inl here
    | succ k =>
      refine .inr ⟨none 0 (Nat.succ_pos k), k, Nat.le_of_succ_le_succ inside, here, ?_⟩
      exact fun j earlier => none (j + 1) (Nat.succ_lt_succ earlier)
  · rintro (here | ⟨notHere, k, inside, here, none⟩)
    · exact ⟨0, Nat.zero_le _, here, fun j earlier => absurd earlier (Nat.not_lt_zero j)⟩
    · refine ⟨k + 1, Nat.succ_le_succ inside, here, ?_⟩
      intro j earlier
      cases j with
      | zero => exact notHere
      | succ j => exact none j (Nat.lt_of_succ_lt_succ earlier)

theorem exists_readAtFirst {s : List α} : (∃ value, ReadAtFirst At s value) ↔
    ∃ front back value, s = front ++ back ∧ At back value := by
  constructor
  · rintro ⟨value, k, -, here, -⟩
    exact ⟨s.take k, s.drop k, value, (List.take_append_drop k s).symm, here⟩
  · rintro ⟨front, back, value, rfl, here⟩
    induction front with
    | nil =>
      refine ⟨value, 0, Nat.zero_le _, here, ?_⟩
      exact fun j earlier => absurd earlier (Nat.not_lt_zero j)
    | cons a front ih =>
      by_cases first : ∃ other, At (a :: (front ++ back)) other
      · obtain ⟨other, found⟩ := first
        exact ⟨other, readAtFirst_cons.mpr (.inl found)⟩
      · obtain ⟨other, later⟩ := ih
        exact ⟨other, readAtFirst_cons.mpr (.inr ⟨not_exists.mp first, later⟩)⟩

/-- A search reads off the first place that has a value, if every way to match there agrees on
what the value is. -/
theorem regexSearch_reads {r : Regex α} {read : Captures α → β}
    (places : ∀ s value, At s value ↔ ∃ c, MatchesFront r s [] c ∧ read c = value)
    (unique : ∀ s value other, At s value → At s other → value = other) (s : List α) (value : β) :
    (regexSearch r s).map read = some value ↔ ReadAtFirst At s value := by
  have here (s : List α) {x : Success α} (front : (ways r s []).head? = some x) (value : β) :
      At s value ↔ read x.2 = value := by
    have found : At s (read x.2) :=
      (places s _).mpr ⟨x.2, matchesFront_iff_mem.mpr ⟨x, List.mem_of_mem_head? front, rfl⟩, rfl⟩
    constructor
    · exact fun at_value => unique s _ _ found at_value
    · rintro rfl
      exact found
  have nowhere (s : List α) (front : (ways r s []).head? = none) (value : β) : ¬ At s value := by
    intro at_value
    obtain ⟨c, matched, -⟩ := (places s value).mp at_value
    obtain ⟨x, way, -⟩ := matchesFront_iff_mem.mp matched
    rw [List.head?_eq_none_iff.mp front] at way
    cases way
  induction s with
  | nil =>
    rw [readAtFirst_nil, regexSearch]
    cases front : (ways r [] []).head? with
    | none => exact iff_of_false (Option.some_ne_none value).symm (nowhere [] front value)
    | some x => exact Option.some_inj.trans (here [] front value).symm
  | cons a s ih =>
    rw [readAtFirst_cons, regexSearch]
    cases front : (ways r (a :: s) []).head? with
    | none =>
      rw [or_iff_right (nowhere _ front value), and_iff_right (nowhere _ front)]
      exact ih
    | some x =>
      have first := here _ front
      rw [or_iff_left (fun later => later.1 _ ((first _).mpr rfl))]
      exact Option.some_inj.trans (first value).symm

end First

end LoginHelper.Foundation.RegexPlaces
