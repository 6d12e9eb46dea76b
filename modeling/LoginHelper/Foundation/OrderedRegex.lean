/- Unit: LoginHelper/Foundation/OrderedRegex
   layer: library
   digest: Regular expressions with ordered alternatives, greedy repetition and captures. -/

import Mathlib.Data.List.Basic

set_option autoImplicit false
set_option relaxedAutoImplicit false

namespace LoginHelper.Foundation.OrderedRegex

/-- Expressions over an alphabet given by character classes. -/
inductive Regex (α : Type) where
  | epsilon
  | char (accepts : α → Bool)
  | seq (first second : Regex α)
  | alt (preferred other : Regex α)
  | star (body : Regex α)
  | group (index : Nat) (body : Regex α)
  | endOfInput

variable {α : Type}

namespace Regex

/-- A greedy `?`. -/
def optional (body : Regex α) : Regex α := .alt body .epsilon

/-- Exactly `n` repetitions. -/
def times (body : Regex α) : Nat → Regex α
  | 0 => .epsilon
  | n + 1 => .seq body (times body n)

def sequence : List (Regex α) → Regex α
  | [] => .epsilon
  | r :: rs => .seq r (sequence rs)

end Regex

abbrev Captures (α : Type) := List (Nat × List α)

abbrev Success (α : Type) := List α × Captures α

def repeatGreedy (once : List α → Captures α → List (Success α)) :
    Nat → List α → Captures α → List (Success α)
  | 0, s, c => [(s, c)]
  | fuel + 1, s, c =>
      ((once s c).filter (fun x => x.1.length < s.length)).flatMap
        (fun x => repeatGreedy once fuel x.1 x.2) ++ [(s, c)]

def ways : Regex α → List α → Captures α → List (Success α)
  | .epsilon, s, c => [(s, c)]
  | .char _, [], _ => []
  | .char accepts, a :: s, c => if accepts a then [(s, c)] else []
  | .seq first second, s, c => (ways first s c).flatMap fun x => ways second x.1 x.2
  | .alt preferred other, s, c => ways preferred s c ++ ways other s c
  | .star body, s, c => repeatGreedy (ways body) s.length s c
  | .group index body, s, c =>
      (ways body s c).map fun x => (x.1, (index, s.take (s.length - x.1.length)) :: x.2)
  | .endOfInput, s, c => if s.isEmpty then [(s, c)] else []

def regexSearch (r : Regex α) : List α → Option (Captures α)
  | [] => (ways r [] []).head?.map Prod.snd
  | a :: s =>
      match (ways r (a :: s) []).head? with
      | some x => some x.2
      | none => regexSearch r s

/-- `matches[index]` when that group took part in the match. -/
def captured (c : Captures α) (index : Nat) : Option (List α) := c.lookup index

/-- Every group of the expression captures only texts with the property `P`. -/
def GroupsCapture (P : Nat → List α → Prop) : Regex α → Prop
  | .epsilon | .char _ | .endOfInput => True
  | .seq r q | .alt r q => GroupsCapture P r ∧ GroupsCapture P q
  | .star body => GroupsCapture P body
  | .group index body => GroupsCapture P body ∧
      ∀ s c x, x ∈ ways body s c → P index (s.take (s.length - x.1.length))

/-- A property of captures that every new capture of the expression keeps. -/
structure Kept (P : Nat → List α → Prop) (Q : Captures α → Prop) : Prop where
  capture : ∀ index text c, P index text → Q c → Q ((index, text) :: c)

private theorem repeatGreedy_kept {Q : Captures α → Prop}
    {once : List α → Captures α → List (Success α)}
    (step : ∀ s c, Q c → ∀ x ∈ once s c, Q x.2)
    (fuel : Nat) (s : List α) (c : Captures α) (before : Q c) :
    ∀ x ∈ repeatGreedy once fuel s c, Q x.2 := by
  induction fuel generalizing s c with
  | zero =>
    intro x hx
    obtain rfl : x = (s, c) := by simpa [repeatGreedy] using hx
    exact before
  | succ fuel ih =>
    intro x hx
    rcases List.mem_append.mp hx with again | stop
    · obtain ⟨y, hy, hxy⟩ := List.mem_flatMap.mp again
      exact ih y.1 y.2 (step s c before y (List.mem_of_mem_filter hy)) x hxy
    · obtain rfl : x = (s, c) := by simpa using stop
      exact before

/-- The rule for captures: what holds before, and is kept by each capture, holds after. -/
theorem ways_kept {P : Nat → List α → Prop} {Q : Captures α → Prop} (kept : Kept P Q)
    (r : Regex α) (groups : GroupsCapture P r) (s : List α) (c : Captures α) (before : Q c) :
    ∀ x ∈ ways r s c, Q x.2 := by
  induction r generalizing s c with
  | epsilon =>
    intro x hx
    obtain rfl : x = (s, c) := by simpa [ways] using hx
    exact before
  | char accepts =>
    intro x hx
    cases s with
    | nil => simp [ways] at hx
    | cons a s =>
      simp only [ways] at hx
      split at hx
      · obtain rfl : x = (s, c) := by simpa using hx
        exact before
      · simp at hx
  | seq r q hr hq =>
    intro x hx
    obtain ⟨y, hy, hxy⟩ := List.mem_flatMap.mp hx
    exact hq groups.2 y.1 y.2 (hr groups.1 s c before y hy) x hxy
  | alt r q hr hq =>
    intro x hx
    rcases List.mem_append.mp hx with left | right
    · exact hr groups.1 s c before x left
    · exact hq groups.2 s c before x right
  | star body ih =>
    exact repeatGreedy_kept (fun s c before => ih groups s c before) _ s c before
  | group index body ih =>
    intro x hx
    obtain ⟨y, hy, rfl⟩ := List.mem_map.mp hx
    exact kept.capture _ _ _ (groups.2 s c y hy) (ih groups.1 s c before y hy)
  | endOfInput =>
    intro x hx
    simp only [ways] at hx
    split at hx
    · obtain rfl : x = (s, c) := by simpa using hx
      exact before
    · simp at hx

theorem regexSearch_captured {P : Nat → List α → Prop} {r : Regex α}
    (groups : GroupsCapture P r) {s : List α} {c : Captures α} {index : Nat} {text : List α}
    (found : regexSearch r s = some c) (capture : captured c index = some text) :
    P index text := by
  have kept : Kept P fun c : Captures α => ∀ e ∈ c, P e.1 e.2 :=
    ⟨fun index text c new older => by simpa [new] using older⟩
  have every : ∀ e ∈ c, P e.1 e.2 := by
    have none_before : ∀ e ∈ ([] : Captures α), P e.1 e.2 := by simp
    induction s with
    | nil =>
      obtain ⟨x, hx, rfl⟩ := Option.map_eq_some_iff.mp found
      exact ways_kept kept r groups [] [] none_before x (List.mem_of_mem_head? hx)
    | cons a s ih =>
      rw [regexSearch] at found
      cases front : (ways r (a :: s) []).head? with
      | none => rw [front] at found; exact ih found
      | some x =>
        rw [front] at found
        cases found
        exact ways_kept kept r groups (a :: s) [] none_before x (List.mem_of_mem_head? front)
  obtain ⟨l, l', hl, -⟩ := List.lookup_eq_some_iff.mp capture
  exact every (index, text) (by rw [hl]; simp)

def Always (index : Nat) : Regex α → Prop
  | .epsilon | .char _ | .endOfInput | .star _ => False
  | .seq r q => Always index r ∨ Always index q
  | .alt r q => Always index r ∧ Always index q
  | .group i body => i = index ∨ Always index body

private theorem groupsCapture_true (r : Regex α) : GroupsCapture (fun _ _ => True) r := by
  induction r with
  | epsilon => exact trivial
  | char accepts => exact trivial
  | endOfInput => exact trivial
  | seq r q hr hq => exact ⟨hr, hq⟩
  | alt r q hr hq => exact ⟨hr, hq⟩
  | star body ih => exact ih
  | group index body ih => exact ⟨ih, fun _ _ _ _ => trivial⟩

private theorem captured_cons (index i : Nat) (t : List α) (c : Captures α)
    (h : i = index ∨ (captured c index).isSome) : (captured ((i, t) :: c) index).isSome := by
  rw [captured, List.lookup_cons]
  split
  · rfl
  · rename_i other
    rcases h with rfl | older
    · simp at other
    · exact older

theorem ways_keeps (index : Nat) (r : Regex α) (s : List α) (c : Captures α)
    (before : (captured c index).isSome) : ∀ x ∈ ways r s c, (captured x.2 index).isSome :=
  ways_kept ⟨fun i t c _ older => captured_cons index i t c (.inr older)⟩ r
    (groupsCapture_true r) s c before

theorem ways_always {index : Nat} (r : Regex α) (always : Always index r) (s : List α)
    (c : Captures α) : ∀ x ∈ ways r s c, (captured x.2 index).isSome := by
  induction r generalizing s c with
  | epsilon => exact absurd always id
  | char accepts => exact absurd always id
  | star body ih => exact absurd always id
  | endOfInput => exact absurd always id
  | seq r q hr hq =>
    intro x hx
    obtain ⟨y, hy, hxy⟩ := List.mem_flatMap.mp hx
    rcases always with first | second
    · exact ways_keeps index q y.1 y.2 (hr first s c y hy) x hxy
    · exact hq second y.1 y.2 x hxy
  | alt r q hr hq =>
    intro x hx
    rcases List.mem_append.mp hx with left | right
    · exact hr always.1 s c x left
    · exact hq always.2 s c x right
  | group i body ih =>
    intro x hx
    obtain ⟨y, hy, rfl⟩ := List.mem_map.mp hx
    exact captured_cons index i _ y.2 (always.imp_right fun inner => ih inner s c y hy)

theorem regexSearch_always {index : Nat} {r : Regex α} (always : Always index r) {s : List α}
    {c : Captures α} (found : regexSearch r s = some c) : (captured c index).isSome := by
  induction s with
  | nil =>
    obtain ⟨x, hx, rfl⟩ := Option.map_eq_some_iff.mp found
    exact ways_always r always [] [] x (List.mem_of_mem_head? hx)
  | cons a s ih =>
    rw [regexSearch] at found
    cases front : (ways r (a :: s) []).head? with
    | none => rw [front] at found; exact ih found
    | some x =>
      rw [front] at found
      cases found
      exact ways_always r always (a :: s) [] x (List.mem_of_mem_head? front)

theorem ways_times_char (accepts : α → Bool) (n : Nat) (s : List α) (c : Captures α)
    (x : Success α) (hx : x ∈ ways ((Regex.char accepts).times n) s c) :
    ∃ t, s = t ++ x.1 ∧ t.length = n ∧ ∀ a ∈ t, accepts a = true := by
  induction n generalizing s c with
  | zero =>
    obtain rfl : x = (s, c) := by simpa [Regex.times, ways] using hx
    exact ⟨[], rfl, rfl, by simp⟩
  | succ n ih =>
    obtain ⟨y, hy, hxy⟩ := List.mem_flatMap.mp hx
    cases s with
    | nil => simp [ways] at hy
    | cons a s =>
      simp only [ways] at hy
      split at hy
      · rename_i accepted
        obtain rfl : y = (s, c) := by simpa using hy
        obtain ⟨t, hs, hlen, hall⟩ := ih s c hxy
        refine ⟨a :: t, by rw [hs, List.cons_append], by simp [hlen], ?_⟩
        simpa [accepted] using hall
      · simp at hy

def Prefers (r : Regex α) (s : List α) (c : Captures α) (x : Success α) : Prop :=
  (ways r s c).head? = some x

theorem prefers_epsilon (s : List α) (c : Captures α) : Prefers .epsilon s c (s, c) := rfl

theorem prefers_endOfInput (c : Captures α) : Prefers .endOfInput ([] : List α) c ([], c) := rfl

theorem Prefers.seq {r q : Regex α} {s : List α} {c : Captures α} {y x : Success α}
    (first : Prefers r s c y) (second : Prefers q y.1 y.2 x) : Prefers (.seq r q) s c x := by
  obtain ⟨others, preferred⟩ := List.head?_eq_some_iff.mp first
  have front : (ways q y.1 y.2).head? = some x := second
  rw [Prefers, ways, preferred, List.flatMap_cons, List.head?_append, front]
  rfl

theorem ways_seq_stuck {r : Regex α} {s : List α} {c : Captures α} (q : Regex α)
    (stuck : ways r s c = []) : ways (.seq r q) s c = [] := by
  rw [ways, stuck, List.flatMap_nil]

theorem Prefers.left {r q : Regex α} {s : List α} {c : Captures α} {x : Success α}
    (preferred : Prefers r s c x) : Prefers (.alt r q) s c x := by
  have front : (ways r s c).head? = some x := preferred
  rw [Prefers, ways, List.head?_append, front]
  rfl

theorem Prefers.right {r q : Regex α} {s : List α} {c : Captures α} {x : Success α}
    (stuck : ways r s c = []) (other : Prefers q s c x) : Prefers (.alt r q) s c x := by
  rw [Prefers, ways, stuck, List.nil_append]
  exact other

theorem Prefers.group {r : Regex α} {text rest : List α} {c c' : Captures α} (index : Nat)
    (body : Prefers r (text ++ rest) c (rest, c')) :
    Prefers (.group index r) (text ++ rest) c (rest, (index, text) :: c') := by
  have front : (ways r (text ++ rest) c).head? = some (rest, c') := body
  rw [Prefers, ways, List.head?_map, front, Option.map_some, List.length_append,
    Nat.add_sub_cancel, List.take_left]

theorem ways_char_stuck {accepts : α → Bool} {s : List α} (c : Captures α)
    (stop : ∀ a ∈ s.head?, accepts a = false) : ways (.char accepts) s c = [] := by
  cases s with
  | nil => rfl
  | cons a s => rw [ways, stop a rfl, if_neg Bool.false_ne_true]

theorem ways_char_front {accepts : α → Bool} {a : α} (s : List α) (c : Captures α)
    (accepted : accepts a = true) : ways (.char accepts) (a :: s) c = [(s, c)] := by
  rw [ways, if_pos accepted]

theorem prefers_char {accepts : α → Bool} {a : α} (s : List α) (c : Captures α)
    (accepted : accepts a = true) : Prefers (.char accepts) (a :: s) c (s, c) := by
  rw [Prefers, ways_char_front s c accepted]
  rfl

private theorem repeatGreedy_class {accepts : α → Bool} {text rest : List α} (c : Captures α)
    (all : ∀ a ∈ text, accepts a = true) (stop : ∀ a ∈ rest.head?, accepts a = false)
    (fuel : Nat) (enough : text.length ≤ fuel) :
    (repeatGreedy (ways (.char accepts)) fuel (text ++ rest) c).head? = some (rest, c) := by
  induction text generalizing fuel with
  | nil =>
    cases fuel with
    | zero => rfl
    | succ fuel =>
      rw [List.nil_append, repeatGreedy, ways_char_stuck c stop]
      rfl
  | cons a text ih =>
    cases fuel with
    | zero => cases enough
    | succ fuel =>
      have accepted : accepts a = true := all a List.mem_cons_self
      have further := ih (fun b hb => all b (List.mem_cons_of_mem a hb)) fuel
        (Nat.le_of_succ_le_succ enough)
      rw [List.cons_append, repeatGreedy, ways_char_front _ c accepted,
        List.filter_cons_of_pos (by simp), List.filter_nil, List.flatMap_singleton,
        List.head?_append, further]
      rfl

theorem prefers_class {accepts : α → Bool} {text rest : List α} (c : Captures α)
    (all : ∀ a ∈ text, accepts a = true) (stop : ∀ a ∈ rest.head?, accepts a = false) :
    Prefers (.star (.char accepts)) (text ++ rest) c (rest, c) :=
  repeatGreedy_class c all stop _ (by simp)

section Keyed

variable {β : Type} [BEq β] [LawfulBEq β] (key : α → β)

def keyed (text : List α) : Regex α :=
  .sequence (text.map fun ch => .char fun a => key a == key ch)

theorem ways_keyed {text typed : List α} (same : typed.map key = text.map key) (s : List α)
    (c : Captures α) : ways (keyed key text) (typed ++ s) c = [(s, c)] := by
  induction text generalizing typed with
  | nil =>
    obtain rfl : typed = [] := List.map_eq_nil_iff.mp same
    rfl
  | cons ch text ih =>
    cases typed with
    | nil => cases same
    | cons a typed =>
      obtain ⟨head, tail⟩ := List.cons_eq_cons.mp same
      have accepted : (key a == key ch) = true := beq_iff_eq.mpr head
      have once : ways (.char fun a => key a == key ch) (a :: (typed ++ s)) c = [(typed ++ s, c)] :=
        ways_char_front (typed ++ s) c accepted
      have rest : ways (.sequence (text.map fun ch => .char fun a => key a == key ch))
          (typed ++ s) c = [(s, c)] := ih tail
      rw [keyed, List.map_cons, Regex.sequence, ways, List.cons_append, once,
        List.flatMap_singleton, rest]

theorem mem_ways_keyed {text s : List α} {c : Captures α} {x : Success α}
    (member : x ∈ ways (keyed key text) s c) :
    ∃ typed, s = typed ++ x.1 ∧ typed.map key = text.map key := by
  induction text generalizing s c with
  | nil =>
    obtain rfl : x = (s, c) := by simpa [keyed, Regex.sequence, ways] using member
    exact ⟨[], rfl, rfl⟩
  | cons ch text ih =>
    obtain ⟨y, hy, hxy⟩ := List.mem_flatMap.mp member
    cases s with
    | nil => cases hy
    | cons a s =>
      by_cases accepted : (key a == key ch) = true
      · rw [ways_char_front s c accepted] at hy
        obtain rfl := List.mem_singleton.mp hy
        obtain ⟨typed, rfl, tail⟩ := ih hxy
        exact ⟨a :: typed, rfl, by rw [List.map_cons, List.map_cons, tail, beq_iff_eq.mp accepted]⟩
      · rw [ways_char_stuck c (by simpa using accepted)] at hy
        cases hy

end Keyed

theorem regexSearch_front {r : Regex α} {s : List α} {x : Success α} (front : Prefers r s [] x) :
    regexSearch r s = some x.2 := by
  have head : (ways r s []).head? = some x := front
  cases s with
  | nil => rw [regexSearch, head, Option.map_some]
  | cons a s => rw [regexSearch, head]

theorem regexSearch_next {r : Regex α} {a : α} {s : List α} (stuck : ways r (a :: s) [] = []) :
    regexSearch r (a :: s) = regexSearch r s := by
  rw [regexSearch, stuck]
  rfl

end LoginHelper.Foundation.OrderedRegex
