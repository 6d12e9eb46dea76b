/- Unit: LoginHelper/Ntapi/Affixes
   source: include/ntapi/string.h
   digest: The tests for the beginning and the end of a counted string. -/

import LoginHelper.Ntapi.Strings

set_option autoImplicit false
set_option relaxedAutoImplicit false

namespace LoginHelper.Ntapi.Affixes

open LoginHelper.Foundation.Execution LoginHelper.Foundation.Loops
open LoginHelper.Foundation.Agreement (AgreeBelow)
open LoginHelper.Foundation.Records (Adds)
open LoginHelper.Ntapi.Strings

variable {T : CharType}

section Code

variable (s other : BasicString T)

/-- A round of the loop of the three functions, behind as many characters as have passed. The
iterators of both strings go forwards or backwards: they stand at the given places. -/
def affixRound (place1 place2 : Nat → Nat) (differ : T.Value → T.Value → Bool) (passed : Nat) :
    Comparing (Round Nat Bool) :=
  if passed * T.size < endBytes other then do
    let c1 ← readChar .left s (place1 passed)
    let c2 ← readChar .right other (place2 passed)
    if differ c1 c2 then pure (.leave false) else pure (.again (passed + 1))
  else pure (.leave true)

def affix (place1 place2 : Nat → Nat) (differ : T.Value → T.Value → Bool) : Comparing Bool :=
  if sizeBytes s < sizeBytes other then pure false
  else loop .endless (affixRound s other place1 place2 differ) (endBytes other + 1) 0

def reversePlace (s : BasicString T) (passed : Nat) : Nat := endBytes s / T.size - (passed + 1)

def startsWith : Comparing Bool := affix s other id id fun c1 c2 => c2 != c1

/-- `tolower` is the one of the global locale's facet. -/
def istartsWith (tolower : T.Value → T.Value) : Comparing Bool :=
  affix s other id id fun c1 c2 => c1 != c2 && tolower c1 != tolower c2

def endsWith : Comparing Bool :=
  affix s other (reversePlace s) (reversePlace other) fun c1 c2 => c2 != c1

end Code

section Results

variable (s other : Counted T) (before : List Read)

def Alike (place1 place2 : Nat → Nat) (differ : T.Value → T.Value → Bool) (passed : Nat) : Prop :=
  ∀ k a b, k < passed → (characters s.toBasicString)[place1 k]? = some a →
    (characters other.toBasicString)[place2 k]? = some b → differ a b = false

variable {s other before} {place1 place2 : Nat → Nat} {differ : T.Value → T.Value → Bool}

private theorem within_cons {log : List Read} (side : Side) {p : Nat} (t : Counted T)
    (same : (match side with | .left => s | .right => other) = t) (inside : p < t.count)
    (within : AddsWithin s other before log) :
    AddsWithin s other before (⟨side, p * T.size, T.size⟩ :: log) := by
  have bytes : p * T.size + T.size ≤ endBytes t.toBasicString := by
    rw [← t.count_mul, ← Nat.succ_mul]
    exact Nat.mul_le_mul_right _ inside
  apply Adds.cons within
  cases side with
  | left => subst same; exact bytes
  | right => subst same; exact bytes

private theorem affixRound_returns {passed : Nat} {log : List Read}
    (inside1 : ∀ k < other.count, place1 k < s.count)
    (inside2 : ∀ k < other.count, place2 k < other.count) (reached : passed ≤ other.count)
    (alike : Alike s other place1 place2 differ passed) (within : AddsWithin s other before log) :
    Returns (affixRound s.toBasicString other.toBasicString place1 place2 differ passed) log
      (RoundPost (fun passed log => passed ≤ other.count ∧
          Alike s other place1 place2 differ passed ∧ AddsWithin s other before log)
        (fun passed => other.count - passed)
        (fun result log => (result = true ↔ Alike s other place1 place2 differ other.count) ∧
          AddsWithin s other before log) passed) := by
  rw [affixRound]
  split
  case isFalse stop =>
    rw [← other.count_mul] at stop
    obtain rfl : passed = other.count :=
      Nat.le_antisymm reached (Nat.le_of_mul_le_mul_right (Nat.le_of_not_lt stop) T.size_pos)
    exact returns_pure ⟨iff_of_true rfl alike, within⟩
  case isTrue more =>
    rw [← other.count_mul] at more
    have room : passed < other.count := Nat.lt_of_mul_lt_mul_right more
    have first := inside1 passed room
    have second := inside2 passed room
    have c1 := List.getElem?_eq_getElem (s.characters_length.symm ▸ first)
    have c2 := List.getElem?_eq_getElem (other.characters_length.symm ▸ second)
    have inside := within_cons .right other rfl second (within_cons .left s rfl first within)
    apply returns_bind_of_run (readChar_run .left s log c1)
    apply returns_bind_of_run (readChar_run .right other _ c2)
    split
    case isTrue different =>
      refine returns_pure ⟨⟨nofun, ?_⟩, inside⟩
      intro all
      rw [all passed _ _ room c1 c2] at different
      cases different
    case isFalse same =>
      refine returns_pure ⟨⟨room, ?_, inside⟩, Nat.sub_lt_sub_left room (Nat.lt_succ_self passed)⟩
      intro k a b below ha hb
      rcases Nat.lt_succ_iff_lt_or_eq.mp below with earlier | rfl
      · exact alike k a b earlier ha hb
      · rw [c1] at ha
        rw [c2] at hb
        obtain rfl := Option.some.inj ha
        obtain rfl := Option.some.inj hb
        exact Bool.eq_false_iff.mpr same

private theorem affix_returns (inside1 : other.count ≤ s.count → ∀ k < other.count, place1 k < s.count)
    (inside2 : ∀ k < other.count, place2 k < other.count) :
    Returns (affix s.toBasicString other.toBasicString place1 place2 differ) before
      fun result log => (result = true ↔ other.count ≤ s.count ∧
        Alike s other place1 place2 differ other.count) ∧ AddsWithin s other before log := by
  have counts : sizeBytes s.toBasicString < sizeBytes other.toBasicString ↔ s.count < other.count := by
    show endBytes s.toBasicString < endBytes other.toBasicString ↔ _
    rw [← s.count_mul, ← other.count_mul]
    exact Nat.mul_lt_mul_right T.size_pos
  have none : AddsWithin s other before before := Adds.refl _ before
  rw [affix]
  split
  case isTrue longer =>
    have shorter := counts.mp longer
    exact returns_pure ⟨⟨nofun, fun found => absurd found.1 (Nat.not_le_of_lt shorter)⟩, none⟩
  case isFalse fits =>
    have room : other.count ≤ s.count := Nat.le_of_not_lt fun shorter => fits (counts.mpr shorter)
    have fuel : other.count - 0 < endBytes other.toBasicString + 1 :=
      Nat.lt_succ_of_le (Nat.div_le_self _ _)
    have start : Alike s other place1 place2 differ 0 := fun k a b below => absurd below (Nat.not_lt_zero k)
    apply (loop_returns Fault.endless _ (fun passed => other.count - passed) _
      (fun passed log inv => affixRound_returns (inside1 room) inside2 inv.1 inv.2.1 inv.2.2) fuel
      ⟨Nat.zero_le _, start, none⟩).mono
    intro result log found
    exact ⟨found.1.trans ⟨fun all => ⟨room, all⟩, fun all => all.2⟩, found.2⟩

end Results

section Decisions

variable (s other : Counted T)

variable {s other} in
private theorem alike_iff {place1 place2 : Nat → Nat} {differ : T.Value → T.Value → Bool}
    {R : T.Value → T.Value → Prop} {xs ys : List T.Value}
    (related : ∀ a b, differ a b = false ↔ R a b)
    (lengths : xs.length = s.count ∧ ys.length = other.count)
    (left : ∀ k < s.count, (characters s.toBasicString)[place1 k]? = xs[k]?)
    (right : ∀ k < other.count, (characters other.toBasicString)[place2 k]? = ys[k]?) :
    other.count ≤ s.count ∧ Alike s other place1 place2 differ other.count ↔
      ∃ front, front <+: xs ∧ List.Forall₂ R front ys := by
  have alike_front (room : other.count ≤ s.count) :
      Alike s other place1 place2 differ other.count ↔
        AgreeBelow R (xs.take other.count) ys other.count := by
    refine forall₃_congr fun k a b => forall_congr' fun below => ?_
    rw [left k (Nat.lt_of_lt_of_le below room), right k below, List.getElem?_take_of_lt below,
      related]
  have front_length (room : other.count ≤ s.count) : (xs.take other.count).length = other.count := by
    rw [List.length_take, lengths.1]
    exact Nat.min_eq_left room
  constructor
  · rintro ⟨room, alike⟩
    refine ⟨xs.take other.count, List.take_prefix _ _, ?_⟩
    rw [← AgreeBelow.forall₂_iff ((front_length room).trans lengths.2.symm), front_length room]
    exact (alike_front room).mp alike
  · rintro ⟨front, leading, same⟩
    have counted : front.length = other.count := same.length_eq.trans lengths.2
    have room : other.count ≤ s.count := by
      rw [← counted, ← lengths.1]
      exact leading.length_le
    obtain rfl : front = xs.take other.count := counted ▸ List.prefix_iff_eq_take.mp leading
    refine ⟨room, (alike_front room).mpr ?_⟩
    rwa [← AgreeBelow.forall₂_iff same.length_eq, counted] at same

private theorem swapped (a b : T.Value) : (b != a) = false ↔ a = b := by
  rw [bne_eq_false_iff_eq, eq_comm]

private theorem exists_eq {xs ys : List T.Value} :
    (∃ front, front <+: xs ∧ List.Forall₂ Eq front ys) ↔ ys <+: xs := by
  simp only [List.forall₂_eq_eq_eq, exists_eq_right]

private theorem reversePlace_lt (t : Counted T) {k : Nat} (below : k < t.count) :
    reversePlace t.toBasicString k < t.count := by
  show t.count - (k + 1) < t.count
  omega

private theorem reversePlace_getElem? (t : Counted T) {k : Nat} (below : k < t.count) :
    (characters t.toBasicString)[reversePlace t.toBasicString k]? =
      (characters t.toBasicString).reverse[k]? := by
  rw [List.getElem?_reverse (by rw [t.characters_length]; exact below), t.characters_length]
  show (characters t.toBasicString)[t.count - (k + 1)]? = _
  congr 1
  omega

section Results

variable (before : List Read)

private theorem startsWith_returns :
    Returns (startsWith s.toBasicString other.toBasicString) before fun result log =>
      (result = true ↔ characters other.toBasicString <+: characters s.toBasicString) ∧
        AddsWithin s other before log := by
  apply (affix_returns (fun room k below => Nat.lt_of_lt_of_le below room)
    fun k below => below).mono
  intro result log found
  have alike := alike_iff swapped
    ⟨s.characters_length, other.characters_length⟩ (fun _ _ => rfl) fun _ _ => rfl
  exact ⟨found.1.trans (alike.trans exists_eq), found.2⟩

private theorem istartsWith_returns (tolower : T.Value → T.Value) :
    Returns (istartsWith s.toBasicString other.toBasicString tolower) before fun result log =>
      (result = true ↔ ∃ front, front <+: characters s.toBasicString ∧
        List.Forall₂ (fun a b => tolower a = tolower b) front (characters other.toBasicString)) ∧
        AddsWithin s other before log := by
  apply (affix_returns (fun room k below => Nat.lt_of_lt_of_le below room)
    fun k below => below).mono
  intro result log found
  have related (a b : T.Value) : (a != b && tolower a != tolower b) = false ↔
      tolower a = tolower b := by
    simp only [Bool.and_eq_false_iff, bne_eq_false_iff_eq, or_iff_right_iff_imp]
    exact congrArg tolower
  have alike := alike_iff related ⟨s.characters_length, other.characters_length⟩
    (fun _ _ => rfl) fun _ _ => rfl
  exact ⟨found.1.trans alike, found.2⟩

private theorem endsWith_returns :
    Returns (endsWith s.toBasicString other.toBasicString) before fun result log =>
      (result = true ↔ characters other.toBasicString <:+ characters s.toBasicString) ∧
        AddsWithin s other before log := by
  apply (affix_returns (fun room k below => reversePlace_lt s (Nat.lt_of_lt_of_le below room))
    fun k below => reversePlace_lt other below).mono
  intro result log found
  have lengths : (characters s.toBasicString).reverse.length = s.count ∧
      (characters other.toBasicString).reverse.length = other.count := by
    simp only [List.length_reverse, Counted.characters_length, and_self]
  have alike := alike_iff swapped lengths
    (fun k => reversePlace_getElem? s) fun k => reversePlace_getElem? other
  rw [exists_eq, List.reverse_prefix] at alike
  exact ⟨found.1.trans alike, found.2⟩

/-- The three functions decide whether the other string's characters stand in front, stand in
front up to `tolower`, or stand at the end, and none reads behind a string. -/
theorem affixes_decided (tolower : T.Value → T.Value) :
    (Returns (startsWith s.toBasicString other.toBasicString) before fun result log =>
      (result = true ↔ characters other.toBasicString <+: characters s.toBasicString) ∧
        AddsWithin s other before log) ∧
    (Returns (istartsWith s.toBasicString other.toBasicString tolower) before fun result log =>
      (result = true ↔ ∃ front, front <+: characters s.toBasicString ∧
        List.Forall₂ (fun a b => tolower a = tolower b) front (characters other.toBasicString)) ∧
        AddsWithin s other before log) ∧
    Returns (endsWith s.toBasicString other.toBasicString) before fun result log =>
      (result = true ↔ characters other.toBasicString <:+ characters s.toBasicString) ∧
        AddsWithin s other before log :=
  ⟨startsWith_returns s other before, istartsWith_returns s other before tolower,
    endsWith_returns s other before⟩

end Results

end Decisions

end LoginHelper.Ntapi.Affixes
