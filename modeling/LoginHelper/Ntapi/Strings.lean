/- Unit: LoginHelper/Ntapi/Strings
   source: include/ntapi/string.h
   digest: Counted strings, their observers, and their comparison a machine word at a time. -/

import LoginHelper.Foundation.Agreement
import LoginHelper.Foundation.Records
import Mathlib.Data.Nat.Digits.Defs

set_option autoImplicit false
set_option relaxedAutoImplicit false

namespace LoginHelper.Ntapi.Strings

open LoginHelper.Foundation.Execution LoginHelper.Foundation.Loops
open LoginHelper.Foundation.Agreement (AgreeBelow)
open LoginHelper.Foundation.Records (Adds)

/-- The character types of `ANSI_STRING` and `UNICODE_STRING`. -/
inductive CharType
  | char
  | wchar
  deriving DecidableEq

/-- `sizeof(char_type)` -/
def CharType.size : CharType → Nat
  | .char => 1
  | .wchar => 2

abbrev CharType.Value (T : CharType) : Type := BitVec (8 * T.size)

/-- The platforms the plugin is built for. -/
inductive Platform
  | win32
  | x64
  deriving DecidableEq

/-- `sizeof(uintptr_t)` -/
def Platform.wordSize : Platform → Nat
  | .win32 => 4
  | .x64 => 8

/-- `basic_string`: the lengths count bytes, and `buffer` is the memory from the pointer on,
`none` for the null pointer. -/
structure BasicString (T : CharType) where
  length : UInt16
  maximumLength : UInt16
  buffer : Option (List T.Value)

variable {T : CharType}

/-- `std::char_traits<char_type>::length`, which has no result without a terminator. -/
def traitsLength (s : List T.Value) : Option Nat := s.findIdx? (· == 0)

/-- `basic_string(const_pointer s)`. -/
def basicString (s : Option (List T.Value)) : Option (BasicString T) :=
  match s with
  | none => some ⟨0, 0, none⟩
  | some memory => (traitsLength memory).map fun count =>
      let length := UInt16.ofNat (count * T.size)
      ⟨length, length, some memory⟩

section Observers

variable (s : BasicString T)

def sizeBytes : UInt16 := s.length

def size : UInt16 := UInt16.ofNat ((sizeBytes s).toNat / T.size)

def empty : Bool := s.buffer.isSome && sizeBytes s != 0

/-- What may be read through `begin()`. -/
def memory : List T.Value := s.buffer.getD []

/-- `end()`, in bytes from `begin()`. -/
def endBytes : Nat := (sizeBytes s).toNat

/-- The characters that an iterator passes on its way from `begin()` to `end()`. -/
def characters : List T.Value := (memory s).take ((endBytes s + T.size - 1) / T.size)

end Observers

-- Positions in a string are counted in characters from `begin()`.
inductive Side
  | left
  | right
  deriving DecidableEq

/-- One read of one of the two strings, in bytes from its `begin()`. -/
structure Read where
  side : Side
  pos : Nat
  size : Nat
  deriving DecidableEq

inductive Fault
  | outsideMemory
  | endless
  deriving DecidableEq

abbrev Comparing (α : Type) : Type := Exec Empty Fault (List Read) α

/-- `count` characters from the `p`-th one on. -/
def readChars (side : Side) (s : BasicString T) (p count : Nat) : Comparing (List T.Value) := do
  let log ← readState
  if p + count ≤ (memory s).length then
    modifyState fun _ => ⟨side, p * T.size, count * T.size⟩ :: log
    pure (((memory s).drop p).take count)
  else goUndefined .outsideMemory

def wordOf (chars : List T.Value) : Nat := Nat.ofDigits (2 ^ (8 * T.size)) (chars.map BitVec.toNat)

/-- `*(uintptr_t *)s1` -/
def readWord (P : Platform) (side : Side) (s : BasicString T) (p : Nat) : Comparing Nat := do
  let chars ← readChars side s p (P.wordSize / T.size)
  pure (wordOf chars)

/-- `*s1` -/
def readChar (side : Side) (s : BasicString T) (p : Nat) : Comparing T.Value := do
  let chars ← readChars side s p 1
  definedOr .outsideMemory chars.head?

/-- The locals of a comparison. -/
structure Cursor where
  n1 : Nat
  s1 : Nat
  s2 : Nat

section Comparison

variable (P : Platform) (s other : BasicString T)

def wordRound (l : Cursor) : Comparing (Round Cursor (Option Cursor)) :=
  if P.wordSize ≤ l.n1 then do
    let w1 ← readWord P .left s l.s1
    let w2 ← readWord P .right other l.s2
    if w1 ≠ w2 then pure (.leave (some l))
    else if l.n1 - P.wordSize = 0 then pure (.leave none)
    else pure (.again ⟨l.n1 - P.wordSize, l.s1 + P.wordSize / T.size, l.s2 + P.wordSize / T.size⟩)
  else pure (.leave (some l))

def charRound (differ : T.Value → T.Value → Bool) (l : Cursor) : Comparing (Round Cursor Bool) :=
  if l.s1 * T.size < endBytes s then do
    let c1 ← readChar .left s l.s1
    let c2 ← readChar .right other l.s2
    if differ c1 c2 then pure (.leave false)
    else pure (.again ⟨l.n1, l.s1 + 1, l.s2 + 1⟩)
  else pure (.leave true)

/-- The body that `equals` and `iequals` share up to the test of two characters. -/
def compareBy (differ : T.Value → T.Value → Bool) : Comparing Bool :=
  if sizeBytes s = sizeBytes other then do
    let n1 := (sizeBytes s).toNat
    match ← loop .endless (wordRound P s other) (n1 + 1) ⟨n1, 0, 0⟩ with
    | none => pure true
    | some l => loop .endless (charRound s other differ) (n1 + 1) l
  else pure false

def equals : Comparing Bool := compareBy P s other fun c1 c2 => c1 != c2

/-- `tolower` is the one of the global locale's facet. -/
def iequals (tolower : T.Value → T.Value) : Comparing Bool :=
  compareBy P s other fun c1 c2 => c1 != c2 && tolower c1 != tolower c2

end Comparison

/-- A string of whole characters, all of which its buffer holds. -/
structure Counted (T : CharType) extends BasicString T where
  whole : length.toNat % T.size = 0
  backed : length.toNat ≤ (buffer.getD []).length * T.size

/-- The read lies before the end of the string it goes to. -/
def Read.Within (s other : BasicString T) (read : Read) : Prop :=
  match read.side with
  | .left => read.pos + read.size ≤ endBytes s
  | .right => read.pos + read.size ≤ endBytes other

theorem CharType.size_pos (T : CharType) : 0 < T.size := by
  cases T with
  | char => decide
  | wchar => decide

theorem wordChars (P : Platform) (T : CharType) :
    P.wordSize / T.size * T.size = P.wordSize ∧ 0 < P.wordSize / T.size := by
  cases P with
  | win32 => cases T with
    | char => decide
    | wchar => decide
  | x64 => cases T with
    | char => decide
    | wchar => decide

namespace Counted

variable (s : Counted T)

def count : Nat := endBytes s.toBasicString / T.size

theorem count_mul : s.count * T.size = endBytes s.toBasicString :=
  Nat.div_mul_cancel (Nat.dvd_of_mod_eq_zero s.whole)

theorem characters_eq : characters s.toBasicString = (memory s.toBasicString).take s.count := by
  have positive := T.size_pos
  have rounded : (endBytes s.toBasicString + T.size - 1) / T.size = s.count := by
    rw [← s.count_mul, Nat.add_sub_assoc positive, Nat.mul_comm,
      Nat.mul_add_div positive, Nat.div_eq_of_lt (Nat.sub_lt positive Nat.one_pos), Nat.add_zero]
  rw [characters, rounded]

theorem count_le : s.count ≤ (memory s.toBasicString).length := by
  have enough : s.count * T.size ≤ (memory s.toBasicString).length * T.size := by
    rw [s.count_mul]
    exact s.backed
  exact Nat.le_of_mul_le_mul_right enough T.size_pos

theorem characters_length : (characters s.toBasicString).length = s.count := by
  rw [s.characters_eq, List.length_take]
  exact Nat.min_eq_left s.count_le

end Counted

theorem wordOf_inj {chars chars' : List T.Value} (lengths : chars.length = chars'.length)
    (words : wordOf chars = wordOf chars') : chars = chars' := by
  have base : 1 < 2 ^ (8 * T.size) :=
    Nat.one_lt_two_pow (Nat.mul_ne_zero (by decide) T.size_pos.ne')
  have small : ∀ l : List T.Value, ∀ d ∈ l.map BitVec.toNat, d < 2 ^ (8 * T.size) := by
    intro l d hd
    obtain ⟨c, -, rfl⟩ := List.mem_map.mp hd
    exact c.isLt
  have digits := Nat.ofDigits_inj_of_len_eq base (by simpa using lengths) (small chars)
    (small chars') words
  exact List.map_injective_iff.mpr (fun _ _ => BitVec.eq_of_toNat_eq) digits

section Runs

variable (side : Side) (s : Counted T) (log : List Read)

private theorem readChars_run {p n : Nat} (room : p + n ≤ s.count) :
    (readChars side s.toBasicString p n).run log =
      .done (((characters s.toBasicString).drop p).take n)
        (⟨side, p * T.size, n * T.size⟩ :: log) := by
  have inMemory : p + n ≤ (memory s.toBasicString).length := Nat.le_trans room s.count_le
  have below : min n (s.count - p) = n := Nat.min_eq_left (by omega)
  rw [s.characters_eq, List.drop_take, List.take_take, below]
  simp [readChars, inMemory]

private theorem readWord_run (P : Platform) {p : Nat} (room : p + P.wordSize / T.size ≤ s.count) :
    (readWord P side s.toBasicString p).run log =
      .done (wordOf (((characters s.toBasicString).drop p).take (P.wordSize / T.size)))
        (⟨side, p * T.size, P.wordSize⟩ :: log) := by
  rw [readWord, bind_run, readChars_run side s log room, (wordChars P T).1]
  rfl

theorem readChar_run {p : Nat} {c : T.Value}
    (hc : (characters s.toBasicString)[p]? = some c) :
    (readChar side s.toBasicString p).run log = .done c (⟨side, p * T.size, T.size⟩ :: log) := by
  have room : p + 1 ≤ s.count := by
    have inside := (List.getElem?_eq_some_iff.mp hc).1
    rwa [s.characters_length] at inside
  have first : (((characters s.toBasicString).drop p).take 1).head? = some c := by
    rw [List.head?_take, if_neg Nat.one_ne_zero, List.head?_drop, hc]
  rw [readChar, bind_run, readChars_run side s log room, Outcome.andThen_done, first, Nat.one_mul]
  rfl

end Runs

section Loops

variable (P : Platform) (s other : Counted T) (before : List Read)

/-- Since `before` there were reads of characters of the two strings only. -/
def AddsWithin (log : List Read) : Prop :=
  Adds (Read.Within s.toBasicString other.toBasicString) before log

/-- What both loops keep: one position in both strings, agreement below it, and reads inside. -/
structure Scanned (R : T.Value → T.Value → Prop) (l : Cursor) (log : List Read) : Prop where
  together : l.s2 = l.s1
  reached : l.s1 ≤ s.count
  agree : AgreeBelow R (characters s.toBasicString) (characters other.toBasicString) l.s1
  within : AddsWithin s other before log

/-- `n1` is what is left of the string. -/
structure WordInvariant (l : Cursor) (log : List Read) : Prop
    extends Scanned s other before Eq l log where
  left : l.n1 + l.s1 * T.size = endBytes s.toBasicString

def WordPost : Option Cursor → List Read → Prop
  | none, log =>
    AgreeBelow Eq (characters s.toBasicString) (characters other.toBasicString) s.count ∧
      AddsWithin s other before log
  | some l, log => Scanned s other before Eq l log

variable {s other before} (lengths : endBytes s.toBasicString = endBytes other.toBasicString)

include lengths

private theorem count_eq : other.count = s.count := by
  rw [Counted.count, Counted.count, lengths]

private theorem AddsWithin.both {log : List Read} {p n : Nat} (h : AddsWithin s other before log)
    (room : p + n ≤ endBytes s.toBasicString) :
    AddsWithin s other before (⟨.right, p, n⟩ :: ⟨.left, p, n⟩ :: log) := by
  have left : Read.Within s.toBasicString other.toBasicString ⟨.left, p, n⟩ := room
  have right : Read.Within s.toBasicString other.toBasicString ⟨.right, p, n⟩ := by
    show p + n ≤ endBytes other.toBasicString
    rwa [← lengths]
  exact (Adds.cons h left).cons right

private theorem wordRound_returns {l : Cursor} {log : List Read}
    (inv : WordInvariant s other before l log) :
    Returns (wordRound P s.toBasicString other.toBasicString l) log
      (RoundPost (WordInvariant s other before) Cursor.n1 (WordPost s other before) l) := by
  obtain ⟨n1, p1, p⟩ := l
  obtain ⟨⟨together, reached, agree, within⟩, left⟩ := inv
  dsimp only at together reached agree left
  subst together
  obtain ⟨whole, positive⟩ := wordChars P T
  rw [wordRound]
  split
  case isFalse => exact returns_pure ⟨rfl, reached, agree, within⟩
  case isTrue more =>
    dsimp only at more
    have bytes : p * T.size + P.wordSize ≤ endBytes s.toBasicString := by omega
    have room : p + P.wordSize / T.size ≤ s.count := by
      apply Nat.le_of_mul_le_mul_right _ T.size_pos
      rw [s.count_mul, Nat.add_mul, whole]
      exact bytes
    have room' : p + P.wordSize / T.size ≤ other.count := by rwa [count_eq lengths]
    have inside := within.both lengths bytes
    apply returns_bind_of_run (readWord_run .left s log P room)
    apply returns_bind_of_run (readWord_run .right other _ P room')
    split
    case isTrue => exact returns_pure ⟨rfl, reached, agree, inside⟩
    case isFalse words =>
      have sizes := s.characters_length
      have sizes' := other.characters_length
      have chunk := wordOf_inj (by simp only [List.length_take, List.length_drop]; omega)
        (not_not.mp words)
      have further := agree.chunk chunk
      split
      case isTrue done =>
        have last : p + P.wordSize / T.size = s.count := by
          apply Nat.eq_of_mul_eq_mul_right T.size_pos
          rw [s.count_mul, Nat.add_mul, whole]
          dsimp only at done
          omega
        exact returns_pure ⟨last ▸ further, inside⟩
      case isFalse =>
        refine returns_pure ⟨⟨⟨rfl, room, further, inside⟩, ?_⟩, ?_⟩
        · dsimp only
          rw [Nat.add_mul, whole]
          omega
        · have : 0 < P.wordSize := by rw [← whole]; exact Nat.mul_pos positive T.size_pos
          dsimp only
          omega

private theorem charRound_returns {differ : T.Value → T.Value → Bool} {l : Cursor} {log : List Read}
    (inv : Scanned s other before (fun a b => differ a b = false) l log) :
    Returns (charRound s.toBasicString other.toBasicString differ l) log
      (RoundPost (Scanned s other before fun a b => differ a b = false) (fun l => s.count - l.s1)
        (fun result log => (result = true ↔
          AgreeBelow (fun a b => differ a b = false) (characters s.toBasicString)
            (characters other.toBasicString) s.count) ∧ AddsWithin s other before log) l) := by
  obtain ⟨n1, p1, p⟩ := l
  obtain ⟨together, reached, agree, within⟩ := inv
  dsimp only at together reached agree
  subst together
  rw [charRound]
  split
  case isFalse stop =>
    dsimp only at stop
    rw [← s.count_mul] at stop
    obtain rfl : p = s.count :=
      Nat.le_antisymm reached (Nat.le_of_mul_le_mul_right (Nat.le_of_not_lt stop) T.size_pos)
    exact returns_pure ⟨by simpa using agree, within⟩
  case isTrue more =>
    dsimp only at more
    have room : p < s.count := by
      rw [← s.count_mul] at more
      exact Nat.lt_of_mul_lt_mul_right more
    have bytes : p * T.size + T.size ≤ endBytes s.toBasicString := by
      rw [← s.count_mul, ← Nat.succ_mul]
      exact Nat.mul_le_mul_right _ room
    have room' : p < other.count := by rwa [count_eq lengths]
    have c1 := List.getElem?_eq_getElem (s.characters_length.symm ▸ room)
    have c2 := List.getElem?_eq_getElem (other.characters_length.symm ▸ room')
    have inside := within.both lengths bytes
    apply returns_bind_of_run (readChar_run .left s log c1)
    apply returns_bind_of_run (readChar_run .right other _ c2)
    split
    case isTrue different =>
      refine returns_pure ⟨⟨nofun, ?_⟩, inside⟩
      intro all
      have alike : differ _ _ = false := all p _ _ room c1 c2
      rw [different] at alike
      cases alike
    case isFalse alike =>
      have related := Bool.eq_false_iff.mpr alike
      refine returns_pure ⟨⟨rfl, room, agree.succ c1 c2 related, inside⟩, ?_⟩
      dsimp only
      omega

end Loops

section Results

variable (P : Platform) (s other : Counted T) (before : List Read)

private theorem compareBy_returns_of_lengths (differ : T.Value → T.Value → Bool)
    (reflexive : ∀ c, differ c c = false)
    (lengths : endBytes s.toBasicString = endBytes other.toBasicString) :
    Returns (compareBy P s.toBasicString other.toBasicString differ) before fun result log =>
      (result = true ↔ AgreeBelow (fun a b => differ a b = false) (characters s.toBasicString)
        (characters other.toBasicString) s.count) ∧ AddsWithin s other before log := by
  have sizes : sizeBytes s.toBasicString = sizeBytes other.toBasicString :=
    UInt16.toNat_inj.mp lengths
  have alike : ∀ a b : T.Value, a = b → differ a b = false := by
    rintro a b rfl
    exact reflexive a
  have none : AddsWithin s other before before := Adds.refl _ before
  have start : WordInvariant s other before ⟨endBytes s.toBasicString, 0, 0⟩ before :=
    ⟨⟨rfl, Nat.zero_le _, AgreeBelow.zero, none⟩, by simp⟩
  have words := loop_returns Fault.endless (WordInvariant s other before) Cursor.n1
    (WordPost s other before) (fun l log inv => wordRound_returns P lengths inv)
    (Nat.lt_succ_self (endBytes s.toBasicString)) start
  rw [compareBy, if_pos sizes]
  apply words.bind
  intro result log found
  cases result with
  | none => exact returns_pure ⟨⟨fun _ => found.1.mono alike, fun _ => rfl⟩, found.2⟩
  | some l =>
    have fuel : s.count - l.s1 < (sizeBytes s.toBasicString).toNat + 1 := by
      have : s.count ≤ (sizeBytes s.toBasicString).toNat := Nat.div_le_self _ _
      omega
    exact loop_returns Fault.endless (Scanned s other before fun a b => differ a b = false)
      (fun l => s.count - l.s1) _ (fun l log inv => charRound_returns lengths inv) fuel
      ⟨found.together, found.reached, found.agree.mono alike, found.within⟩

private theorem compareBy_returns (differ : T.Value → T.Value → Bool)
    (reflexive : ∀ c, differ c c = false) :
    Returns (compareBy P s.toBasicString other.toBasicString differ) before fun result log =>
      (result = true ↔ List.Forall₂ (fun a b => differ a b = false) (characters s.toBasicString)
        (characters other.toBasicString)) ∧ AddsWithin s other before log := by
  by_cases sizes : sizeBytes s.toBasicString = sizeBytes other.toBasicString
  · have lengths : endBytes s.toBasicString = endBytes other.toBasicString :=
      congrArg UInt16.toNat sizes
    apply (compareBy_returns_of_lengths P s other before differ reflexive lengths).mono
    intro result log found
    have counts :
        (characters s.toBasicString).length = (characters other.toBasicString).length := by
      rw [s.characters_length, other.characters_length, count_eq lengths]
    rw [← AgreeBelow.forall₂_iff counts, s.characters_length]
    exact found
  · rw [compareBy, if_neg sizes]
    refine returns_pure ⟨⟨nofun, ?_⟩, Adds.refl _ before⟩
    intro related
    have counts := related.length_eq
    rw [s.characters_length, other.characters_length] at counts
    apply absurd _ sizes
    apply UInt16.toNat_inj.mp
    have bytes := s.count_mul
    rw [counts, other.count_mul] at bytes
    exact bytes.symm

theorem equals_returns :
    Returns (equals P s.toBasicString other.toBasicString) before fun result log =>
      (result = true ↔ characters s.toBasicString = characters other.toBasicString) ∧
        AddsWithin s other before log := by
  apply (compareBy_returns P s other before _ (by simp)).mono
  intro result log found
  simpa using found

theorem iequals_returns (tolower : T.Value → T.Value) :
    Returns (iequals P s.toBasicString other.toBasicString tolower) before fun result log =>
      (result = true ↔ List.Forall₂ (fun a b => tolower a = tolower b)
        (characters s.toBasicString) (characters other.toBasicString)) ∧
        AddsWithin s other before log := by
  apply (compareBy_returns P s other before _ (by simp)).mono
  intro result log found
  have same : (fun a b : T.Value => (a != b && tolower a != tolower b) = false) =
      fun a b => tolower a = tolower b := by
    ext a b
    simp only [Bool.and_eq_false_iff, bne_eq_false_iff_eq, or_iff_right_iff_imp]
    exact congrArg tolower
  rwa [same] at found

/-- `equals` decides whether the characters are the same, `iequals` whether there are as
many and `tolower` agrees on each pair, and neither reads behind a string. -/
theorem comparisons_agree (tolower : T.Value → T.Value) :
    (Returns (equals P s.toBasicString other.toBasicString) before fun result log =>
      (result = true ↔ characters s.toBasicString = characters other.toBasicString) ∧
        AddsWithin s other before log) ∧
    Returns (iequals P s.toBasicString other.toBasicString tolower) before fun result log =>
      (result = true ↔ List.Forall₂ (fun a b => tolower a = tolower b)
        (characters s.toBasicString) (characters other.toBasicString)) ∧
        AddsWithin s other before log :=
  ⟨equals_returns P s other before, iequals_returns P s other before tolower⟩

end Results

end LoginHelper.Ntapi.Strings
