/- Unit: LoginHelper/Windows/Runtime
   layer: platform
   digest: The C and C++ library calls of the source: wcstol, stoi, letter case, zero padded printing. -/

import LoginHelper.Windows.ProcessEnvironment
import Mathlib.Data.List.GetD
import Mathlib.Data.Nat.Digits.Lemmas

set_option autoImplicit false
set_option relaxedAutoImplicit false

namespace LoginHelper.Windows.Runtime

open LoginHelper.Windows.ProcessEnvironment

/-- The exceptions the plugin's code and the library it calls throw. -/
inductive StdException where
  | invalidArgument (what : String)
  | outOfRange (what : String)
  deriving DecidableEq

-- `long` and `int` both have 32 bits on this platform.
def isSpace (c : WChar) : Bool := c == 32 || (9 ≤ c && c ≤ 13)

def isDigit (c : WChar) : Bool := 48 ≤ c && c ≤ 57

def isSign (c : WChar) : Bool := c == 43 || c == 45

def digitsValue (digits : WString) : Nat :=
  digits.foldl (fun n c => 10 * n + (c.toNat - 48)) 0

/-- What `wcstol` reports: the value, whether `errno` is `ERANGE`, and the distance to `*endptr`. -/
structure WcstolResult where
  value : Int
  erange : Bool
  consumed : Nat
  deriving DecidableEq

/-- Values outside `long` are reported as its nearest end. -/
def saturate (n : Int) (consumed : Nat) : WcstolResult :=
  if n < -2 ^ 31 then ⟨-2 ^ 31, true, consumed⟩
  else if 2 ^ 31 - 1 < n then ⟨2 ^ 31 - 1, true, consumed⟩
  else ⟨n, false, consumed⟩

/-- `wcstol(s, &endptr, 10)`: spaces, a sign, digits; nothing is consumed without a digit. -/
def wcstol (s : WString) : WcstolResult :=
  let spaces := (s.takeWhile isSpace).length
  let signed := s.dropWhile isSpace
  let sign := ((signed.head?).filter isSign).toList
  let digits := (signed.drop sign.length).takeWhile isDigit
  if digits = [] then ⟨0, false, 0⟩
  else saturate (if sign = [45] then -(digitsValue digits : Int) else digitsValue digits)
    (spaces + sign.length + digits.length)

/-- `std::stoi`. -/
def stoi (s : WString) : Except StdException Int :=
  let r := wcstol s
  if r.consumed = 0 then .error (.invalidArgument "invalid stoi argument")
  else if r.erange then .error (.outOfRange "stoi argument out of range")
  else .ok r.value

theorem isDigit_not_isSpace {c : WChar} (h : isDigit c = true) : isSpace c = false := by
  simp only [isDigit, Bool.and_eq_true, decide_eq_true_eq, UInt16.le_iff_toNat_le] at h
  simp only [isSpace, Bool.or_eq_false_iff, beq_eq_false_iff_ne, Bool.and_eq_false_iff,
    decide_eq_false_iff_not, UInt16.le_iff_toNat_le, ne_eq, ← UInt16.toNat_inj]
  simp only [UInt16.reduceToNat] at h ⊢
  omega

theorem isDigit_not_isSign {c : WChar} (h : isDigit c = true) : isSign c = false := by
  simp only [isDigit, Bool.and_eq_true, decide_eq_true_eq, UInt16.le_iff_toNat_le] at h
  simp only [isSign, Bool.or_eq_false_iff, beq_eq_false_iff_ne, ne_eq, ← UInt16.toNat_inj]
  simp only [UInt16.reduceToNat] at h ⊢
  omega

theorem wcstol_digits (s : WString) (nonempty : s ≠ []) (digits : ∀ c ∈ s, isDigit c = true) :
    wcstol s = saturate (digitsValue s) s.length := by
  obtain ⟨c, rest, rfl⟩ := List.exists_cons_of_ne_nil nonempty
  have head := digits c (by simp)
  have all : (c :: rest).takeWhile isDigit = c :: rest :=
    List.takeWhile_eq_self_iff.mpr digits
  unfold wcstol
  simp only [List.takeWhile_cons, List.dropWhile_cons, isDigit_not_isSpace head,
    Bool.false_eq_true, if_false, List.length_nil, List.head?_cons, Option.filter_some,
    isDigit_not_isSign head, Option.toList_none, List.drop_zero, Nat.zero_add]
  rw [← List.takeWhile_cons, all]
  simp

private theorem takeWhile_stop {p : WChar → Bool} {c : WChar} (stop : p c = false)
    (t rest : WString) : (t ++ c :: rest).takeWhile p = t.takeWhile p := by
  induction t with
  | nil => simp [stop]
  | cons a t ih => simp only [List.cons_append, List.takeWhile_cons, ih]

private theorem dropWhile_stop {p : WChar → Bool} {c : WChar} (stop : p c = false)
    (t rest : WString) : (t ++ c :: rest).dropWhile p = t.dropWhile p ++ c :: rest := by
  induction t with
  | nil => simp [stop]
  | cons a t ih =>
    simp only [List.cons_append, List.dropWhile_cons, ih]
    split <;> rfl

/-- What follows a character that no number contains is never looked at. -/
theorem wcstol_stop {c : WChar} (space : isSpace c = false) (sign : isSign c = false)
    (digit : isDigit c = false) (t rest : WString) :
    wcstol (t ++ c :: rest) = wcstol t := by
  unfold wcstol
  rw [takeWhile_stop space, dropWhile_stop space]
  cases u : t.dropWhile isSpace with
  | nil =>
    simp only [List.nil_append, List.head?_cons, Option.filter_some, sign, Bool.false_eq_true,
      if_false, Option.toList_none, List.length_nil, List.drop_zero, List.takeWhile_cons, digit,
      List.head?_nil, Option.filter_none, List.drop_nil, List.takeWhile_nil, if_true]
  | cons a v =>
    simp only [List.cons_append, List.head?_cons, Option.filter_some]
    by_cases signed : isSign a = true
    · simp only [signed, if_true, Option.toList_some, List.length_singleton, List.drop_succ_cons,
        List.drop_zero, takeWhile_stop digit]
    · simp only [Bool.not_eq_true] at signed
      simp only [signed, Bool.false_eq_true, if_false, Option.toList_none, List.length_nil,
        List.drop_zero, ← List.cons_append, takeWhile_stop digit]

theorem stoi_digits (s : WString) (nonempty : s ≠ []) (digits : ∀ c ∈ s, isDigit c = true)
    (fits : digitsValue s < 2 ^ 31) : stoi s = .ok (digitsValue s) := by
  have positive : s.length ≠ 0 := by simpa using nonempty
  have exact : saturate (digitsValue s) s.length = ⟨digitsValue s, false, s.length⟩ := by
    rw [saturate, if_neg (by omega), if_neg (by omega)]
  simp only [stoi, wcstol_digits s nonempty digits, exact, if_neg positive, Bool.false_eq_true,
    if_false]

/-- In the "C" locale the process starts with. A byte from 128 on is a negative `char`, which
`std::islower` is not defined for; here it is no letter. -/
def islower (c : UInt8) : Bool := 97 ≤ c && c ≤ 122

def toupper (c : UInt8) : UInt8 := if islower c then c - 32 else c

def decimalDigits (n : Nat) : List Nat := if n = 0 then [0] else Nat.digits 10 n

/-- The digits of a number with leading zeros up to `width`. -/
def formatPadded (width n : Nat) : NString :=
  (List.replicate (width - (decimalDigits n).length) 0 ++ (decimalDigits n).reverse).map
    fun d => UInt8.ofNat (48 + d)

/-- `%0<width>d`; the sign takes one place of the width. -/
def formatInt (width : Nat) (n : Int) : NString :=
  if n < 0 then 45 :: formatPadded (width - 1) n.natAbs else formatPadded width n.toNat

/-- `sprintf_s` into an array of `size` characters: absent when the text and its
terminator do not fit, where the runtime ends the process. -/
def sprintfS (size : Nat) (text : NString) : Option NString :=
  if text.length < size then some (text ++ [0]) else none

private theorem decimalDigits_length_le {width n : Nat} (hw : 0 < width) (h : n < 10 ^ width) :
    (decimalDigits n).length ≤ width := by
  unfold decimalDigits
  split
  · exact hw
  · exact (Nat.digits_length_le_iff (by decide) n).mpr h

private theorem decimalDigits_getD (n k : Nat) : (decimalDigits n).getD k 0 = n / 10 ^ k % 10 := by
  unfold decimalDigits
  split
  · rename_i hn
    cases k <;> simp [hn]
  · exact Nat.getD_digits n k (by decide)

private theorem padded_reverse (l : List Nat) (width : Nat) (h : l.length ≤ width) :
    List.replicate (width - l.length) 0 ++ l.reverse =
      (List.range width).map fun i => l.getD (width - 1 - i) 0 := by
  apply List.ext_getElem
  · simp only [List.length_append, List.length_replicate, List.length_reverse, List.length_map,
      List.length_range]
    omega
  · intro i hi hi'
    have hiw : i < width := by simpa using hi'
    rw [List.getElem_map, List.getElem_range]
    by_cases padded : i < width - l.length
    · rw [List.getElem_append_left (by simpa using padded), List.getElem_replicate,
        List.getD_eq_default _ _ (by omega)]
    · rw [List.getElem_append_right (by simpa using padded), List.getElem_reverse,
        List.getD_eq_getElem _ _ (by omega)]
      congr 1
      simp only [List.length_replicate]
      omega

theorem formatPadded_eq {width n : Nat} (hw : 0 < width) (h : n < 10 ^ width) :
    formatPadded width n =
      (List.range width).map fun i => UInt8.ofNat (48 + n / 10 ^ (width - 1 - i) % 10) := by
  rw [formatPadded, padded_reverse _ _ (decimalDigits_length_le hw h), List.map_map]
  simp only [Function.comp_def, decimalDigits_getD]

end LoginHelper.Windows.Runtime
