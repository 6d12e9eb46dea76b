/- Unit: LoginHelper/SecretPresentation
   source: src/loginhelper/totp.h, src/loginhelper/libcppotp/bytes.cpp
   digest: A secret is read as the same key however it is written down. -/

import LoginHelper.CppTotp.Base32Reader
import LoginHelper.CppTotp.Otp
import Mathlib.Logic.Relation

set_option autoImplicit false
set_option relaxedAutoImplicit false

namespace LoginHelper.SecretPresentation

open LoginHelper.Foundation.Base32
open LoginHelper.CppTotp.Bytes
open LoginHelper.CppTotp.Base32Reader
open LoginHelper.CppTotp.Otp (readSecret normalizedBase32String)
open LoginHelper.Windows.ProcessEnvironment (NString narrow)
open LoginHelper.Windows.Runtime (islower toupper)

def SameLetter (c c' : UInt8) : Prop :=
  (65 ≤ c ∧ c ≤ 90 ∧ c' = c + 32) ∨ (65 ≤ c' ∧ c' ≤ 90 ∧ c = c' + 32)

def Separator (c : UInt8) : Prop := c = 32 ∨ c = 10 ∨ c = 45

/-- One letter in its other case, or one more separator. -/
inductive Respelt : NString → NString → Prop
  | recased (a b : NString) (c c' : UInt8) (same : SameLetter c c') :
      Respelt (a ++ c :: b) (a ++ c' :: b)
  | separated (a b : NString) (c : UInt8) (separator : Separator c) :
      Respelt (a ++ b) (a ++ c :: b)

/-- The presentations of a text: padding taken off its end, letters recased and
separators inserted, in any order. -/
inductive Presented (text : NString) : NString → Prop
  | itself : Presented text text
  | unpadded (s : NString) (longer : Presented text (s ++ [padChar])) : Presented text s
  | respelt (s s' : NString) (before : Presented text s) (step : Respelt s s') :
      Presented text s'

theorem normalized_append (a b : NString) :
    normalizedBase32String (a ++ b) = normalizedBase32String a ++ normalizedBase32String b :=
  List.flatMap_append

theorem normalized_cons (c : UInt8) (s : NString) :
    normalizedBase32String (c :: s) = normalizedBase32String [c] ++ normalizedBase32String s :=
  normalized_append [c] s

theorem normalized_separator {c : UInt8} (separator : Separator c) :
    normalizedBase32String [c] = [] := by
  rcases separator with rfl | rfl | rfl <;> rfl

theorem normalized_symbol {c : UInt8} (known : IsSymbol c) : normalizedBase32String [c] = [c] := by
  simp only [IsSymbol, UInt8.le_iff_toNat_le, UInt8.reduceToNat] at known
  have text : ¬ (c = 32 ∨ c = 10 ∨ c = 45) := by
    rintro (rfl | rfl | rfl) <;> revert known <;> decide
  have upper : islower c = false := by
    simp only [islower, Bool.and_eq_false_iff, decide_eq_false_iff_not, UInt8.le_iff_toNat_le,
      UInt8.reduceToNat]
    omega
  rw [normalizedBase32String, List.flatMap_singleton, if_neg text, upper]
  rfl

private theorem normalized_lower {c : UInt8} (low : 65 ≤ c) (high : c ≤ 90) :
    normalizedBase32String [c + 32] = [c] := by
  simp only [UInt8.le_iff_toNat_le, UInt8.reduceToNat] at low high
  have value : (c + 32).toNat = c.toNat + 32 := by
    rw [UInt8.toNat_add]
    simp only [UInt8.reduceToNat]
    omega
  have text : ¬ (c + 32 = 32 ∨ c + 32 = 10 ∨ c + 32 = 45) := by
    rw [← UInt8.toNat_inj, ← UInt8.toNat_inj, ← UInt8.toNat_inj, value]
    simp only [UInt8.reduceToNat]
    omega
  have lower : islower (c + 32) = true := by
    simp only [islower, Bool.and_eq_true, decide_eq_true_eq, UInt8.le_iff_toNat_le,
      UInt8.reduceToNat, value]
    omega
  rw [normalizedBase32String, List.flatMap_singleton, if_neg text, if_pos lower, toupper,
    if_pos lower, UInt8.add_sub_cancel]

theorem normalized_sameLetter {c c' : UInt8} (same : SameLetter c c') :
    normalizedBase32String [c'] = normalizedBase32String [c] := by
  rcases same with ⟨low, high, rfl⟩ | ⟨low, high, rfl⟩
  · rw [normalized_lower low high, normalized_symbol (.inl ⟨low, high⟩)]
  · rw [normalized_lower low high, normalized_symbol (.inl ⟨low, high⟩)]

theorem normalized_respelt {s s' : NString} (step : Respelt s s') :
    normalizedBase32String s' = normalizedBase32String s := by
  cases step with
  | recased a b c c' same =>
    rw [normalized_append, normalized_append, normalized_cons c', normalized_cons c,
      normalized_sameLetter same]
  | separated a b c separator =>
    rw [normalized_append, normalized_append, normalized_cons, normalized_separator separator,
      List.nil_append]

theorem normalized_pad : normalizedBase32String [padChar] = [padChar] := rfl

theorem normalized_text {s : NString} (plain : ∀ c ∈ s, IsSymbol c ∨ c = padChar) :
    normalizedBase32String s = s := by
  induction s with
  | nil => rfl
  | cons c s ih =>
    have first : normalizedBase32String [c] = [c] := by
      rcases plain c List.mem_cons_self with known | rfl
      · exact normalized_symbol known
      · exact normalized_pad
    rw [normalized_cons, first, ih fun e he => plain e (List.mem_cons_of_mem c he),
      List.singleton_append]

theorem normalized_presented {letters : NString} (symbols : ∀ c ∈ letters, IsSymbol c) {pads : Nat}
    {s : NString} (presented : Presented (letters ++ List.replicate pads padChar) s) :
    ∃ left, normalizedBase32String s = letters ++ List.replicate left padChar ∧ left ≤ pads := by
  induction presented with
  | itself =>
    refine ⟨pads, normalized_text fun c hc => ?_, Nat.le_refl pads⟩
    exact (List.mem_append.mp hc).imp (symbols c) List.eq_of_mem_replicate
  | unpadded s longer ih =>
    obtain ⟨left, normal, few⟩ := ih
    rw [normalized_append, normalized_pad] at normal
    cases left with
    | zero =>
      -- The last character of the text would be one of the letters.
      rw [List.replicate_zero, List.append_nil] at normal
      have member : padChar ∈ letters :=
        normal ▸ List.mem_append_right _ (List.mem_singleton_self _)
      exact absurd rfl (isSymbol_ne_pad (symbols _ member))
    | succ left =>
      rw [List.replicate_succ', ← List.append_assoc] at normal
      exact ⟨left, (List.append_inj' normal rfl).1, by omega⟩
  | respelt s s' before step ih =>
    rw [normalized_respelt step]
    exact ih

theorem fill_unpadded {letters : NString} {left pads : Nat} (few : left ≤ pads) (bound : pads < 8)
    (whole : (letters ++ List.replicate pads padChar).length % 8 = 0) :
    fill (letters ++ List.replicate left padChar) = letters ++ List.replicate pads padChar := by
  rw [List.length_append, List.length_replicate] at whole
  have missing : (8 - (letters ++ List.replicate left padChar).length % 8) % 8 = pads - left := by
    rw [List.length_append, List.length_replicate]
    omega
  rw [fill, missing, List.append_assoc, List.replicate_append_replicate,
    Nat.add_sub_cancel' few]

theorem readSecret_presented {key : ByteString} {s : NString}
    (presented : Presented (encode key) s) : readSecret s = .ok key := by
  obtain ⟨letters, pads, text, symbols, bound, whole⟩ := encode_text key
  rw [text] at presented whole
  obtain ⟨left, normal, few⟩ := normalized_presented symbols presented
  rw [readSecret, normal, fromUnpaddedBase32_eq, fill_unpadded few bound whole, ← text]
  exact fromBase32_encode key

theorem normalized_equivalent {s s' : NString} (same : Relation.EqvGen Respelt s s') :
    normalizedBase32String s = normalizedBase32String s' := by
  induction same with
  | rel s s' step => exact (normalized_respelt step).symm
  | refl s => rfl
  | symm s s' _ ih => exact ih.symm
  | trans s t u _ _ first next => exact first.trans next

/-- Every presentation of the text of a key is read as that key, and secrets that differ
by case and separators are read alike. -/
theorem presentation_irrelevant :
    (∀ (key : ByteString) (s : NString), Presented (encode key) s → readSecret s = .ok key) ∧
    ∀ s s' : NString, Relation.EqvGen Respelt s s' →
      (∃ key, readSecret s = .ok key ∧ readSecret s' = .ok key) ∨
      ∃ e e', readSecret s = .error e ∧ readSecret s' = .error e' := by
  refine ⟨fun key s presented => readSecret_presented presented, fun s s' same => ?_⟩
  have alike : readSecret s' = readSecret s := by
    rw [readSecret, readSecret, normalized_equivalent same]
  cases read : readSecret s with
  | ok key => exact .inl ⟨key, rfl, alike.trans read⟩
  | error e => exact .inr ⟨e, e, rfl, alike.trans read⟩

theorem presentation_irrelevant_lowerCase : readSecret (narrow "m-y") = .ok [0x66] := by
  have padded : Presented (encode [0x66]) (narrow "MY" ++ List.replicate 6 padChar) := .itself
  have bare : Presented (encode [0x66]) (narrow "MY") :=
    .unpadded _ (.unpadded _ (.unpadded _ (.unpadded _ (.unpadded _ (.unpadded _ padded)))))
  have first : Presented (encode [0x66]) (narrow "mY") :=
    .respelt _ _ bare (.recased [] (narrow "Y") 77 109 (by unfold SameLetter; decide))
  have both : Presented (encode [0x66]) (narrow "my") :=
    .respelt _ _ first (.recased (narrow "m") [] 89 121 (by unfold SameLetter; decide))
  have spaced : Presented (encode [0x66]) (narrow "m-y") :=
    .respelt _ _ both (.separated (narrow "m") (narrow "y") 45 (.inr (.inr rfl)))
  exact presentation_irrelevant.1 [0x66] (narrow "m-y") spaced

end LoginHelper.SecretPresentation
