/- Unit: LoginHelper/PatternText
   source: src/loginhelper/searchers.h
   digest: Pattern bytes written as text in every way the header reads, and compiled back. -/

import LoginHelper.Searchers

set_option autoImplicit false
set_option relaxedAutoImplicit false

namespace LoginHelper.PatternText

open LoginHelper.Searchers

/-- `c` is the hexadecimal digit of worth `n`, in either case. -/
def HexDigit (n : Nat) (c : Char) : Prop :=
  "0123456789abcdef".toList[n]? = some c ∨ "0123456789ABCDEF".toList[n]? = some c

instance (n : Nat) (c : Char) : Decidable (HexDigit n c) := inferInstanceAs (Decidable (_ ∨ _))

def Wildcard (c : Char) : Prop := c = '?' ∨ c = '.'

/-- Neither the terminator of the text nor a character that says anything about a nibble. -/
structure Separator (c : Char) : Prop where
  inside : c ≠ '\x00'
  noWildcard : ¬ Wildcard c
  noDigit : ∀ n, ¬ HexDigit n c

/-- A pattern byte that masks whole nibbles and holds nothing outside its mask. -/
structure MaskedByte extends PatternByte where
  wholeNibbles : mask = 0x00 ∨ mask = 0x0f ∨ mask = 0xf0 ∨ mask = 0xff
  inMask : value &&& ~~~ mask = 0

/-- The two nibbles of a byte, high one first, `none` where the mask is clear. -/
def MaskedByte.nibbles (b : MaskedByte) : List (Option Nat) :=
  [if b.mask.toNat / 16 = 0 then none else some (b.value.toNat / 16),
    if b.mask.toNat % 16 = 0 then none else some (b.value.toNat % 16)]

/-- The ways to write nibbles as text. -/
inductive Spelling : List (Option Nat) → List Char → Prop
  | stop : Spelling [] []
  | skip {c : Char} {nibbles : List (Option Nat)} {text : List Char} :
      Separator c → Spelling nibbles text → Spelling nibbles (c :: text)
  | digit {c : Char} {n : Nat} {nibbles : List (Option Nat)} {text : List Char} :
      HexDigit n c → Spelling nibbles text → Spelling (some n :: nibbles) (c :: text)
  | wildcard {c : Char} {nibbles : List (Option Nat)} {text : List Char} :
      Wildcard c → Spelling nibbles text → Spelling (none :: nibbles) (c :: text)

/-- `text` writes the bytes, two nibbles a byte and separators anywhere. -/
def Writes (bytes : List MaskedByte) (text : List Char) : Prop :=
  Spelling (bytes.flatMap MaskedByte.nibbles) text

private theorem hexDigit_lt {n : Nat} {c : Char} (h : HexDigit n c) : n < 16 := by
  rcases h with h | h
  · exact (List.getElem?_eq_some_iff.mp h).1
  · exact (List.getElem?_eq_some_iff.mp h).1

private theorem digits_value : ∀ n < 16,
    ("0123456789abcdef".toList[n]?).bind tokenOf = some (.digit n) ∧
      ("0123456789ABCDEF".toList[n]?).bind tokenOf = some (.digit n) := by
  decide

private theorem tokenOf_digit {n : Nat} {c : Char} (h : HexDigit n c) :
    tokenOf c = some (.digit n) := by
  obtain ⟨lower, upper⟩ := digits_value n (hexDigit_lt h)
  rcases h with h | h
  · rwa [h] at lower
  · rwa [h] at upper

private theorem tokenOf_wildcard {c : Char} (h : Wildcard c) : tokenOf c = some .wildcard :=
  if_pos h

private theorem hexDigit_of_range {c : Char} {first last : Char} {d : Nat}
    (all : ∀ k < last.toNat - first.toNat + 1, HexDigit (k + d) (Char.ofNat (first.toNat + k)))
    (low : first ≤ c) (high : c ≤ last) : HexDigit (c.toNat - first.toNat + d) c := by
  have lowNat : first.toNat ≤ c.toNat := low
  have highNat : c.toNat ≤ last.toNat := high
  have digit := all (c.toNat - first.toNat) (by omega)
  simp only [Nat.add_sub_cancel' lowNat, Char.ofNat_toNat] at digit
  exact digit

private theorem hexDigit_of_nibbleValue {n : Nat} {c : Char} (h : nibbleValue c = some n) :
    HexDigit n c := by
  unfold nibbleValue at h
  split_ifs at h with decimal upper lower
  · obtain rfl := Option.some.inj h
    exact hexDigit_of_range (d := 0) (by decide) decimal.1 decimal.2
  · obtain rfl := Option.some.inj h
    exact hexDigit_of_range (d := 10) (by decide) upper.1 upper.2
  · obtain rfl := Option.some.inj h
    exact hexDigit_of_range (d := 10) (by decide) lower.1 lower.2

private theorem tokenOf_separator {c : Char} (h : Separator c) : tokenOf c = none := by
  have noWildcard : ¬ (c = '?' ∨ c = '.') := h.noWildcard
  rw [tokenOf, if_neg noWildcard, Option.map_eq_none_iff]
  cases value : nibbleValue c with
  | none => rfl
  | some n => exact absurd (hexDigit_of_nibbleValue value) (h.noDigit n)

private def nibbleToken : Option Nat → Token
  | none => .wildcard
  | some n => .digit n

private theorem tokens_spelling {nibbles : List (Option Nat)} {text : List Char}
    (spelling : Spelling nibbles text) : tokens text = nibbles.map nibbleToken := by
  induction spelling with
  | stop => rfl
  | skip separator _ ih =>
    rw [tokens, List.filterMap_cons_none (tokenOf_separator separator), ← ih]
    rfl
  | digit digit _ ih =>
    rw [tokens, List.filterMap_cons_some (tokenOf_digit digit), List.map_cons, ← ih]
    rfl
  | wildcard wildcard _ ih =>
    rw [tokens, List.filterMap_cons_some (tokenOf_wildcard wildcard), List.map_cons, ← ih]
    rfl

private theorem Spelling.append {nibbles more : List (Option Nat)} {text rest : List Char}
    (spelling : Spelling nibbles text) (next : Spelling more rest) :
    Spelling (nibbles ++ more) (text ++ rest) := by
  induction spelling with
  | stop => exact next
  | skip separator _ ih => exact ih.skip separator
  | digit digit _ ih => exact ih.digit digit
  | wildcard wildcard _ ih => exact ih.wildcard wildcard

theorem Writes.append {bytes more : List MaskedByte} {text rest : List Char}
    (written : Writes bytes text) (next : Writes more rest) :
    Writes (bytes ++ more) (text ++ rest) := by
  rw [Writes, List.flatMap_append]
  exact Spelling.append written next

private theorem ofTokens_nibbles : ∀ value : Fin 256, ∀ mask ∈ [(0x00 : UInt8), 0x0f, 0xf0, 0xff],
    UInt8.ofNat value &&& ~~~ mask = 0 →
      PatternByte.ofTokens
          (nibbleToken (if mask.toNat / 16 = 0 then none else some (value.val / 16)))
          (nibbleToken (if mask.toNat % 16 = 0 then none else some (value.val % 16))) =
        ⟨UInt8.ofNat value, mask⟩ := by
  decide +kernel

private theorem pack_nibbles (b : MaskedByte) (ts : List Token) :
    pack (b.nibbles.map nibbleToken ++ ts) = b.toPatternByte :: pack ts := by
  have listed : b.mask ∈ [(0x00 : UInt8), 0x0f, 0xf0, 0xff] := by
    simpa using b.wholeNibbles
  have back : UInt8.ofNat b.value.toNat = b.value := UInt8.ofNat_toNat
  have byte := ofTokens_nibbles ⟨b.value.toNat, b.value.toNat_lt⟩ b.mask listed
    (by rw [back]; exact b.inMask)
  rw [back] at byte
  exact congrArg (· :: pack ts) byte

/-- The compiler is a left inverse of every way to write pattern bytes. -/
private theorem compilePattern_of_writes {bytes : List MaskedByte} {text : List Char}
    (written : Writes bytes text) :
    compilePattern text = bytes.map MaskedByte.toPatternByte := by
  rw [compilePattern_eq, tokens_spelling written]
  clear written
  induction bytes with
  | nil => rfl
  | cons b bytes ih =>
    rw [List.flatMap_cons, List.map_append, pack_nibbles, ih, List.map_cons]

/-- A text written for some bytes compiles to exactly these, and two such texts
put together compile to the two lists put together. -/
theorem compiles_to_written {bytes : List MaskedByte} {text : List Char}
    (written : Writes bytes text) :
    compilePattern text = bytes.map MaskedByte.toPatternByte ∧
      ∀ (more : List MaskedByte) (rest : List Char), Writes more rest →
        compilePattern (text ++ rest) = compilePattern text ++ compilePattern rest := by
  refine ⟨compilePattern_of_writes written, ?_⟩
  intro more rest next
  rw [compilePattern_of_writes written, compilePattern_of_writes next,
    compilePattern_of_writes (written.append next), List.map_append]

private def opcode : MaskedByte := ⟨⟨0x8b, 0xff⟩, by decide, by decide⟩

private def lowNibble : MaskedByte := ⟨⟨0x0d, 0x0f⟩, by decide, by decide⟩

private theorem blank_separator : Separator ' ' := by
  refine ⟨by decide, by unfold Wildcard; decide, ?_⟩
  intro n digit
  have none16 : ∀ m < 16, ¬ HexDigit m ' ' := by decide
  exact none16 n (hexDigit_lt digit) digit

theorem compiles_to_written_opcode :
    compilePattern "8 B".toList = [⟨0x8b, 0xff⟩] ∧
      compilePattern ("8 B".toList ++ " .d".toList) =
        compilePattern "8 B".toList ++ compilePattern " .d".toList := by
  have first : Writes [opcode] "8 B".toList :=
    .digit (n := 8) (by decide) (.skip blank_separator (.digit (n := 11) (by decide) .stop))
  have second : Writes [lowNibble] " .d".toList :=
    .skip blank_separator (.wildcard (.inr rfl) (.digit (n := 13) (by decide) .stop))
  exact ⟨(compiles_to_written first).1, (compiles_to_written first).2 _ _ second⟩

end LoginHelper.PatternText
