/- Unit: LoginHelper/Searchers
   source: src/loginhelper/searchers.h
   digest: Byte patterns written as text, their compiler, and what a search with them finds. -/

import LoginHelper.Foundation.LeftmostMatch
import Mathlib.Algebra.Group.Nat.Even
import Mathlib.Tactic.IntervalCases

set_option autoImplicit false
set_option relaxedAutoImplicit false

namespace LoginHelper.Searchers

open LoginHelper.Foundation.LeftmostMatch

/-- `struct patternbyte`. -/
structure PatternByte where
  value : UInt8
  mask : UInt8
  deriving DecidableEq

/-- `patternbyte::clear`. -/
def PatternByte.clear : PatternByte := ⟨0, 0xff⟩

/-- `operator==(const uint8_t&, const patternbyte&)`. -/
def PatternByte.equals (left : UInt8) (right : PatternByte) : Bool :=
  (left &&& right.mask) == (right.value &&& right.mask)

def hexchtoint (ch : Char) : Int :=
  if '0' ≤ ch ∧ ch ≤ '9' then (ch.toNat : Int) - '0'.toNat
  else if 'A' ≤ ch ∧ ch ≤ 'F' then (ch.toNat : Int) - 'A'.toNat + 10
  else if 'a' ≤ ch ∧ ch ≤ 'f' then (ch.toNat : Int) - 'a'.toNat + 10
  else -1

/-- The locals of `compile_pattern`; `shift` is 4 before a high nibble, 0 before a low one. -/
structure CompileState where
  compiledPattern : List PatternByte
  b : PatternByte
  shift : Nat

def CompileState.advance (s : CompileState) : CompileState :=
  if s.shift = 0 then ⟨s.compiledPattern ++ [s.b], .clear, s.shift ^^^ 4⟩
  else { s with shift := s.shift ^^^ 4 }

def compileStep (s : CompileState) (c : Char) : CompileState :=
  if c = '?' ∨ c = '.' then
    { s with b.mask := s.b.mask &&& ~~~ UInt8.ofNat (0xf <<< s.shift) }.advance
  else if hexchtoint c ≠ -1 then
    { s with b.value :=
        s.b.value ||| UInt8.ofNat (((hexchtoint c).toNat &&& 0xf) <<< s.shift) }.advance
  else s

def compileFinish (s : CompileState) : List PatternByte :=
  if s.shift = 0 then
    s.compiledPattern ++ [{ s.b with mask := s.b.mask &&& 0xf }]
  else s.compiledPattern

/-- `compile_pattern` on the characters before the terminator. -/
def compilePattern (pattern : List Char) : List PatternByte :=
  compileFinish (pattern.foldl compileStep ⟨[], .clear, 4⟩)

/-- `std::search(data, pattern_searcher(text))`, `none` being the end of the data. -/
def patternSearcher (pattern : List Char) (data : List UInt8) : Option Nat :=
  if data = [] then none
  else if compilePattern pattern = [] then some 0
  else search PatternByte.equals data (compilePattern pattern)

/-- A pattern text is a sequence of nibbles to match or to skip. -/
inductive Token
  | wildcard
  | digit (n : Nat)
  deriving DecidableEq

def nibbleValue (c : Char) : Option Nat :=
  if '0' ≤ c ∧ c ≤ '9' then some (c.toNat - '0'.toNat)
  else if 'A' ≤ c ∧ c ≤ 'F' then some (c.toNat - 'A'.toNat + 10)
  else if 'a' ≤ c ∧ c ≤ 'f' then some (c.toNat - 'a'.toNat + 10)
  else none

def tokenOf (c : Char) : Option Token :=
  if c = '?' ∨ c = '.' then some .wildcard else (nibbleValue c).map .digit

/-- The tokens of a text; every other character is ignored. -/
def tokens (pattern : List Char) : List Token := pattern.filterMap tokenOf

/-- Nibble `k` of a pattern concerns the high half of its byte when `k` is even. -/
def nibble (byte : UInt8) (k : Nat) : Nat :=
  if k % 2 = 0 then byte.toNat / 16 else byte.toNat % 16

/-- The data from `i` on has room for the pattern and agrees with every digit of it. -/
def TokensMatchAt (ts : List Token) (data : List UInt8) (i : Nat) : Prop :=
  i + (ts.length + 1) / 2 ≤ data.length ∧
    ∀ k n byte, ts[k]? = some (.digit n) → data[i + k / 2]? = some byte → nibble byte k = n

def PatternByte.apply (b : PatternByte) (shift : Nat) : Token → PatternByte
  | .wildcard => { b with mask := b.mask &&& ~~~ UInt8.ofNat (0xf <<< shift) }
  | .digit n => { b with value := b.value ||| UInt8.ofNat ((n &&& 0xf) <<< shift) }

def PatternByte.ofTokens (hi lo : Token) : PatternByte :=
  (PatternByte.clear.apply 4 hi).apply 0 lo

def PatternByte.unpaired (hi : Token) : PatternByte :=
  let b := PatternByte.clear.apply 4 hi
  { b with mask := b.mask &&& 0xf }

def pack : List Token → List PatternByte
  | [] => []
  | [hi] => [.unpaired hi]
  | hi :: lo :: rest => .ofTokens hi lo :: pack rest

private def tokenStep (s : CompileState) (t : Token) : CompileState :=
  { s with b := s.b.apply s.shift t }.advance

private theorem hexchtoint_eq (c : Char) :
    hexchtoint c = match nibbleValue c with
      | some n => (n : Int)
      | none => -1 := by
  unfold hexchtoint nibbleValue
  have nat_le {a b : Char} (h : a ≤ b) : a.toNat ≤ b.toNat := h
  split_ifs with h1 h2 h3
  · have := nat_le h1.1
    simp only [Nat.cast_sub this]
  · have := nat_le h2.1
    simp only [Nat.cast_add, Nat.cast_sub this, Nat.cast_ofNat]
  · have := nat_le h3.1
    simp only [Nat.cast_add, Nat.cast_sub this, Nat.cast_ofNat]
  · rfl

private theorem nibbleValue_lt {c : Char} {n : Nat} (h : nibbleValue c = some n) : n < 16 := by
  have nat_le {a b : Char} (h : a ≤ b) : a.toNat ≤ b.toNat := h
  unfold nibbleValue at h
  split_ifs at h with h1 h2 h3
  · have := nat_le h1.2
    simp only [Option.some.injEq, Char.reduceToNat] at h this
    omega
  · have := nat_le h2.2
    simp only [Option.some.injEq, Char.reduceToNat] at h this
    omega
  · have := nat_le h3.2
    simp only [Option.some.injEq, Char.reduceToNat] at h this
    omega

theorem digit_lt_of_mem_tokens {pattern : List Char} {n : Nat}
    (h : Token.digit n ∈ tokens pattern) : n < 16 := by
  obtain ⟨c, -, hc⟩ := List.mem_filterMap.mp h
  unfold tokenOf at hc
  split_ifs at hc
  · cases hc
  · obtain ⟨m, hm, he⟩ := Option.map_eq_some_iff.mp hc
    cases he
    exact nibbleValue_lt hm

private theorem compileStep_eq (s : CompileState) (c : Char) :
    compileStep s c = match tokenOf c with
      | some t => tokenStep s t
      | none => s := by
  unfold compileStep tokenOf
  by_cases hw : c = '?' ∨ c = '.'
  · simp only [if_pos hw]
    rfl
  · simp only [if_neg hw, hexchtoint_eq]
    cases hn : nibbleValue c with
    | none => simp
    | some n =>
      have : (n : Int) ≠ -1 := by omega
      simp [this, tokenStep, PatternByte.apply]

private theorem foldl_compileStep (pattern : List Char) (s : CompileState) :
    pattern.foldl compileStep s = (tokens pattern).foldl tokenStep s := by
  induction pattern generalizing s with
  | nil => rfl
  | cons c pattern ih =>
    rw [List.foldl_cons, compileStep_eq, ih, tokens, tokens]
    cases hc : tokenOf c with
    | none => simp [hc]
    | some t => simp [hc]

/-- Between bytes the loop holds a cleared byte and the high phase. -/
private theorem finish_tokens (cs : List PatternByte) (ts : List Token) :
    compileFinish (ts.foldl tokenStep ⟨cs, .clear, 4⟩) = cs ++ pack ts := by
  induction ts using pack.induct generalizing cs with
  | case1 => simp [compileFinish, pack]
  | case2 hi => simp [compileFinish, pack, tokenStep, CompileState.advance, PatternByte.unpaired]
  | case3 hi lo rest ih =>
    have twoSteps : tokenStep (tokenStep ⟨cs, .clear, 4⟩ hi) lo =
        ⟨cs ++ [.ofTokens hi lo], .clear, 4⟩ := by
      simp [tokenStep, CompileState.advance, PatternByte.ofTokens]
    rw [List.foldl_cons, List.foldl_cons, twoSteps, ih, pack]
    simp

/-- The compiler packs the tokens of its text. -/
theorem compilePattern_eq (pattern : List Char) :
    compilePattern pattern = pack (tokens pattern) := by
  rw [compilePattern, foldl_compileStep, finish_tokens, List.nil_append]

private theorem pack_length (ts : List Token) : (pack ts).length = (ts.length + 1) / 2 := by
  induction ts using pack.induct with
  | case1 => rfl
  | case2 hi => simp [pack]
  | case3 hi lo rest ih =>
    simp only [pack, List.length_cons, ih]
    omega

private theorem pack_pair (ts : List Token) (k : Nat) (hi lo : Token)
    (hhi : ts[2 * k]? = some hi) (hlo : ts[2 * k + 1]? = some lo) :
    (pack ts)[k]? = some (.ofTokens hi lo) := by
  induction ts using pack.induct generalizing k with
  | case1 => simp at hhi
  | case2 t => simp at hlo
  | case3 t u rest ih =>
    cases k with
    | zero =>
      simp only [Nat.mul_zero, List.getElem?_cons_zero, Option.some.injEq, Nat.zero_add,
        List.getElem?_cons_succ] at hhi hlo
      subst hhi hlo
      rfl
    | succ k =>
      rw [show 2 * (k + 1) = 2 * k + 1 + 1 by omega] at hhi
      rw [show 2 * (k + 1) + 1 = 2 * k + 1 + 1 + 1 by omega] at hlo
      simp only [List.getElem?_cons_succ] at hhi hlo
      simpa [pack] using ih k hhi hlo

private theorem pack_last (ts : List Token) (k : Nat) (hi : Token)
    (hlen : ts.length = 2 * k + 1) (hhi : ts[2 * k]? = some hi) :
    (pack ts)[k]? = some (.unpaired hi) := by
  induction ts using pack.induct generalizing k with
  | case1 => simp at hhi
  | case2 t =>
    obtain rfl : k = 0 := by simpa using hlen
    simp only [Nat.mul_zero, List.getElem?_cons_zero, Option.some.injEq] at hhi
    subst hhi
    rfl
  | case3 t u rest ih =>
    obtain ⟨k, rfl⟩ : ∃ j, k = j + 1 := ⟨k - 1, by simp only [List.length_cons] at hlen; omega⟩
    rw [show 2 * (k + 1) = 2 * k + 1 + 1 by omega] at hhi
    simp only [List.getElem?_cons_succ] at hhi
    have hlen' : rest.length = 2 * k + 1 := by
      simp only [List.length_cons] at hlen
      omega
    simpa [pack] using ih k hlen' hhi

private theorem highDigit_equals : ∀ byte : Fin 256, ∀ n : Fin 16,
    PatternByte.equals (UInt8.ofNat byte) (.ofTokens (.digit n) .wildcard) =
      decide (byte.val / 16 = n) := by
  decide +kernel

private theorem lowDigit_equals : ∀ byte : Fin 256, ∀ n : Fin 16,
    PatternByte.equals (UInt8.ofNat byte) (.ofTokens .wildcard (.digit n)) =
      decide (byte.val % 16 = n) := by
  decide +kernel

private theorem bothDigits_value : ∀ h l : Fin 16,
    (PatternByte.ofTokens (.digit h) (.digit l)).value.toNat = 16 * h + l ∧
      (PatternByte.ofTokens (.digit h) (.digit l)).mask = 255 := by
  decide +kernel

private theorem unpaired_equals : ∀ byte : Fin 256, ∀ n : Fin 16,
    PatternByte.equals (UInt8.ofNat byte) (.unpaired (.digit n)) =
        decide (byte.val % 16 = 0) ∧
      PatternByte.equals (UInt8.ofNat byte) (.unpaired .wildcard) =
        decide (byte.val % 16 = 0) := by
  decide +kernel

private def Token.Small (t : Token) : Prop := ∀ n, t = .digit n → n < 16

private theorem equals_ofTokens (byte : UInt8) (hi lo : Token) (hhi : hi.Small) (hlo : lo.Small) :
    PatternByte.equals byte (.ofTokens hi lo) = true ↔
      (∀ n, hi = .digit n → byte.toNat / 16 = n) ∧
        ∀ n, lo = .digit n → byte.toNat % 16 = n := by
  have small : byte.toNat < 256 := byte.toNat_lt
  have back : UInt8.ofNat byte.toNat = byte := UInt8.ofNat_toNat
  cases hi with
  | wildcard =>
    cases lo with
    | wildcard =>
      have mask : (PatternByte.ofTokens .wildcard .wildcard).mask = 0 := by decide
      simp [PatternByte.equals, mask]
    | digit l =>
      have key := lowDigit_equals ⟨byte.toNat, small⟩ ⟨l, hlo l rfl⟩
      simp only [back] at key
      simp [key]
  | digit h =>
    cases lo with
    | wildcard =>
      have key := highDigit_equals ⟨byte.toNat, small⟩ ⟨h, hhi h rfl⟩
      simp only [back] at key
      simp [key]
    | digit l =>
      have hlt := hhi h rfl
      have llt := hlo l rfl
      obtain ⟨value, mask⟩ := bothDigits_value ⟨h, hlt⟩ ⟨l, llt⟩
      dsimp only at value mask
      have whole : ∀ b : UInt8, b &&& 255 = b := fun _ => UInt8.and_neg_one
      rw [PatternByte.equals, mask, whole, whole, beq_iff_eq, ← UInt8.toNat_inj, value]
      simp only [Token.digit.injEq, forall_eq']
      omega

private theorem equals_unpaired (byte : UInt8) (hi : Token) (hhi : hi.Small) :
    PatternByte.equals byte (.unpaired hi) = true ↔ byte.toNat % 16 = 0 := by
  have small : byte.toNat < 256 := byte.toNat_lt
  have back : UInt8.ofNat byte.toNat = byte := UInt8.ofNat_toNat
  cases hi with
  | wildcard =>
    have key := (unpaired_equals ⟨byte.toNat, small⟩ 0).2
    simp only [back] at key
    simp [key]
  | digit n =>
    have key := (unpaired_equals ⟨byte.toNat, small⟩ ⟨n, hhi n rfl⟩).1
    simp only [back] at key
    simp [key]

private theorem tokens_small (pattern : List Char) :
    ∀ t ∈ tokens pattern, t.Small := by
  intro t ht n he
  subst he
  exact digit_lt_of_mem_tokens ht

private theorem nibble_even (byte : UInt8) (k : Nat) : nibble byte (2 * k) = byte.toNat / 16 := by
  simp [nibble]

private theorem nibble_odd (byte : UInt8) (k : Nat) : nibble byte (2 * k + 1) = byte.toNat % 16 := by
  simp [nibble]

private theorem matchesAt_pack (ts : List Token) (small : ∀ t ∈ ts, t.Small)
    (paired : Even ts.length) (data : List UInt8) (i : Nat) :
    MatchesAt PatternByte.equals data (pack ts) i ↔ TokensMatchAt ts data i := by
  obtain ⟨m, hm⟩ := paired
  have bytes : ∀ k < m, ∃ hi lo, ts[2 * k]? = some hi ∧ ts[2 * k + 1]? = some lo ∧
      (pack ts)[k]? = some (.ofTokens hi lo) ∧ hi.Small ∧ lo.Small := by
    intro k hk
    have hhi : 2 * k < ts.length := by omega
    have hlo : 2 * k + 1 < ts.length := by omega
    exact ⟨_, _, List.getElem?_eq_getElem hhi, List.getElem?_eq_getElem hlo,
      pack_pair ts k _ _ (List.getElem?_eq_getElem hhi) (List.getElem?_eq_getElem hlo),
      small _ (List.getElem_mem hhi), small _ (List.getElem_mem hlo)⟩
  simp only [MatchesAt, TokensMatchAt, pack_length]
  apply and_congr_right
  intro room
  constructor
  · intro all j n byte hj hbyte
    have hjlt : j < ts.length := (List.getElem?_eq_some_iff.mp hj).1
    obtain ⟨hi, lo, hhi, hlo, hp, shi, slo⟩ := bytes (j / 2) (by omega)
    have equal := (equals_ofTokens byte hi lo shi slo).mp (all (j / 2) byte _ hbyte hp)
    rcases Nat.even_or_odd' j with ⟨c, rfl | rfl⟩
    · rw [show 2 * c / 2 = c by omega, hj] at hhi
      rw [nibble_even]
      exact equal.1 n (Option.some.inj hhi).symm
    · rw [show (2 * c + 1) / 2 = c by omega, hj] at hlo
      rw [nibble_odd]
      exact equal.2 n (Option.some.inj hlo).symm
  · intro all k byte p hbyte hp
    have hk : k < m := by
      have := (List.getElem?_eq_some_iff.mp hp).1
      rw [pack_length] at this
      omega
    obtain ⟨hi, lo, hhi, hlo, hp', shi, slo⟩ := bytes k hk
    obtain rfl : p = .ofTokens hi lo := Option.some.inj (hp.symm.trans hp')
    refine (equals_ofTokens byte hi lo shi slo).mpr ⟨?_, ?_⟩
    · rintro n rfl
      rw [← nibble_even byte k]
      exact all (2 * k) n byte hhi (by rwa [show 2 * k / 2 = k by omega])
    · rintro n rfl
      rw [← nibble_odd byte k]
      exact all (2 * k + 1) n byte hlo (by rwa [show (2 * k + 1) / 2 = k by omega])

private theorem patternSearcher_eq (pattern : List Char) (data : List UInt8) (h : data ≠ []) :
    patternSearcher pattern data = search PatternByte.equals data (pack (tokens pattern)) := by
  obtain ⟨byte, rest, rfl⟩ := List.exists_cons_of_ne_nil h
  rw [patternSearcher, if_neg h, compilePattern_eq]
  split
  · rename_i empty
    rw [empty, search, if_pos (by rw [fits])]
  · rfl

theorem patternSearcher_paired (pattern : List Char) (paired : Even (tokens pattern).length)
    (data : List UInt8) (h : data ≠ []) :
    Leftmost (TokensMatchAt (tokens pattern) data) (patternSearcher pattern data) := by
  rw [patternSearcher_eq pattern data h]
  have same := matchesAt_pack (tokens pattern) (tokens_small pattern) paired data
  exact (Leftmost.congr same _).mp (search_leftmost PatternByte.equals data _)

private def Token.worth : Token → Nat
  | .wildcard => 0
  | .digit n => n

/-- Data that shows every token's own nibble, and a 1 below an unpaired last token. -/
def specimenByte (ts : List Token) (k : Nat) : UInt8 :=
  UInt8.ofNat (16 * ((ts[2 * k]?).elim 0 Token.worth) + (ts[2 * k + 1]?).elim 1 Token.worth)

def specimen (ts : List Token) : List UInt8 :=
  (List.range ((ts.length + 1) / 2)).map (specimenByte ts)

private theorem worth_lt {t : Token} (h : t.Small) : t.worth < 16 := by
  cases t with
  | wildcard => decide
  | digit n => exact h n rfl

private theorem elim_worth_lt {ts : List Token} (small : ∀ t ∈ ts, t.Small) (k d : Nat)
    (hd : d < 16) : (ts[k]?).elim d Token.worth < 16 := by
  cases hk : ts[k]? with
  | none => exact hd
  | some t => exact worth_lt (small t (List.mem_of_getElem? hk))

private theorem specimenByte_toNat {ts : List Token} (small : ∀ t ∈ ts, t.Small) (k : Nat) :
    (specimenByte ts k).toNat =
      16 * ((ts[2 * k]?).elim 0 Token.worth) + (ts[2 * k + 1]?).elim 1 Token.worth := by
  have hi := elim_worth_lt small (2 * k) 0 (by decide)
  have lo := elim_worth_lt small (2 * k + 1) 1 (by decide)
  rw [specimenByte, UInt8.toNat_ofNat']
  omega

private theorem specimen_getElem? {ts : List Token} {k : Nat} {byte : UInt8}
    (h : (specimen ts)[k]? = some byte) : byte = specimenByte ts k := by
  simp only [specimen, List.getElem?_map] at h
  obtain ⟨j, hj, rfl⟩ := Option.map_eq_some_iff.mp h
  obtain ⟨-, rfl⟩ := List.getElem?_eq_some_iff.mp hj
  simp

private theorem specimen_matches {ts : List Token} (small : ∀ t ∈ ts, t.Small) :
    TokensMatchAt ts (specimen ts) 0 := by
  refine ⟨by simp [specimen], ?_⟩
  intro k n byte hk hbyte
  rw [Nat.zero_add] at hbyte
  obtain rfl := specimen_getElem? hbyte
  have value := specimenByte_toNat small (k / 2)
  have hi := elim_worth_lt small (2 * (k / 2)) 0 (by decide)
  have lo := elim_worth_lt small (2 * (k / 2) + 1) 1 (by decide)
  rcases Nat.even_or_odd' k with ⟨c, rfl | rfl⟩
  · rw [nibble_even]
    rw [show 2 * c / 2 = c by omega] at value hi lo ⊢
    rw [hk] at value hi
    simp only [Option.elim_some, Token.worth] at value hi
    omega
  · rw [nibble_odd]
    rw [show (2 * c + 1) / 2 = c by omega] at value hi lo ⊢
    rw [hk] at value lo
    simp only [Option.elim_some, Token.worth] at value lo
    omega

private theorem specimen_missed {ts : List Token} (small : ∀ t ∈ ts, t.Small)
    (unpaired : ¬ Even ts.length) :
    search PatternByte.equals (specimen ts) (pack ts) = none := by
  obtain ⟨m, hm⟩ := Nat.not_even_iff_odd.mp unpaired
  have leftmost := search_leftmost PatternByte.equals (specimen ts) (pack ts)
  cases found : search PatternByte.equals (specimen ts) (pack ts) with
  | none => rfl
  | some i =>
    exfalso
    rw [found] at leftmost
    obtain ⟨room, all⟩ := leftmost.1
    have length : (specimen ts).length = m + 1 := by
      simp only [specimen, List.length_map, List.length_range]
      omega
    rw [pack_length, length] at room
    obtain rfl : i = 0 := by omega
    have hlast : 2 * m < ts.length := by omega
    have hts := List.getElem?_eq_getElem hlast
    have hbyte := List.getElem?_eq_getElem (show m < (specimen ts).length by omega)
    have equal := all m _ _ (by rw [Nat.zero_add]; exact hbyte) (pack_last ts m _ hm hts)
    rw [equals_unpaired _ _ (small _ (List.getElem_mem hlast)), specimen_getElem? hbyte,
      specimenByte_toNat small] at equal
    have beyond : ts[2 * m + 1]? = none := List.getElem?_eq_none (by omega)
    rw [beyond] at equal
    simp only [Option.elim_none] at equal
    omega

/-- What a search with a pattern text ought to return on every section of data. -/
def SearchesAsWritten (pattern : List Char) : Prop :=
  ∀ data : List UInt8, data ≠ [] →
    Leftmost (TokensMatchAt (tokens pattern) data) (patternSearcher pattern data)

/-- A pattern text is searched as written exactly when its nibbles pair up into
bytes: the epilogue keeps the wrong half of the mask of an unpaired one. -/
theorem searches_as_written_iff (pattern : List Char) :
    SearchesAsWritten pattern ↔ Even (tokens pattern).length := by
  constructor
  · intro searches
    by_contra unpaired
    have small := tokens_small pattern
    have nonempty : specimen (tokens pattern) ≠ [] := by
      obtain ⟨m, hm⟩ := Nat.not_even_iff_odd.mp unpaired
      apply List.ne_nil_of_length_pos
      simp only [specimen, List.length_map, List.length_range]
      omega
    have leftmost := searches _ nonempty
    rw [patternSearcher_eq _ _ nonempty, specimen_missed small unpaired] at leftmost
    exact leftmost 0 (specimen_matches small)
  · intro paired data h
    exact patternSearcher_paired pattern paired data h

/-- A lone `4` ought to find the byte 0x41 and does not. -/
theorem lone_nibble_not_searched : ¬ SearchesAsWritten "4".toList := by
  intro searches
  have leftmost := searches [0x41] (by decide)
  rw [show patternSearcher "4".toList [0x41] = none by decide,
    show tokens "4".toList = [.digit 4] by decide] at leftmost
  refine leftmost 0 ⟨by decide, ?_⟩
  intro k n byte hk hbyte
  cases k with
  | zero =>
    simp only [List.getElem?_cons_zero, Option.some.injEq, Token.digit.injEq] at hk
    simp only [Nat.zero_div, Nat.add_zero, List.getElem?_cons_zero, Option.some.injEq] at hbyte
    subst hk hbyte
    decide
  | succ k => simp at hk

end LoginHelper.Searchers
