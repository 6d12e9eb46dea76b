/- Unit: LoginHelper/Foundation/Base32
   layer: library
   digest: Base32 as the standard defines it, its texts with or without padding, and their groups. -/

import LoginHelper.Foundation.HashStandard

set_option autoImplicit false
set_option relaxedAutoImplicit false

namespace LoginHelper.Foundation.Base32

open LoginHelper.Foundation.HashStandard (Byte)

def number (base : Nat) (digits : List Nat) : Nat := digits.foldl (fun n d => base * n + d) 0

/-- The lowest `count` digits of a number. -/
def digits (base : Nat) : Nat → Nat → List Nat
  | 0, _ => []
  | count + 1, n => digits base count (n / base) ++ [n % base]

theorem number_snoc (base : Nat) (ds : List Nat) (d : Nat) :
    number base (ds ++ [d]) = base * number base ds + d := by
  rw [number, List.foldl_append]
  rfl

@[simp] theorem digits_length (base count n : Nat) : (digits base count n).length = count := by
  induction count generalizing n with
  | zero => rfl
  | succ count ih => rw [digits, List.length_append, ih, List.length_singleton]

theorem digits_lt {base : Nat} (positive : 0 < base) {count n d : Nat}
    (member : d ∈ digits base count n) : d < base := by
  induction count generalizing n with
  | zero => cases member
  | succ count ih =>
    rcases List.mem_append.mp member with front | last
    · exact ih front
    · rw [List.mem_singleton.mp last]
      exact Nat.mod_lt n positive

theorem number_lt {base : Nat} (ds : List Nat) (small : ∀ d ∈ ds, d < base) :
    number base ds < base ^ ds.length := by
  induction ds using List.reverseRecOn with
  | nil => exact Nat.one_pos
  | append_singleton ds d ih =>
    have front := ih fun e he => small e (List.mem_append_left _ he)
    have last := small d (by simp)
    have room : base * number base ds + base ≤ base * base ^ ds.length :=
      Nat.mul_le_mul_left base front
    rw [number_snoc, List.length_append, List.length_singleton, Nat.pow_succ, Nat.mul_comm _ base]
    omega

theorem digits_number {base : Nat} (ds : List Nat) (small : ∀ d ∈ ds, d < base) :
    digits base ds.length (number base ds) = ds := by
  induction ds using List.reverseRecOn with
  | nil => rfl
  | append_singleton ds d ih =>
    have last := small d (by simp)
    have front : (base * number base ds + d) / base = number base ds := by
      rw [Nat.mul_add_div (by omega), Nat.div_eq_of_lt last, Nat.add_zero]
    have low : (base * number base ds + d) % base = d := by
      rw [Nat.mul_add_mod, Nat.mod_eq_of_lt last]
    rw [number_snoc, List.length_append, List.length_singleton, digits, front, low,
      ih fun e he => small e (List.mem_append_left _ he)]

theorem number_digits {base : Nat} (count n : Nat) (bound : n < base ^ count) :
    number base (digits base count n) = n := by
  induction count generalizing n with
  | zero =>
    have zero : n = 0 := by simpa using bound
    rw [zero]
    rfl
  | succ count ih =>
    have front : n / base < base ^ count := by
      rw [Nat.div_lt_iff_lt_mul (by
        rcases Nat.eq_zero_or_pos base with rfl | positive
        · simp at bound
        · exact positive)]
      rwa [← Nat.pow_succ]
    rw [digits, number_snoc, ih _ front, Nat.div_add_mod]

theorem digits_eq_map (base count n : Nat) :
    digits base count n = (List.range count).map fun i => n / base ^ (count - 1 - i) % base := by
  induction count generalizing n with
  | zero => rfl
  | succ count ih =>
    rw [digits, ih, List.range_succ, List.map_append, List.map_singleton]
    congr 1
    · apply List.map_congr_left
      intro i hi
      have below : i < count := List.mem_range.mp hi
      have exponent : count + 1 - 1 - i = count - 1 - i + 1 := by omega
      rw [exponent, Nat.pow_succ, Nat.mul_comm, Nat.div_div_eq_div_mul]
    · rw [Nat.add_sub_cancel, Nat.sub_self, Nat.pow_zero, Nat.div_one]

/-- The character for five bits: `A` to `Z`, then `2` to `7`. -/
def symbol (d : Nat) : UInt8 := UInt8.ofNat (if d < 26 then 65 + d else 50 + (d - 26))

def padChar : UInt8 := 61

def IsSymbol (c : UInt8) : Prop := (65 ≤ c ∧ c ≤ 90) ∨ (50 ≤ c ∧ c ≤ 55)

instance (c : UInt8) : Decidable (IsSymbol c) := inferInstanceAs (Decidable (_ ∨ _))

theorem symbol_toNat {d : Nat} (small : d < 32) :
    (symbol d).toNat = if d < 26 then 65 + d else 50 + (d - 26) := by
  rw [symbol, UInt8.toNat_ofNat']
  apply Nat.mod_eq_of_lt
  split <;> omega

theorem isSymbol_symbol {d : Nat} (small : d < 32) : IsSymbol (symbol d) := by
  have value := symbol_toNat small
  simp only [IsSymbol, UInt8.le_iff_toNat_le, UInt8.reduceToNat, value]
  split <;> omega

theorem exists_symbol {c : UInt8} (h : IsSymbol c) : ∃ d < 32, symbol d = c := by
  simp only [IsSymbol, UInt8.le_iff_toNat_le, UInt8.reduceToNat] at h
  rcases h with ⟨low, high⟩ | ⟨low, high⟩
  · refine ⟨c.toNat - 65, by omega, UInt8.toNat_inj.mp ?_⟩
    rw [symbol_toNat (by omega), if_pos (by omega)]
    omega
  · refine ⟨c.toNat - 50 + 26, by omega, UInt8.toNat_inj.mp ?_⟩
    rw [symbol_toNat (by omega), if_neg (by omega)]
    omega

theorem isSymbol_ne_pad {c : UInt8} (h : IsSymbol c) : c ≠ padChar := by
  rintro rfl
  revert h
  decide

theorem exists_symbols {s : List UInt8} (h : ∀ c ∈ s, IsSymbol c) :
    ∃ ds : List Nat, (∀ d ∈ ds, d < 32) ∧ ds.map symbol = s := by
  induction s with
  | nil => exact ⟨[], by simp, rfl⟩
  | cons c s ih =>
    obtain ⟨d, small, same⟩ := exists_symbol (h c List.mem_cons_self)
    obtain ⟨ds, smalls, sames⟩ := ih fun e he => h e (List.mem_cons_of_mem c he)
    refine ⟨d :: ds, ?_, by rw [List.map_cons, same, sames]⟩
    intro e he
    rcases List.mem_cons.mp he with rfl | rest
    · exact small
    · exact smalls e rest

def symbolCount (bytes : Nat) : Nat := (8 * bytes + 4) / 5

def byteCount (symbols : Nat) : Nat := 5 * symbols / 8

def encodeGroup (bytes : List Byte) : List UInt8 :=
  let count := symbolCount bytes.length
  (digits 32 count (number 256 (bytes.map BitVec.toNat) *
      2 ^ (5 * count - 8 * bytes.length))).map symbol ++
    List.replicate (8 - count) padChar

def decodeGroup (ds : List Nat) : List Byte :=
  let count := byteCount ds.length
  (digits 256 count (number 32 ds / 2 ^ (5 * ds.length - 8 * count))).map (BitVec.ofNat 8)

/-- The Base32 text of a byte string (RFC 4648). -/
def encode : List Byte → List UInt8
  | [] => []
  | a :: b :: c :: d :: e :: rest => encodeGroup [a, b, c, d, e] ++ encode rest
  | rest => encodeGroup rest

/-- A well formed group: characters for whole bytes, filled up with padding. -/
structure GroupOf (ds : List Nat) (g : List UInt8) : Prop where
  small : ∀ d ∈ ds, d < 32
  count : ds.length ∈ [2, 4, 5, 7, 8]
  text : g = ds.map symbol ++ List.replicate (8 - ds.length) padChar

theorem GroupOf.count_cases {ds : List Nat} {g : List UInt8} (group : GroupOf ds g) :
    ds.length = 2 ∨ ds.length = 4 ∨ ds.length = 5 ∨ ds.length = 7 ∨ ds.length = 8 := by
  simpa using group.count

theorem GroupOf.length {ds : List Nat} {g : List UInt8} (group : GroupOf ds g) : g.length = 8 := by
  have count := group.count_cases
  rw [group.text, List.length_append, List.length_map, List.length_replicate]
  omega

theorem decodeGroup_length (ds : List Nat) : (decodeGroup ds).length = byteCount ds.length := by
  rw [decodeGroup, List.length_map, digits_length]

def leftover (ds : List Nat) : Nat :=
  number 32 ds % 2 ^ (5 * ds.length - 8 * byteCount ds.length)

theorem encodeGroup_exact (bytes : List Byte) (positive : 0 < bytes.length)
    (bound : bytes.length ≤ 5) :
    ∃ ds, GroupOf ds (encodeGroup bytes) ∧ decodeGroup ds = bytes ∧ leftover ds = 0 := by
  let count := symbolCount bytes.length
  let value := number 256 (bytes.map BitVec.toNat)
  let ds := digits 32 count (value * 2 ^ (5 * count - 8 * bytes.length))
  have length : ds.length = count := digits_length _ _ _
  have counts : count = (8 * bytes.length + 4) / 5 := rfl
  have whole : byteCount count = bytes.length := by
    unfold byteCount
    omega
  have small : ∀ n ∈ bytes.map BitVec.toNat, n < 256 := by
    intro n member
    obtain ⟨b, -, rfl⟩ := List.mem_map.mp member
    exact b.isLt
  have fits : value * 2 ^ (5 * count - 8 * bytes.length) < 32 ^ count := by
    have below : value < 256 ^ bytes.length := by
      simpa using number_lt _ small
    have powers : 32 ^ count = 256 ^ bytes.length * 2 ^ (5 * count - 8 * bytes.length) := by
      rw [show 32 = 2 ^ 5 by rfl, show 256 = 2 ^ 8 by rfl, ← Nat.pow_mul, ← Nat.pow_mul,
        ← Nat.pow_add]
      congr 1
      omega
    rw [powers]
    exact Nat.mul_lt_mul_of_pos_right below (Nat.two_pow_pos _)
  refine ⟨ds, ⟨fun d => digits_lt (by decide), ?_, ?_⟩, ?_, ?_⟩
  · rw [length, counts]
    obtain h | h | h | h | h : bytes.length = 1 ∨ bytes.length = 2 ∨ bytes.length = 3 ∨
        bytes.length = 4 ∨ bytes.length = 5 := by omega
    all_goals rw [h]; decide
  · rw [length]
    rfl
  · rw [decodeGroup, length, whole, number_digits count _ fits,
      Nat.mul_div_cancel _ (Nat.two_pow_pos _)]
    have back := digits_number (bytes.map BitVec.toNat) small
    rw [List.length_map] at back
    rw [back, List.map_map]
    simp [Function.comp_def]
  · rw [leftover, length, whole, number_digits count _ fits, Nat.mul_mod_left]

theorem encodeGroup_group (bytes : List Byte) (positive : 0 < bytes.length)
    (bound : bytes.length ≤ 5) :
    ∃ ds, GroupOf ds (encodeGroup bytes) ∧ decodeGroup ds = bytes := by
  obtain ⟨ds, group, back, -⟩ := encodeGroup_exact bytes positive bound
  exact ⟨ds, group, back⟩

/-- A text of Base32 whose padding may be complete, partial or missing: characters for
whole bytes, then at most the padding that fills the last group. -/
def IsText (t : List UInt8) (count : Nat) : Prop :=
  ∃ letters pads, t = letters ++ List.replicate pads padChar ∧ (∀ c ∈ letters, IsSymbol c) ∧
    letters.length = count ∧ count % 8 ∈ [0, 2, 4, 5, 7] ∧ pads ≤ (8 - count % 8) % 8

def fill (t : List UInt8) : List UInt8 :=
  t ++ List.replicate ((8 - t.length % 8) % 8) padChar

theorem fill_length (t : List UInt8) : (fill t).length % 8 = 0 := by
  rw [fill, List.length_append, List.length_replicate]
  omega

theorem exists_groups {α : Type} (s : List α) (whole : s.length % 8 = 0) :
    ∃ gs : List (List α), gs.flatten = s ∧ ∀ g ∈ gs, g.length = 8 := by
  obtain ⟨n, length⟩ : ∃ n, s.length = 8 * n := ⟨s.length / 8, by omega⟩
  clear whole
  induction n generalizing s with
  | zero => exact ⟨[], (List.length_eq_zero_iff.mp length).symm, by simp⟩
  | succ n ih =>
    obtain ⟨gs, flat, eight⟩ := ih (s.drop 8) (by rw [List.length_drop]; omega)
    refine ⟨s.take 8 :: gs, by rw [List.flatten_cons, flat, List.take_append_drop], ?_⟩
    intro g member
    rcases List.mem_cons.mp member with rfl | rest
    · rw [List.length_take]
      omega
    · exact eight g rest

theorem flatten_length {α : Type} {gs : List (List α)} (eight : ∀ g ∈ gs, g.length = 8) :
    gs.flatten.length = 8 * gs.length := by
  induction gs with
  | nil => rfl
  | cons g gs ih =>
    rw [List.flatten_cons, List.length_append, eight g List.mem_cons_self,
      ih fun h member => eight h (List.mem_cons_of_mem g member), List.length_cons]
    omega

theorem exists_last {α : Type} {t : List α} (nonempty : t ≠ []) :
    ∃ (gs : List (List α)) (last : List α), t = gs.flatten ++ last ∧ (∀ g ∈ gs, g.length = 8) ∧
      0 < last.length ∧ last.length ≤ 8 := by
  have positive : 0 < t.length := List.length_pos_iff.mpr nonempty
  let cut := 8 * ((t.length - 1) / 8)
  obtain ⟨gs, flat, eight⟩ := exists_groups (t.take cut) (by rw [List.length_take]; omega)
  refine ⟨gs, t.drop cut, by rw [flat, List.take_append_drop], eight, ?_, ?_⟩
  · rw [List.length_drop]
    omega
  · rw [List.length_drop]
    omega

theorem fill_groups {gs : List (List UInt8)} {last : List UInt8} (eight : ∀ g ∈ gs, g.length = 8)
    (positive : 0 < last.length) (bound : last.length ≤ 8) :
    fill (gs.flatten ++ last) =
      gs.flatten ++ (last ++ List.replicate (8 - last.length) padChar) := by
  have missing : (8 - (gs.flatten ++ last).length % 8) % 8 = 8 - last.length := by
    rw [List.length_append, flatten_length eight]
    omega
  rw [fill, missing, List.append_assoc]

theorem group_short {ds : List Nat} {last : List UInt8}
    (group : GroupOf ds (last ++ List.replicate (8 - last.length) padChar)) :
    ∃ pads, last = ds.map symbol ++ List.replicate pads padChar ∧ pads ≤ 8 - ds.length := by
  have length := group.length
  have count := group.count_cases
  rcases List.append_eq_append_iff.mp group.text with ⟨x, chars, missing⟩ | ⟨x, front, pads⟩
  · -- What is missing of the characters would be padding.
    cases x with
    | nil =>
      rw [List.append_nil] at chars
      exact ⟨0, by rw [chars]; simp, by omega⟩
    | cons c x =>
      have pad : c = padChar :=
        List.eq_of_mem_replicate (missing ▸ List.mem_append_left _ List.mem_cons_self)
      have member : c ∈ ds.map symbol := chars ▸ List.mem_append_right last List.mem_cons_self
      obtain ⟨d, hd, rfl⟩ := List.mem_map.mp member
      exact absurd pad (isSymbol_ne_pad (isSymbol_symbol (group.small d hd)))
  · have same : x = List.replicate x.length padChar :=
      List.eq_replicate_length.mpr fun c hc =>
        List.eq_of_mem_replicate (pads ▸ List.mem_append_left _ hc)
    have bound := congrArg List.length pads
    rw [List.length_replicate, List.length_append] at bound
    exact ⟨x.length, by rw [← same]; exact front, by omega⟩

theorem isText_groups {gs : List (List UInt8)} {last : List UInt8} (eight : ∀ g ∈ gs, g.length = 8)
    (positive : 0 < last.length) (bound : last.length ≤ 8) (count : Nat) :
    IsText (gs.flatten ++ last) count ↔ (∀ g ∈ gs, ∀ c ∈ g, IsSymbol c) ∧
      ∃ ds, GroupOf ds (last ++ List.replicate (8 - last.length) padChar) ∧
        count = 8 * gs.length + ds.length := by
  have front := flatten_length eight
  constructor
  · rintro ⟨letters, pads, text, symbols, length, residue, few⟩
    have residues : count % 8 = 0 ∨ count % 8 = 2 ∨ count % 8 = 4 ∨ count % 8 = 5 ∨
        count % 8 = 7 := by simpa using residue
    have total := congrArg List.length text
    rw [List.length_append, List.length_append, List.length_replicate, front, length] at total
    -- The padding does not fill a group, so the letters reach into the last one.
    rcases List.append_eq_append_iff.mp text with ⟨x, split, tail⟩ | ⟨x, split, tail⟩
    · have rest : letters.length = 8 * gs.length + x.length := by
        rw [split, List.length_append, front]
      obtain ⟨ds, small, same⟩ := exists_symbols (s := x) fun c hc =>
        symbols c (split ▸ List.mem_append_right _ hc)
      have dsLength : ds.length = x.length := by rw [← same, List.length_map]
      have lastLength : last.length = x.length + pads := by
        rw [tail, List.length_append, List.length_replicate]
      refine ⟨?_, ds, ⟨small, ?_, ?_⟩, by omega⟩
      · intro g member c hc
        exact symbols c (split ▸ List.mem_append_left _ (List.mem_flatten.mpr ⟨g, member, hc⟩))
      · simp only [List.mem_cons, List.not_mem_nil, or_false]
        omega
      · rw [lastLength, tail, List.append_assoc, List.replicate_append_replicate, same, dsLength]
        congr 2
        omega
    · have lengths := congrArg List.length tail
      have rest : gs.flatten.length = letters.length + x.length := by
        rw [split, List.length_append]
      rw [List.length_replicate, List.length_append] at lengths
      omega
  · rintro ⟨symbols, ds, group, rfl⟩
    obtain ⟨pads, split, few⟩ := group_short group
    have counts := group.count_cases
    refine ⟨gs.flatten ++ ds.map symbol, pads, by rw [List.append_assoc, ← split], ?_, ?_, ?_, ?_⟩
    · intro c hc
      rcases List.mem_append.mp hc with early | late
      · obtain ⟨g, member, hg⟩ := List.mem_flatten.mp early
        exact symbols g member c hg
      · obtain ⟨d, hd, rfl⟩ := List.mem_map.mp late
        exact isSymbol_symbol (group.small d hd)
    · rw [List.length_append, front, List.length_map]
    · simp only [List.mem_cons, List.not_mem_nil, or_false]
      omega
    · omega

/-- The rule for encodings: groups of five bytes, then one of at most four. -/
theorem encode_induction {P : List Byte → List UInt8 → Prop} (nil : P [] [])
    (last : ∀ bytes : List Byte, 0 < bytes.length → bytes.length < 5 →
      P bytes (encodeGroup bytes))
    (group : ∀ bytes rest : List Byte, bytes.length = 5 → P rest (encode rest) →
      P (bytes ++ rest) (encodeGroup bytes ++ encode rest)) (bytes : List Byte) :
    P bytes (encode bytes) := by
  fun_induction encode bytes with
  | case1 => exact nil
  | case2 a b c d e rest ih => exact group [a, b, c, d, e] rest rfl ih
  | case3 bytes nonempty few =>
    apply last bytes (List.length_pos_iff.mpr nonempty)
    apply Nat.lt_of_not_le
    intro five
    rcases bytes with _ | ⟨a, _ | ⟨b, _ | ⟨c, _ | ⟨d, _ | ⟨e, rest⟩⟩⟩⟩⟩
    case cons.cons.cons.cons.cons => exact few a b c d e rest rfl
    all_goals simp at five

theorem encode_text (bytes : List Byte) :
    ∃ letters pads, encode bytes = letters ++ List.replicate pads padChar ∧
      (∀ c ∈ letters, IsSymbol c) ∧ pads < 8 ∧ (encode bytes).length % 8 = 0 := by
  have chars {ds : List Nat} (small : ∀ d ∈ ds, d < 32) : ∀ c ∈ ds.map symbol, IsSymbol c := by
    intro c hc
    obtain ⟨d, hd, rfl⟩ := List.mem_map.mp hc
    exact isSymbol_symbol (small d hd)
  refine encode_induction (P := fun _ t => ∃ letters pads, t = letters ++
    List.replicate pads padChar ∧ (∀ c ∈ letters, IsSymbol c) ∧ pads < 8 ∧ t.length % 8 = 0)
    ?_ ?_ ?_ bytes
  · exact ⟨[], 0, rfl, by simp, by decide, rfl⟩
  · intro bytes positive few
    obtain ⟨ds, group, -⟩ := encodeGroup_group bytes positive (by omega)
    have counts := group.count_cases
    exact ⟨_, _, group.text, chars group.small, by omega, by rw [group.length]⟩
  · rintro bytes rest five ⟨letters, pads, text, symbols, few, whole⟩
    obtain ⟨ds, group, back⟩ := encodeGroup_group bytes (by omega) (by omega)
    have counts := group.count_cases
    have held := congrArg List.length back
    rw [decodeGroup_length, byteCount, five] at held
    have full : ds.length = 8 := by omega
    have plain : encodeGroup bytes = ds.map symbol := by
      rw [group.text, full, Nat.sub_self, List.replicate_zero, List.append_nil]
    refine ⟨ds.map symbol ++ letters, pads, by rw [plain, text, List.append_assoc], ?_, few, ?_⟩
    · intro c hc
      rcases List.mem_append.mp hc with early | late
      · exact chars group.small c early
      · exact symbols c late
    · rw [List.length_append, group.length]
      omega

end LoginHelper.Foundation.Base32
