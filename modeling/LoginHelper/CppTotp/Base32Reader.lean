/- Unit: LoginHelper/CppTotp/Base32Reader
   source: src/loginhelper/libcppotp/bytes.cpp
   digest: The library's Base32 reader takes exactly the well formed groups, and decodes each by the standard. -/

import LoginHelper.CppTotp.Bytes
import LoginHelper.Foundation.Base32

set_option autoImplicit false
set_option relaxedAutoImplicit false

namespace LoginHelper.CppTotp.Base32Reader

open LoginHelper.Foundation.Base32
open LoginHelper.CppTotp.Bytes
open LoginHelper.Windows.ProcessEnvironment (NString)
open LoginHelper.Windows.Runtime (StdException)

theorem b32Step_pad (whole : U64) (padcount i : Nat) :
    b32Step (whole, padcount) (61, i) = .ok (whole, padcount + 1) := by
  simp [b32Step]

theorem b32Step_symbol {d : Nat} (small : d < 32) (whole : U64) (i : Nat) :
    b32Step (whole, 0) (symbol d, i) =
      .ok (whole ||| (BitVec.ofNat 64 d <<< ((7 - i) * 5)), 0) := by
  have value := symbol_toNat small
  have notPad : symbol d ≠ 61 := isSymbol_ne_pad (isSymbol_symbol small)
  have widen {n : Nat} (h : n < 32) : (BitVec.ofNat 8 n).setWidth 64 = BitVec.ofNat 64 n := by
    apply BitVec.eq_of_toNat_eq
    simp only [BitVec.toNat_setWidth, BitVec.toNat_ofNat]
    omega
  simp only [b32Step, if_neg notPad, Nat.lt_irrefl, if_false, UInt8.le_iff_toNat_le,
    UInt8.reduceToNat, value]
  by_cases letter : d < 26
  · simp only [if_pos letter]
    rw [if_pos (by omega), Nat.add_sub_cancel_left, widen small]
  · simp only [if_neg letter]
    rw [if_neg (by omega), if_pos (by omega), show 50 + (d - 26) - 50 + 26 = d by omega,
      widen small]

theorem b32Step_reject {c : UInt8} (notPad : c ≠ 61) (whole : U64) (padcount i : Nat)
    (bad : 0 < padcount ∨ ¬ IsSymbol c) : ∃ e, b32Step (whole, padcount) (c, i) = .error e := by
  simp only [b32Step, if_neg notPad]
  by_cases padded : 0 < padcount
  · exact ⟨_, if_pos padded⟩
  · have other := bad.resolve_left padded
    rw [if_neg padded, if_neg fun letter => other (.inl letter),
      if_neg fun digit => other (.inr digit)]
    exact ⟨_, rfl⟩

theorem fold_symbols (ds : List Nat) (small : ∀ d ∈ ds, d < 32) (k n : Nat) (whole : U64)
    (room : k + ds.length ≤ 8) (bound : n < 32 ^ k) (value : whole.toNat = n * 32 ^ (8 - k)) :
    ∃ whole' : U64, ((ds.map symbol).zipIdx k).foldlM b32Step (whole, 0) = .ok (whole', 0) ∧
      whole'.toNat = ds.foldl (fun n d => 32 * n + d) n * 32 ^ (8 - (k + ds.length)) := by
  induction ds generalizing k n whole with
  | nil => exact ⟨whole, rfl, value⟩
  | cons d ds ih =>
    have d_lt := small d List.mem_cons_self
    rw [List.length_cons] at room
    let shift := (7 - k) * 5
    have powers : 32 ^ (8 - k) = 2 ^ (shift + 5) := by
      rw [show 32 = 2 ^ 5 by rfl, ← Nat.pow_mul]
      congr 1
      omega
    have low : d * 2 ^ shift < 2 ^ (shift + 5) := by
      rw [Nat.pow_add, Nat.mul_comm _ (2 ^ 5)]
      exact Nat.mul_lt_mul_of_pos_right d_lt (Nat.two_pow_pos _)
    have inside : 2 ^ (shift + 5) ≤ 2 ^ 40 := Nat.pow_le_pow_right (by decide) (by omega)
    have next : (whole ||| (BitVec.ofNat 64 d <<< shift)).toNat =
        (32 * n + d) * 32 ^ (8 - (k + 1)) := by
      have shifted : (BitVec.ofNat 64 d <<< shift).toNat = d * 2 ^ shift := by
        rw [BitVec.toNat_shiftLeft, BitVec.toNat_ofNat, Nat.shiftLeft_eq,
          Nat.mod_eq_of_lt (show d < 2 ^ 64 by omega), Nat.mod_eq_of_lt (by omega)]
      rw [BitVec.toNat_or, shifted, value, powers, ← Nat.shiftLeft_eq,
        ← Nat.shiftLeft_add_eq_or_of_lt low, Nat.shiftLeft_eq, Nat.pow_add,
        show 8 - (k + 1) = 7 - k by omega, show 32 = 2 ^ 5 by rfl, ← Nat.pow_mul, Nat.mul_comm 5]
      ring
    have below : 32 * n + d < 32 ^ (k + 1) := by
      rw [Nat.pow_succ]
      omega
    obtain ⟨whole', run, result⟩ := ih (fun e he => small e (List.mem_cons_of_mem d he)) (k + 1)
      (32 * n + d) _ (by omega) below next
    refine ⟨whole', ?_, ?_⟩
    · rw [List.map_cons, List.zipIdx_cons, List.foldlM_cons, b32Step_symbol d_lt]
      exact run
    · rw [result, List.foldl_cons, List.length_cons, show k + 1 + ds.length = k + (ds.length + 1) by omega]

theorem fold_pads (count k padcount : Nat) (whole : U64) :
    ((List.replicate count 61).zipIdx k).foldlM b32Step (whole, padcount) =
      .ok (whole, padcount + count) := by
  induction count generalizing k padcount with
  | zero => rfl
  | succ count ih =>
    rw [List.replicate_succ, List.zipIdx_cons, List.foldlM_cons, b32Step_pad]
    show List.foldlM b32Step (whole, padcount + 1) _ = _
    rw [ih, Nat.add_assoc, Nat.add_comm 1]

private theorem fold_padded {s : NString} {k padcount : Nat} {whole : U64} {r : U64 × Nat}
    (padded : 0 < padcount) (run : (s.zipIdx k).foldlM b32Step (whole, padcount) = .ok r) :
    s = List.replicate s.length 61 ∧ r.2 = padcount + s.length := by
  induction s generalizing k padcount with
  | nil =>
    cases run
    exact ⟨rfl, rfl⟩
  | cons c s ih =>
    rw [List.zipIdx_cons, List.foldlM_cons] at run
    by_cases pad : c = 61
    · rw [pad, b32Step_pad] at run
      obtain ⟨same, count⟩ := ih (Nat.succ_pos padcount) run
      exact ⟨by rw [List.length_cons, List.replicate_succ, ← same, pad],
        by rw [count, List.length_cons]; omega⟩
    · obtain ⟨e, thrown⟩ := b32Step_reject pad whole padcount k (.inl padded)
      rw [thrown] at run
      cases run

theorem fold_shape {s : NString} {k : Nat} {whole : U64} {r : U64 × Nat}
    (run : (s.zipIdx k).foldlM b32Step (whole, 0) = .ok r) :
    ∃ ds : List Nat, (∀ d ∈ ds, d < 32) ∧ s = ds.map symbol ++ List.replicate r.2 61 := by
  induction s generalizing k whole with
  | nil =>
    cases run
    exact ⟨[], by simp, rfl⟩
  | cons c s ih =>
    rw [List.zipIdx_cons, List.foldlM_cons] at run
    by_cases pad : c = 61
    · rw [pad, b32Step_pad] at run
      obtain ⟨same, count⟩ := fold_padded Nat.one_pos run
      refine ⟨[], by simp, ?_⟩
      rw [count, Nat.add_comm, List.replicate_succ, ← same, pad]
      rfl
    · by_cases known : IsSymbol c
      · obtain ⟨d, d_lt, rfl⟩ := exists_symbol known
        rw [b32Step_symbol d_lt] at run
        obtain ⟨ds, small, same⟩ := ih run
        refine ⟨d :: ds, ?_, by rw [List.map_cons, List.cons_append, ← same]⟩
        intro e he
        rcases List.mem_cons.mp he with rfl | rest
        · exact d_lt
        · exact small e rest
      · obtain ⟨e, thrown⟩ := b32Step_reject pad whole 0 k (.inr known)
        rw [thrown] at run
        cases run

theorem finalcount_symbols {symbols : Nat}
    (h : symbols = 2 ∨ symbols = 4 ∨ symbols = 5 ∨ symbols = 7 ∨ symbols = 8) :
    finalcount (8 - symbols) = .ok (byteCount symbols) := by
  rcases h with rfl | rfl | rfl | rfl | rfl <;> rfl

theorem symbols_of_finalcount {padcount count : Nat} (h : finalcount padcount = .ok count) :
    padcount = 0 ∨ padcount = 1 ∨ padcount = 3 ∨ padcount = 4 ∨ padcount = 6 := by
  unfold finalcount at h
  split at h
  · exact .inl rfl
  · exact .inr (.inl rfl)
  · exact .inr (.inr (.inl rfl))
  · exact .inr (.inr (.inr (.inl rfl)))
  · exact .inr (.inr (.inr (.inr rfl)))
  · cases h

private theorem bytes_out {ds : List Nat} {whole : U64} (eight : ds.length ≤ 8)
    (value : whole.toNat = number 32 ds * 32 ^ (8 - ds.length)) :
    (List.range (byteCount ds.length)).map
      (fun i => ((whole >>> ((4 - i) * 8)) &&& 0xff).setWidth 8) = decodeGroup ds := by
  rw [decodeGroup, digits_eq_map, List.map_map]
  apply List.map_congr_left
  intro i member
  have below : i < 5 * ds.length / 8 := List.mem_range.mp member
  have byte : ((whole >>> ((4 - i) * 8)) &&& 0xff).setWidth 8 =
      BitVec.ofNat 8 (whole.toNat / 2 ^ ((4 - i) * 8)) := by
    have low : ((whole >>> ((4 - i) * 8)) &&& 0xff).setWidth 8 =
        (whole >>> ((4 - i) * 8)).setWidth 8 := by
      rw [BitVec.setWidth_and]
      exact BitVec.and_allOnes
    rw [low]
    apply BitVec.eq_of_toNat_eq
    rw [BitVec.toNat_setWidth, BitVec.toNat_ushiftRight, BitVec.toNat_ofNat,
      Nat.shiftRight_eq_div_pow]
  have cut : whole.toNat / 2 ^ ((4 - i) * 8) =
      number 32 ds / 2 ^ (5 * ds.length - 8 * byteCount ds.length) /
        256 ^ (byteCount ds.length - 1 - i) := by
    have kept : (4 - i) * 8 = 5 * (8 - ds.length) +
        (5 * ds.length - 8 * byteCount ds.length + 8 * (byteCount ds.length - 1 - i)) := by
      unfold byteCount
      omega
    rw [value, kept, show 32 = 2 ^ 5 by rfl, show 256 = 2 ^ 8 by rfl, ← Nat.pow_mul, ← Nat.pow_mul,
      Nat.pow_add, ← Nat.div_div_eq_div_mul, Nat.mul_div_cancel _ (Nat.two_pow_pos _), Nat.pow_add,
      Nat.div_div_eq_div_mul]
  rw [byte, cut]
  apply BitVec.eq_of_toNat_eq
  simp only [Function.comp_apply, BitVec.toNat_ofNat]
  omega

theorem b32ChunkToBytes_group {ds : List Nat} {g : NString} (group : GroupOf ds g) :
    b32ChunkToBytes g = .ok (decodeGroup ds) := by
  have counts := group.count_cases
  obtain ⟨whole, run, value⟩ := fold_symbols ds group.small 0 0 0 (by omega) (by decide) rfl
  have loop : g.zipIdx.foldlM b32Step (0, 0) = .ok (whole, 8 - ds.length) := by
    rw [group.text, List.zipIdx_append, List.foldlM_append, run]
    exact (fold_pads _ _ _ _).trans (by rw [Nat.zero_add])
  rw [b32ChunkToBytes, if_neg (by rw [group.length]; decide), loop]
  show (finalcount (8 - ds.length) >>= fun count => _) = _
  rw [finalcount_symbols counts, ← bytes_out (by omega) (by rw [value, Nat.zero_add]; rfl)]
  rfl

theorem group_of_b32ChunkToBytes {g : NString} {bytes : ByteString}
    (read : b32ChunkToBytes g = .ok bytes) : ∃ ds, GroupOf ds g ∧ bytes = decodeGroup ds := by
  have eight : g.length = 8 := by
    by_contra other
    rw [b32ChunkToBytes, if_pos other] at read
    cases read
  have loop := read
  rw [b32ChunkToBytes, if_neg (not_not.mpr eight)] at loop
  cases run : g.zipIdx.foldlM b32Step ((0, 0) : U64 × Nat) with
  | error e =>
    rw [run] at loop
    cases loop
  | ok r =>
    obtain ⟨whole, padcount⟩ := r
    rw [run] at loop
    cases final : finalcount padcount with
    | error e =>
      replace loop : (finalcount padcount >>= fun count => _) = _ := loop
      rw [final] at loop
      cases loop
    | ok count =>
      obtain ⟨ds, small, text⟩ := fold_shape run
      have pads := symbols_of_finalcount final
      have total := congrArg List.length text
      rw [List.length_append, List.length_map, List.length_replicate, eight] at total
      have group : GroupOf ds g := by
        refine ⟨small, ?_, ?_⟩
        · simp only [List.mem_cons, List.not_mem_nil, or_false]
          omega
        · rw [text, show 8 - ds.length = padcount by omega]
          rfl
      rw [b32ChunkToBytes_group group] at read
      exact ⟨ds, group, (Except.ok.inj read).symm⟩

/-- The loop of `fromBase32` over these positions, with this read before. -/
def readGroups (f : Nat → Except StdException ByteString) (ret : ByteString) (l : List Nat) :
    Except StdException ByteString :=
  l.foldlM (fun ret i => do
    let chk ← f i
    pure (ret ++ chk)) ret

theorem readGroups_cons (f : Nat → Except StdException ByteString) (ret : ByteString) (i : Nat)
    (l : List Nat) : readGroups f ret (i :: l) = f i >>= fun chk => readGroups f (ret ++ chk) l := by
  rw [readGroups, List.foldlM_cons]
  cases f i with
  | error e => rfl
  | ok chk => rfl

theorem readGroups_acc (f : Nat → Except StdException ByteString) (ret : ByteString)
    (l : List Nat) : readGroups f ret l = (readGroups f [] l).map (ret ++ ·) := by
  induction l generalizing ret with
  | nil => exact congrArg Except.ok (List.append_nil ret).symm
  | cons i l ih =>
    rw [readGroups_cons, readGroups_cons]
    cases f i with
    | error e => rfl
    | ok chk =>
      show readGroups f (ret ++ chk) l = (readGroups f ([] ++ chk) l).map (ret ++ ·)
      rw [ih (ret ++ chk), ih ([] ++ chk), List.nil_append]
      cases readGroups f [] l with
      | error e => rfl
      | ok rest => exact congrArg Except.ok (List.append_assoc ret chk rest)

theorem fromBase32_eq {s : NString} (whole : s.length % 8 = 0) :
    fromBase32 s = readGroups (fun i => b32ChunkToBytes ((s.drop (8 * i)).take 8)) []
      (List.range (s.length / 8)) := by
  rw [fromBase32, if_neg (not_not.mpr whole)]
  rfl

theorem fromBase32_cons {g rest : NString} (eight : g.length = 8) (whole : rest.length % 8 = 0) :
    fromBase32 (g ++ rest) = (do
      let chk ← b32ChunkToBytes g
      let bytes ← fromBase32 rest
      pure (chk ++ bytes)) := by
  have length : (g ++ rest).length = 8 + rest.length := by rw [List.length_append, eight]
  have groups : (g ++ rest).length / 8 = rest.length / 8 + 1 := by omega
  have first : ((g ++ rest).drop (8 * 0)).take 8 = g := by
    rw [Nat.mul_zero, List.drop_zero, List.take_append_of_le_length (by omega),
      List.take_of_length_le (by omega)]
  have later (i : Nat) : ((g ++ rest).drop (8 * (i + 1))).take 8 = (rest.drop (8 * i)).take 8 := by
    rw [List.drop_append, List.drop_eq_nil_of_le (by omega), List.nil_append, eight,
      show 8 * (i + 1) - 8 = 8 * i by omega]
  have shifted : readGroups (fun i => b32ChunkToBytes (((g ++ rest).drop (8 * i)).take 8)) []
      ((List.range (rest.length / 8)).map Nat.succ) = fromBase32 rest := by
    rw [fromBase32_eq whole, readGroups, List.foldlM_map]
    simp only [Nat.succ_eq_add_one, later]
    rfl
  rw [fromBase32_eq (by omega), groups, List.range_succ_eq_map, readGroups_cons, first]
  cases b32ChunkToBytes g with
  | error e => rfl
  | ok chk =>
    show readGroups _ ([] ++ chk) _ = _
    rw [readGroups_acc, shifted, List.nil_append]
    cases fromBase32 rest with
    | error e => rfl
    | ok bytes => rfl

theorem groups_eight {dss : List (List Nat)} {gs : List NString}
    (groups : List.Forall₂ GroupOf dss gs) : ∀ g ∈ gs, g.length = 8 := by
  induction groups with
  | nil => exact fun g member => absurd member List.not_mem_nil
  | cons group rest ih =>
    intro g member
    rcases List.mem_cons.mp member with rfl | later
    · exact group.length
    · exact ih g later

theorem flatten_whole {gs : List NString} (eight : ∀ g ∈ gs, g.length = 8) :
    gs.flatten.length % 8 = 0 := by
  rw [flatten_length eight]
  omega

/-- A text whose groups are all well formed is read as the bytes they hold. -/
theorem fromBase32_groups {dss : List (List Nat)} {gs : List NString}
    (groups : List.Forall₂ GroupOf dss gs) :
    fromBase32 gs.flatten = .ok (dss.flatMap decodeGroup) := by
  induction groups with
  | nil => rfl
  | cons group rest ih =>
    rw [List.flatten_cons, fromBase32_cons group.length (flatten_whole (groups_eight rest)),
      b32ChunkToBytes_group group, ih]
    rfl

theorem groups_of_fromBase32 {gs : List NString} (eight : ∀ g ∈ gs, g.length = 8)
    {bytes : ByteString} (read : fromBase32 gs.flatten = .ok bytes) :
    ∃ dss, List.Forall₂ GroupOf dss gs ∧ bytes = dss.flatMap decodeGroup := by
  induction gs generalizing bytes with
  | nil =>
    cases read
    exact ⟨[], .nil, rfl⟩
  | cons g gs ih =>
    have later : ∀ h ∈ gs, h.length = 8 := fun h member => eight h (List.mem_cons_of_mem g member)
    rw [List.flatten_cons, fromBase32_cons (eight g List.mem_cons_self) (flatten_whole later)] at read
    cases chunk : b32ChunkToBytes g with
    | error e =>
      rw [chunk] at read
      cases read
    | ok chk =>
      cases tail : fromBase32 gs.flatten with
      | error e =>
        rw [chunk, tail] at read
        cases read
      | ok rest =>
        rw [chunk, tail] at read
        cases read
        obtain ⟨ds, group, rfl⟩ := group_of_b32ChunkToBytes chunk
        obtain ⟨dss, groups, rfl⟩ := ih later tail
        exact ⟨ds :: dss, .cons group groups, rfl⟩

theorem fromUnpaddedBase32_eq (s : NString) : fromUnpaddedBase32 s = fromBase32 (fill s) := by
  have pushed : pushWhile (fun n => n % 8 ≠ 0) (61 : UInt8) 8 s = fill s := by
    refine pushWhile_eq _ _ ((8 - s.length % 8) % 8) 8 s ?_ ?_ (by omega)
    · intro j hj
      simp only [ne_eq, decide_not, Bool.not_eq_eq_eq_not, Bool.not_true, decide_eq_false_iff_not]
      omega
    · simp only [ne_eq, decide_not, Bool.not_eq_eq_eq_not, Bool.not_false, decide_eq_true_eq]
      omega
  rw [fromUnpaddedBase32, pushed]

theorem fromBase32_encode (bytes : ByteString) : fromBase32 (encode bytes) = .ok bytes := by
  refine encode_induction (P := fun bytes t => fromBase32 t = .ok bytes) rfl ?_ ?_ bytes
  · intro bytes positive few
    obtain ⟨ds, group, back⟩ := encodeGroup_group bytes positive (by omega)
    have read := fromBase32_groups (.cons group .nil)
    rwa [List.flatten_singleton, List.flatMap_singleton, back] at read
  · intro bytes rest five ih
    obtain ⟨ds, group, back⟩ := encodeGroup_group bytes (by omega) (by omega)
    obtain ⟨-, -, -, -, -, whole⟩ := encode_text rest
    rw [fromBase32_cons group.length whole, b32ChunkToBytes_group group, back, ih]
    rfl

end LoginHelper.CppTotp.Base32Reader
