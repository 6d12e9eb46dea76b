/- Unit: LoginHelper/CppTotp/Base32Writer
   source: src/loginhelper/libcppotp/bytes.cpp
   digest: The library's Base32 writer writes the standard text, and which texts it would write again. -/

import LoginHelper.CppTotp.Base32Reader

set_option autoImplicit false
set_option relaxedAutoImplicit false

namespace LoginHelper.CppTotp.Base32Writer

open LoginHelper.Foundation.Base32
open LoginHelper.CppTotp.Bytes LoginHelper.CppTotp.Base32Reader
open LoginHelper.Windows.ProcessEnvironment (NString)
open LoginHelper.Windows.Runtime (StdException)

def u64 (n : Byte) : U64 := n.setWidth 64

def b32Char (val : Byte) : UInt8 :=
  if val < 26 then UInt8.ofNat (val.toNat + 65) else UInt8.ofNat (val.toNat - 26 + 50)

def chunkWhole (bs : ByteString) : U64 :=
  let whole := u64 (bs.getD 0 0) <<< 32
  let whole := if 1 < bs.length then whole ||| (u64 (bs.getD 1 0) <<< 24) else whole
  let whole := if 2 < bs.length then whole ||| (u64 (bs.getD 2 0) <<< 16) else whole
  let whole := if 3 < bs.length then whole ||| (u64 (bs.getD 3 0) <<< 8) else whole
  if 4 < bs.length then whole ||| u64 (bs.getD 4 0) else whole

def putchars (size : Nat) : Nat :=
  let chars := if 1 < size then 2 + 2 else 2
  let chars := if 2 < size then chars + 1 else chars
  let chars := if 3 < size then chars + 2 else chars
  if 4 < size then chars + 1 else chars

def bytesToB32Chunk (bs : ByteString) : Except StdException NString :=
  if bs.length < 1 ∨ 5 < bs.length then
    .error (.invalidArgument "need a chunk of at least 1 and at most 5 bytes")
  else
    let chars := (List.range (putchars bs.length)).map fun i =>
      b32Char (((chunkWhole bs >>> ((7 - i) * 5)) &&& 0x1f).setWidth 8)
    .ok (chars ++ List.replicate (8 - putchars bs.length) 61)

def toBase32 (bs : ByteString) : Except StdException NString := do
  let ret ← (List.range (bs.length / 5)).foldlM (fun ret j => do
    let chk ← bytesToB32Chunk ((bs.drop (5 * j)).take 5)
    pure (ret ++ chk)) []
  if 0 < bs.length - bs.length / 5 * 5 then
    let chk ← bytesToB32Chunk (bs.drop (bs.length / 5 * 5))
    pure (ret ++ chk)
  else pure ret

private theorem b32Char_eq (x : U64) :
    b32Char ((x &&& 0x1f).setWidth 8) = symbol (x.toNat % 32) := by
  have low : ((x &&& 0x1f).setWidth 8).toNat = x.toNat % 32 := by
    rw [BitVec.toNat_setWidth, BitVec.toNat_and]
    rw [show (0x1f : U64).toNat = 2 ^ 5 - 1 from rfl, Nat.and_two_pow_sub_one_eq_mod]
    exact Nat.mod_eq_of_lt (by omega)
  have small : x.toNat % 32 < 32 := Nat.mod_lt _ (by decide)
  have letter : (x &&& 0x1f).setWidth 8 < (26 : Byte) ↔ x.toNat % 32 < 26 := by
    rw [BitVec.lt_def, low]
    rfl
  rw [b32Char, symbol]
  by_cases first : x.toNat % 32 < 26
  · rw [if_pos (letter.mpr first), if_pos first, low, Nat.add_comm]
  · rw [if_neg (first ∘ letter.mp), if_neg first, low, Nat.add_comm]

private theorem shifted_byte (n : Byte) {k : Nat} (small : k ≤ 32) :
    (u64 n <<< k).toNat = n.toNat * 2 ^ k := by
  have bound : n.toNat < 2 ^ 8 := n.isLt
  have whole : n.toNat * 2 ^ k ≤ 255 * 2 ^ 32 :=
    Nat.mul_le_mul (by omega) (Nat.pow_le_pow_right (by decide) small)
  rw [BitVec.toNat_shiftLeft, u64, BitVec.toNat_setWidth,
    Nat.mod_eq_of_lt (show n.toNat < 2 ^ 64 by omega), Nat.shiftLeft_eq,
    Nat.mod_eq_of_lt (by omega)]

private theorem or_below {x y : U64} (k : Nat) (high : x.toNat % 2 ^ k = 0)
    (low : y.toNat < 2 ^ k) : (x ||| y).toNat = x.toNat + y.toNat := by
  have shifted : x.toNat = (x.toNat / 2 ^ k) <<< k := by
    rw [Nat.shiftLeft_eq, Nat.div_mul_cancel (Nat.dvd_of_mod_eq_zero high)]
  rw [BitVec.toNat_or, shifted, Nat.shiftLeft_add_eq_or_of_lt low]

private theorem chunkWhole_eq {bs : ByteString} (positive : 0 < bs.length) (few : bs.length ≤ 5) :
    (chunkWhole bs).toNat = number 256 (bs.map BitVec.toNat) * 2 ^ (8 * (5 - bs.length)) := by
  have byte (n : Byte) : n.toNat < 2 ^ 8 := n.isLt
  have last (n : Byte) : (u64 n).toNat = n.toNat := by
    rw [u64, BitVec.toNat_setWidth, Nat.mod_eq_of_lt (by have := byte n; omega)]
  have first (a : Byte) : (u64 a <<< 32).toNat = a.toNat * 2 ^ 32 := shifted_byte a (by decide)
  have second (a b : Byte) : (u64 a <<< 32 ||| (u64 b <<< 24)).toNat =
      a.toNat * 2 ^ 32 + b.toNat * 2 ^ 24 := by
    rw [or_below 32, first, shifted_byte b (by decide)]
    · rw [first, Nat.mul_mod_left]
    · rw [shifted_byte b (by decide)]
      have := byte b
      omega
  have third (a b c : Byte) : (u64 a <<< 32 ||| (u64 b <<< 24) ||| (u64 c <<< 16)).toNat =
      a.toNat * 2 ^ 32 + b.toNat * 2 ^ 24 + c.toNat * 2 ^ 16 := by
    rw [or_below 24, second, shifted_byte c (by decide)]
    · rw [second]
      omega
    · rw [shifted_byte c (by decide)]
      have := byte c
      omega
  have fourth (a b c d : Byte) :
      (u64 a <<< 32 ||| (u64 b <<< 24) ||| (u64 c <<< 16) ||| (u64 d <<< 8)).toNat =
        a.toNat * 2 ^ 32 + b.toNat * 2 ^ 24 + c.toNat * 2 ^ 16 + d.toNat * 2 ^ 8 := by
    rw [or_below 16, third, shifted_byte d (by decide)]
    · rw [third]
      omega
    · rw [shifted_byte d (by decide)]
      have := byte d
      omega
  have fifth (a b c d e : Byte) :
      (u64 a <<< 32 ||| (u64 b <<< 24) ||| (u64 c <<< 16) ||| (u64 d <<< 8) ||| u64 e).toNat =
        a.toNat * 2 ^ 32 + b.toNat * 2 ^ 24 + c.toNat * 2 ^ 16 + d.toNat * 2 ^ 8 + e.toNat := by
    rw [or_below 8, fourth, last]
    · rw [fourth]
      omega
    · rw [last]
      exact byte e
  match bs, positive, few with
  | [a], _, _ =>
    rw [show chunkWhole [a] = u64 a <<< 32 from rfl, first]
    simp [number]
  | [a, b], _, _ =>
    rw [show chunkWhole [a, b] = u64 a <<< 32 ||| (u64 b <<< 24) from rfl, second]
    simp [number]
    omega
  | [a, b, c], _, _ =>
    rw [show chunkWhole [a, b, c] = u64 a <<< 32 ||| (u64 b <<< 24) ||| (u64 c <<< 16) from rfl, third]
    simp [number]
    omega
  | [a, b, c, d], _, _ =>
    rw [show chunkWhole [a, b, c, d] = u64 a <<< 32 ||| (u64 b <<< 24) ||| (u64 c <<< 16) |||
      (u64 d <<< 8) from rfl, fourth]
    simp [number]
    omega
  | [a, b, c, d, e], _, _ =>
    rw [show chunkWhole [a, b, c, d, e] = u64 a <<< 32 ||| (u64 b <<< 24) ||| (u64 c <<< 16) |||
      (u64 d <<< 8) ||| u64 e from rfl, fifth]
    simp [number]
    omega
  | _ :: _ :: _ :: _ :: _ :: _ :: rest, _, few =>
    simp only [List.length_cons] at few
    omega

private theorem putchars_eq {size : Nat} (positive : 0 < size) (few : size ≤ 5) :
    putchars size = symbolCount size := by
  interval_cases size <;> rfl

theorem bytesToB32Chunk_group {bs : ByteString} (positive : 0 < bs.length) (few : bs.length ≤ 5) :
    bytesToB32Chunk bs = .ok (encodeGroup bs) := by
  have count : putchars bs.length = symbolCount bs.length := putchars_eq positive few
  have counts : symbolCount bs.length = (8 * bs.length + 4) / 5 := rfl
  rw [bytesToB32Chunk, if_neg (by omega), encodeGroup, count, digits_eq_map, List.map_map]
  refine congrArg Except.ok (congrArg (· ++ _) (List.map_congr_left ?_))
  intro i member
  have below : i < symbolCount bs.length := List.mem_range.mp member
  rw [b32Char_eq, BitVec.toNat_ushiftRight, Nat.shiftRight_eq_div_pow, chunkWhole_eq positive few,
    Function.comp_apply, show 32 = 2 ^ 5 by rfl, ← Nat.pow_mul]
  have high : 8 * (5 - bs.length) = 5 * symbolCount bs.length - 8 * bs.length +
      5 * (8 - symbolCount bs.length) := by omega
  have low : (7 - i) * 5 = 5 * (8 - symbolCount bs.length) +
      5 * (symbolCount bs.length - 1 - i) := by omega
  rw [high, low, Nat.pow_add, Nat.pow_add, ← Nat.mul_assoc, ← Nat.div_div_eq_div_mul,
    Nat.mul_div_cancel _ (Nat.two_pow_pos _)]

private theorem chunks_written (bs : ByteString) (n : Nat) (inside : 5 * n ≤ bs.length) :
    (List.range n).foldlM (fun ret j => do
      let chk ← bytesToB32Chunk ((bs.drop (5 * j)).take 5)
      pure (ret ++ chk)) [] =
    (.ok ((List.range n).flatMap fun j => encodeGroup ((bs.drop (5 * j)).take 5)) :
      Except StdException NString) := by
  induction n with
  | zero => rfl
  | succ n ih =>
    have five : ((bs.drop (5 * n)).take 5).length = 5 := by
      rw [List.length_take, List.length_drop]
      omega
    have last := bytesToB32Chunk_group (show 0 < ((bs.drop (5 * n)).take 5).length by omega)
      (by omega)
    rw [List.range_succ, List.foldlM_append, ih (by omega), List.flatMap_append,
      List.flatMap_singleton]
    simp only [bind, Except.bind, List.foldlM_cons, List.foldlM_nil, last]
    rfl

private theorem encode_chunks (bs : ByteString) :
    encode bs = ((List.range (bs.length / 5)).flatMap fun j =>
        encodeGroup ((bs.drop (5 * j)).take 5)) ++
      if 0 < bs.length - bs.length / 5 * 5 then encodeGroup (bs.drop (bs.length / 5 * 5)) else [] := by
  refine encode_induction (P := fun bs t => t = ((List.range (bs.length / 5)).flatMap fun j =>
        encodeGroup ((bs.drop (5 * j)).take 5)) ++
      if 0 < bs.length - bs.length / 5 * 5 then encodeGroup (bs.drop (bs.length / 5 * 5)) else [])
    rfl ?_ ?_ bs
  · intro bytes positive few
    rw [show bytes.length / 5 = 0 by omega, if_pos (by omega)]
    simp
  · intro bytes rest five ih
    have groups : (bytes ++ rest).length / 5 = rest.length / 5 + 1 := by
      rw [List.length_append, five]
      omega
    have left : (bytes ++ rest).length - (rest.length / 5 + 1) * 5 =
        rest.length - rest.length / 5 * 5 := by
      rw [List.length_append, five]
      omega
    have later (j : Nat) : (bytes ++ rest).drop (5 * (j + 1)) = rest.drop (5 * j) := by
      rw [List.drop_append, List.drop_eq_nil_of_le (by omega), List.nil_append, five,
        show 5 * (j + 1) - 5 = 5 * j by omega]
    have behind : (bytes ++ rest).drop ((rest.length / 5 + 1) * 5) =
        rest.drop (rest.length / 5 * 5) := by
      rw [Nat.mul_comm, later, Nat.mul_comm]
    have front : (bytes ++ rest).take 5 = bytes := by
      rw [← five, List.take_left]
    rw [groups, left, behind, List.range_succ_eq_map, List.flatMap_cons, List.flatMap_map,
      List.append_assoc, Nat.mul_zero, List.drop_zero, front]
    simp only [Nat.succ_eq_add_one, later]
    rw [← ih]

/-- The library writes the standard text of every byte string. -/
theorem toBase32_eq (bs : ByteString) : toBase32 bs = .ok (encode bs) := by
  have written := chunks_written bs (bs.length / 5) (by omega)
  have rest : (bs.drop (bs.length / 5 * 5)).length = bs.length - bs.length / 5 * 5 :=
    List.length_drop
  rw [toBase32, written, encode_chunks bs]
  show (if _ then _ else _ : Except StdException NString) = _
  split
  case isTrue some =>
    rw [bytesToB32Chunk_group (by omega) (by omega)]
    rfl
  case isFalse => simp only [List.append_nil]; rfl

/-- Every byte string is read back from its text, by the plain reader from the whole of it and by
the plugin's reader however much of the padding is left off. -/
theorem toBase32_reads_back (bs : ByteString) :
    ∃ letters pads, (∀ c ∈ letters, IsSymbol c) ∧
      toBase32 bs = .ok (letters ++ List.replicate pads padChar) ∧
        fromBase32 (letters ++ List.replicate pads padChar) = .ok bs ∧
          ∀ kept ≤ pads, fromUnpaddedBase32 (letters ++ List.replicate kept padChar) = .ok bs := by
  obtain ⟨letters, pads, text, symbols, few, whole⟩ := encode_text bs
  have read := fromBase32_encode bs
  rw [text] at read
  refine ⟨letters, pads, symbols, by rw [toBase32_eq, text], read, ?_⟩
  intro kept fewer
  have filled : fill (letters ++ List.replicate kept padChar) =
      letters ++ List.replicate pads padChar := by
    rw [text, List.length_append, List.length_replicate] at whole
    have missing : (8 - (letters ++ List.replicate kept padChar).length % 8) % 8 = pads - kept := by
      rw [List.length_append, List.length_replicate]
      omega
    rw [fill, missing, List.append_assoc, List.replicate_append_replicate,
      Nat.add_sub_cancel' fewer]
  rw [fromUnpaddedBase32_eq, filled, read]

/-- Whole groups of which only the last is padded, without bits behind the last whole byte. -/
def Canonical (s : NString) : Prop :=
  ∃ dss gs, s = gs.flatten ∧ List.Forall₂ GroupOf dss gs ∧
    (∀ ds ∈ dss.dropLast, ds.length = 8) ∧
      ∀ ds ∈ dss, leftover ds = 0

private theorem encodeGroup_decodeGroup {ds : List Nat} {g : NString} (group : GroupOf ds g)
    (none : leftover ds = 0) : encodeGroup (decodeGroup ds) = g := by
  have counts := group.count_cases
  have bytes : byteCount ds.length = 5 * ds.length / 8 := rfl
  have symbols : symbolCount (byteCount ds.length) = ds.length := by
    rw [symbolCount, bytes]
    omega
  have fits : number 32 ds / 2 ^ (5 * ds.length - 8 * byteCount ds.length) <
      256 ^ byteCount ds.length := by
    have below := number_lt ds group.small
    have powers : 256 ^ byteCount ds.length * 2 ^ (5 * ds.length - 8 * byteCount ds.length) =
        32 ^ ds.length := by
      rw [show 32 = 2 ^ 5 by rfl, show 256 = 2 ^ 8 by rfl, ← Nat.pow_mul, ← Nat.pow_mul, ← Nat.pow_add]
      congr 1
      omega
    rw [Nat.div_lt_iff_lt_mul (Nat.two_pow_pos _), powers]
    exact below
  have value : number 256 ((decodeGroup ds).map BitVec.toNat) =
      number 32 ds / 2 ^ (5 * ds.length - 8 * byteCount ds.length) := by
    have back : (decodeGroup ds).map BitVec.toNat = digits 256 (byteCount ds.length)
        (number 32 ds / 2 ^ (5 * ds.length - 8 * byteCount ds.length)) := by
      rw [decodeGroup, List.map_map]
      apply (List.map_congr_left ?_).trans (List.map_id _)
      intro d member
      have small : d < 2 ^ 8 := digits_lt (by decide) member
      exact Nat.mod_eq_of_lt small
    rw [back, number_digits _ _ fits]
  rw [encodeGroup, decodeGroup_length, symbols, value,
    Nat.div_mul_cancel (Nat.dvd_of_mod_eq_zero none), digits_number ds group.small, group.text]

private theorem encode_five {bytes : ByteString} (five : bytes.length = 5) (rest : ByteString) :
    encode (bytes ++ rest) = encodeGroup bytes ++ encode rest := by
  match bytes, five with
  | [a, b, c, d, e], _ => rfl

private theorem encode_few {bytes : ByteString} (positive : 0 < bytes.length)
    (few : bytes.length ≤ 5) : encode bytes = encodeGroup bytes := by
  match bytes, positive, few with
  | [a], _, _ => rfl
  | [a, b], _, _ => rfl
  | [a, b, c], _, _ => rfl
  | [a, b, c, d], _, _ => rfl
  | [a, b, c, d, e], _, _ => exact List.append_nil (encodeGroup [a, b, c, d, e])

private theorem encode_decoded {dss : List (List Nat)} {gs : List NString}
    (groups : List.Forall₂ GroupOf dss gs) (full : ∀ ds ∈ dss.dropLast, ds.length = 8)
    (none : ∀ ds ∈ dss, leftover ds = 0) :
    encode (dss.flatMap decodeGroup) = gs.flatten := by
  induction groups with
  | nil => rfl
  | @cons ds g dss gs group rest ih =>
    have counts := group.count_cases
    have length := decodeGroup_length ds
    have bytes : byteCount ds.length = 5 * ds.length / 8 := rfl
    have first := encodeGroup_decodeGroup group (none ds List.mem_cons_self)
    cases rest with
    | nil =>
      rw [List.flatMap_singleton, List.flatten_singleton, encode_few (by omega) (by omega), first]
    | @cons ds' g' dss gs group' rest =>
      have eight : ds.length = 8 := full ds (by simp)
      have later := ih (fun e member => full e (by simp_all))
        (fun e member => none e (List.mem_cons_of_mem ds member))
      rw [List.flatMap_cons, encode_five (by rw [length, bytes, eight]), first, later]
      rfl

private theorem encode_canonical (bs : ByteString) : Canonical (encode bs) := by
  refine encode_induction (P := fun _ t => Canonical t) ?_ ?_ ?_ bs
  · exact ⟨[], [], rfl, .nil, by simp, by simp⟩
  · intro bytes positive few
    obtain ⟨ds, group, -, none⟩ := encodeGroup_exact bytes positive (by omega)
    exact ⟨[ds], [encodeGroup bytes], by simp, .cons group .nil, by simp, by simpa using none⟩
  · rintro bytes rest five ⟨dss, gs, text, groups, full, none⟩
    obtain ⟨ds, group, back, whole⟩ := encodeGroup_exact bytes (by omega) (by omega)
    have counts := group.count_cases
    have held := congrArg List.length back
    rw [decodeGroup_length, byteCount, five] at held
    refine ⟨ds :: dss, encodeGroup bytes :: gs, by rw [text, List.flatten_cons],
      .cons group groups, ?_, List.forall_mem_cons.mpr ⟨whole, none⟩⟩
    intro e member
    cases dss with
    | nil => simp at member
    | cons ds' dss =>
      rw [List.dropLast_cons_cons] at member
      rcases List.mem_cons.mp member with rfl | later
      · omega
      · exact full e later

/-- A text comes back from reading it and writing it again exactly if it is canonical. -/
theorem rewritten_iff (s : NString) :
    (∃ bs, fromBase32 s = .ok bs ∧ toBase32 bs = .ok s) ↔ Canonical s := by
  constructor
  · rintro ⟨bs, -, written⟩
    rw [toBase32_eq] at written
    rw [← Except.ok.inj written]
    exact encode_canonical bs
  · rintro ⟨dss, gs, rfl, groups, full, none⟩
    refine ⟨dss.flatMap decodeGroup, fromBase32_groups groups, ?_⟩
    rw [toBase32_eq, encode_decoded groups full none]

end LoginHelper.CppTotp.Base32Writer
