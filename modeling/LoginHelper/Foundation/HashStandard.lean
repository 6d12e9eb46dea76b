/- Unit: LoginHelper/Foundation/HashStandard
   layer: library
   digest: SHA-1 with the plain schedule, HMAC, and HOTP and TOTP truncation, as the standards define them. -/

import Mathlib.Data.List.Basic
import Mathlib.Data.BitVec
import Mathlib.Tactic.Positivity
import Mathlib.Tactic.Ring

set_option autoImplicit false
set_option relaxedAutoImplicit false

namespace LoginHelper.Foundation.HashStandard

abbrev Byte := BitVec 8
abbrev Word := BitVec 32

-- SHA-1 (FIPS 180).
def wordOfBytes (b0 b1 b2 b3 : Byte) : Word := b0 ++ b1 ++ b2 ++ b3

/-- The `n` bytes of a number, the most significant first. -/
def bigEndian (n : Nat) (x : Nat) : List Byte :=
  (List.range n).map fun i => BitVec.ofNat 8 (x / 256 ^ (n - 1 - i))

def zeroCount (length : Nat) : Nat := (119 - length % 64) % 64

theorem zeroCount_complete (length : Nat) : (length + 1 + zeroCount length) % 64 = 56 := by
  unfold zeroCount
  omega

/-- The padding never adds a whole block of zeros. -/
theorem zeroCount_minimal (length zeros : Nat) (complete : (length + 1 + zeros) % 64 = 56) :
    zeroCount length ≤ zeros := by
  unfold zeroCount
  omega

/-- The message, a closing bit, zeros up to 448 bits modulo 512, and its length in bits. -/
def pad (message : List Byte) : List Byte :=
  message ++ 0x80 :: List.replicate (zeroCount message.length) 0 ++
    bigEndian 8 (8 * message.length)

theorem pad_length_mod (message : List Byte) : (pad message).length % 64 = 0 := by
  have complete := zeroCount_complete message.length
  simp only [pad, bigEndian, List.length_append, List.length_cons, List.length_replicate,
    List.length_map, List.length_range]
  omega

/-- Word `j` of a block. -/
def blockWord (block : List Byte) (j : Nat) : Word :=
  wordOfBytes (block.getD (4 * j) 0) (block.getD (4 * j + 1) 0)
    (block.getD (4 * j + 2) 0) (block.getD (4 * j + 3) 0)

def schedule (block : List Byte) (t : Nat) : Word :=
  if t < 16 then blockWord block t
  else (schedule block (t - 3) ^^^ schedule block (t - 8) ^^^ schedule block (t - 14) ^^^
    schedule block (t - 16)).rotateLeft 1
termination_by t

theorem schedule_recurrence (block : List Byte) {t : Nat} (ht : 16 ≤ t) :
    schedule block t = (schedule block (t - 3) ^^^ schedule block (t - 8) ^^^
      schedule block (t - 14) ^^^ schedule block (t - 16)).rotateLeft 1 := by
  rw [schedule, if_neg (by omega)]

theorem rotateLeft_xor (x y : Word) (n : Nat) :
    (x ^^^ y).rotateLeft n = x.rotateLeft n ^^^ y.rotateLeft n := by
  simp only [BitVec.rotateLeft_def, BitVec.shiftLeft_xor_distrib, BitVec.ushiftRight_xor_distrib]
  ext i hi
  simp only [BitVec.getElem_or, BitVec.getElem_xor]
  -- A bit of a rotation comes from one of the two shifts only.
  by_cases low : i < n % 32
  · simp [low]
  · have high : 32 ≤ 32 - n % 32 + i := by omega
    simp [low, BitVec.getLsbD_of_ge _ _ high]

theorem rotateLeft_one_one (x : Word) : (x.rotateLeft 1).rotateLeft 1 = x.rotateLeft 2 := by
  ext i hi
  simp only [BitVec.getElem_rotateLeft]
  by_cases h0 : i = 0
  · subst h0; simp
  · by_cases h1 : i = 1
    · subst h1; simp
    · have : ¬ i < 1 := by omega
      have : ¬ i < 2 := by omega
      have : ¬ i - 1 < 1 := by omega
      simp_all [Nat.sub_sub]

private theorem xor_cancel (x y : Word) : x ^^^ (x ^^^ y) = y := by
  rw [← BitVec.xor_assoc, BitVec.xor_self, BitVec.zero_xor]

private theorem xor_swap (x y z : Word) : x ^^^ (y ^^^ z) = y ^^^ (x ^^^ z) := by
  rw [← BitVec.xor_assoc, BitVec.xor_comm x y, BitVec.xor_assoc]

/-- Two rounds of the recurrence at once: the six words that occur twice cancel. -/
private theorem stride_cancel (a b c d e f g h k l : Word) :
    ((a ^^^ b ^^^ c ^^^ d).rotateLeft 1 ^^^ (b ^^^ e ^^^ f ^^^ g).rotateLeft 1 ^^^
      (c ^^^ f ^^^ h ^^^ k).rotateLeft 1 ^^^ (d ^^^ g ^^^ k ^^^ l).rotateLeft 1).rotateLeft 1 =
    (a ^^^ e ^^^ h ^^^ l).rotateLeft 2 := by
  rw [← rotateLeft_xor, ← rotateLeft_xor, ← rotateLeft_xor, rotateLeft_one_one]
  congr 1
  simp only [BitVec.xor_assoc, BitVec.xor_comm, xor_swap, xor_cancel]

/-- From word 32 on every word also obeys the recurrence of stride six. -/
theorem schedule_stride (block : List Byte) {t : Nat} (ht : 32 ≤ t) :
    schedule block t = (schedule block (t - 6) ^^^ schedule block (t - 16) ^^^
      schedule block (t - 28) ^^^ schedule block (t - 32)).rotateLeft 2 := by
  have e3 := schedule_recurrence block (t := t - 3) (by omega)
  have e8 := schedule_recurrence block (t := t - 8) (by omega)
  have e14 := schedule_recurrence block (t := t - 14) (by omega)
  have e16 := schedule_recurrence block (t := t - 16) (by omega)
  simp only [Nat.sub_sub, Nat.reduceAdd] at e3 e8 e14 e16
  have both := stride_cancel (schedule block (t - 6)) (schedule block (t - 11))
    (schedule block (t - 17)) (schedule block (t - 19)) (schedule block (t - 16))
    (schedule block (t - 22)) (schedule block (t - 24)) (schedule block (t - 28))
    (schedule block (t - 30)) (schedule block (t - 32))
  rw [← e3, ← e8, ← e14, ← e16] at both
  rw [schedule_recurrence block (by omega)]
  exact both

/-- The logical function of round `t`. -/
def logical (t : Nat) (x y z : Word) : Word :=
  if t < 20 then (x &&& y) ^^^ (~~~ x &&& z)
  else if t < 40 then x ^^^ y ^^^ z
  else if t < 60 then (x &&& y) ^^^ (x &&& z) ^^^ (y &&& z)
  else x ^^^ y ^^^ z

/-- The constant of round `t`. -/
def roundConstant (t : Nat) : Word :=
  if t < 20 then 0x5a827999
  else if t < 40 then 0x6ed9eba1
  else if t < 60 then 0x8f1bbcdc
  else 0xca62c1d6

/-- The five words carried through the rounds and from block to block. -/
@[ext] structure Chain where
  a : Word
  b : Word
  c : Word
  d : Word
  e : Word
  deriving DecidableEq

def Chain.initial : Chain := ⟨0x67452301, 0xefcdab89, 0x98badcfe, 0x10325476, 0xc3d2e1f0⟩

def Chain.add (s u : Chain) : Chain := ⟨s.a + u.a, s.b + u.b, s.c + u.c, s.d + u.d, s.e + u.e⟩

def round (w : Nat → Word) (s : Chain) (t : Nat) : Chain :=
  ⟨s.a.rotateLeft 5 + logical t s.b s.c s.d + s.e + roundConstant t + w t,
    s.a, s.b.rotateLeft 30, s.c, s.d⟩

def compress (h : Chain) (block : List Byte) : Chain :=
  h.add ((List.range 80).foldl (round (schedule block)) h)

def blocks (padded : List Byte) : List (List Byte) :=
  (List.range (padded.length / 64)).map fun i => (padded.drop (64 * i)).take 64

def Chain.bytes (s : Chain) : List Byte :=
  bigEndian 4 s.a.toNat ++ bigEndian 4 s.b.toNat ++ bigEndian 4 s.c.toNat ++
    bigEndian 4 s.d.toNat ++ bigEndian 4 s.e.toNat

def sha1 (message : List Byte) : List Byte :=
  ((blocks (pad message)).foldl compress Chain.initial).bytes

theorem bigEndian_length (n x : Nat) : (bigEndian n x).length = n := by
  simp [bigEndian]

theorem bigEndian_append (m n x y : Nat) (hy : y < 256 ^ n) :
    bigEndian m x ++ bigEndian n y = bigEndian (m + n) (x * 256 ^ n + y) := by
  have positive : 0 < 256 ^ n := by positivity
  apply List.ext_getElem
  · simp [bigEndian_length]
  · intro i hi hi'
    rw [bigEndian_length] at hi'
    by_cases front : i < m
    · rw [List.getElem_append_left (by rwa [bigEndian_length])]
      simp only [bigEndian, List.getElem_map, List.getElem_range]
      congr 1
      rw [show m + n - 1 - i = n + (m - 1 - i) by omega, Nat.pow_add, ← Nat.div_div_eq_div_mul,
        Nat.add_comm, Nat.add_mul_div_right _ _ positive, Nat.div_eq_of_lt hy, Nat.zero_add]
    · rw [List.getElem_append_right (by rw [bigEndian_length]; omega)]
      simp only [bigEndian, List.getElem_map, List.getElem_range, List.length_map,
        List.length_range]
      -- What lies above byte `n` is a multiple of 256 for every byte below it.
      rw [show n - 1 - (i - m) = m + n - 1 - i by omega]
      apply BitVec.eq_of_toNat_eq
      rw [BitVec.toNat_ofNat, BitVec.toNat_ofNat]
      obtain ⟨d, hd⟩ : ∃ d, n = (m + n - 1 - i) + (d + 1) := ⟨n - 1 - (m + n - 1 - i), by omega⟩
      generalize m + n - 1 - i = j at hd
      subst hd
      have regroup : x * 256 ^ (j + (d + 1)) + y = y + x * 256 ^ d * 256 * 256 ^ j := by ring
      rw [regroup, Nat.add_mul_div_right _ _ (by positivity)]
      omega

theorem bigEndian_mod (n x : Nat) : bigEndian n (x % 256 ^ n) = bigEndian n x := by
  apply List.map_congr_left
  intro i hi
  have hi : i < n := List.mem_range.mp hi
  obtain ⟨d, hd⟩ : ∃ d, n = (n - 1 - i) + (d + 1) := ⟨i, by omega⟩
  generalize n - 1 - i = k at hd
  subst hd
  apply BitVec.eq_of_toNat_eq
  rw [BitVec.toNat_ofNat, BitVec.toNat_ofNat, Nat.pow_add, Nat.mod_mul_right_div_self,
    Nat.mod_mod_of_dvd]
  exact ⟨256 ^ d, by rw [Nat.pow_succ, Nat.mul_comm]⟩

theorem sha1_length (message : List Byte) : (sha1 message).length = 20 := by
  simp [sha1, Chain.bytes, bigEndian_length]

-- HMAC (RFC 2104) with SHA-1 and its 64-byte block.
def hmacKey (key : List Byte) : List Byte :=
  let hashed := if 64 < key.length then sha1 key else key
  hashed ++ List.replicate (64 - hashed.length) 0

def hmac (key text : List Byte) : List Byte :=
  let k := hmacKey key
  sha1 (k.map (· ^^^ 0x5c) ++ sha1 (k.map (· ^^^ 0x36) ++ text))

-- HOTP (RFC 4226) and TOTP (RFC 6238).
/-- Dynamic truncation: 31 bits from the place the last nibble names. -/
def truncate (digest : List Byte) : Nat :=
  let offset := (digest.getD 19 0).toNat % 16
  (wordOfBytes (digest.getD offset 0) (digest.getD (offset + 1) 0)
    (digest.getD (offset + 2) 0) (digest.getD (offset + 3) 0)).toNat % 2 ^ 31

def hotp (key : List Byte) (counter digits : Nat) : Nat :=
  truncate (hmac key (bigEndian 8 counter)) % 10 ^ digits

/-- The code of the time step `time` falls in. -/
def totp (key : List Byte) (time step digits : Nat) : Nat := hotp key (time / step) digits

theorem totp_lt (key : List Byte) (time step digits : Nat) :
    totp key time step digits < 10 ^ digits :=
  Nat.mod_lt _ (by positivity)

/-- Decimal digit `i` of a code of the given width, counted from the left. -/
def codeDigit (width code i : Nat) : Nat := code / 10 ^ (width - 1 - i) % 10

end LoginHelper.Foundation.HashStandard
