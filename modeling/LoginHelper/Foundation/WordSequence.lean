/- Unit: LoginHelper/Foundation/WordSequence
   layer: library
   digest: Sequences of machine words, read as one number and combined bit by bit. -/

import LoginHelper.Foundation.ByteMemory

set_option autoImplicit false
set_option relaxedAutoImplicit false

namespace LoginHelper.Foundation.WordSequence

open LoginHelper.Foundation.ByteMemory

variable {w : Nat}

/-- The number that words make, the first one lowest. -/
def value (xs : List (BitVec w)) : Nat := Nat.ofDigits (2 ^ w) (xs.map BitVec.toNat)

@[simp] theorem value_nil : value ([] : List (BitVec w)) = 0 := rfl

theorem value_cons (x : BitVec w) (xs : List (BitVec w)) :
    value (x :: xs) = x.toNat + 2 ^ w * value xs := by
  rw [value, List.map_cons, Nat.ofDigits_cons]
  rfl

theorem value_append (xs ys : List (BitVec w)) :
    value (xs ++ ys) = value xs + 2 ^ (w * xs.length) * value ys := by
  rw [value, List.map_append, Nat.ofDigits_append, List.length_map, ← Nat.pow_mul]
  rfl

theorem value_lt (xs : List (BitVec w)) : value xs < 2 ^ (w * xs.length) := by
  induction xs with
  | nil => simp
  | cons x xs ih =>
    rw [value_cons, List.length_cons, Nat.mul_succ, Nat.add_comm _ w, Nat.pow_add]
    calc x.toNat + 2 ^ w * value xs
      _ < 2 ^ w + 2 ^ w * value xs := Nat.add_lt_add_right x.isLt _
      _ = 2 ^ w * (value xs + 1) := by rw [Nat.mul_succ, Nat.add_comm]
      _ ≤ 2 ^ w * 2 ^ (w * xs.length) := Nat.mul_le_mul_left _ ih

/-- The lower and the upper parts of two numbers meet only each other. -/
theorem xor_parts {n a c : Nat} (ha : a < 2 ^ n) (hc : c < 2 ^ n) (b d : Nat) :
    (a + 2 ^ n * b) ^^^ (c + 2 ^ n * d) = (a ^^^ c) + 2 ^ n * (b ^^^ d) := by
  apply Nat.eq_of_testBit_eq
  intro i
  have low := Nat.xor_lt_two_pow ha hc
  rw [Nat.testBit_xor, Nat.add_comm a, Nat.add_comm c, Nat.add_comm (a ^^^ c),
    Nat.testBit_two_pow_mul_add b ha, Nat.testBit_two_pow_mul_add d hc,
    Nat.testBit_two_pow_mul_add (b ^^^ d) low]
  split
  · exact (Nat.testBit_xor ..).symm
  · exact (Nat.testBit_xor ..).symm

theorem value_zipWith_xor {xs ys : List (BitVec w)} (lengths : xs.length = ys.length) :
    value (List.zipWith (· ^^^ ·) xs ys) = value xs ^^^ value ys := by
  induction xs generalizing ys with
  | nil =>
    obtain rfl := List.eq_nil_of_length_eq_zero lengths.symm
    exact (Nat.xor_self 0).symm
  | cons x xs ih =>
    cases ys with
    | nil => cases lengths
    | cons y ys =>
      rw [List.zipWith_cons_cons, value_cons, value_cons, value_cons, ih (Nat.succ.inj lengths),
        xor_parts x.isLt y.isLt, BitVec.toNat_xor]

theorem value_set_xor {xs : List (BitVec w)} {k : Nat} {x : BitVec w} (there : xs[k]? = some x)
    (y : BitVec w) : value (xs.set k (x ^^^ y)) = value xs ^^^ (2 ^ (w * k) * y.toNat) := by
  induction xs generalizing k with
  | nil => cases there
  | cons first xs ih =>
    cases k with
    | zero =>
      obtain rfl := Option.some.inj there
      have parts := xor_parts first.isLt y.isLt (value xs) 0
      rw [Nat.mul_zero, Nat.add_zero, Nat.xor_zero] at parts
      rw [List.set_cons_zero, value_cons, value_cons, Nat.mul_zero, Nat.pow_zero, Nat.one_mul,
        parts, BitVec.toNat_xor]
    | succ k =>
      have zero : 0 < 2 ^ w := Nat.two_pow_pos w
      have parts := xor_parts first.isLt zero (value xs) (2 ^ (w * k) * y.toNat)
      rw [Nat.zero_add, Nat.xor_zero, ← Nat.mul_assoc, ← Nat.pow_add, Nat.add_comm w] at parts
      rw [List.set_cons_succ, value_cons, value_cons, ih there, Nat.mul_succ, parts]

theorem value_concat (xs : List (BitVec w)) (x : BitVec w) :
    value (xs ++ [x]) = value xs ^^^ (2 ^ (w * xs.length) * x.toNat) := by
  have parts := xor_parts (value_lt xs) (Nat.two_pow_pos (w * xs.length)) 0 x.toNat
  rw [Nat.mul_zero, Nat.add_zero, Nat.zero_add, Nat.xor_zero, Nat.zero_xor] at parts
  rw [value_append, value_cons, value_nil, Nat.mul_zero, Nat.add_zero, parts]

/-- Words in memory. -/
def bytesOf {width : Nat} (xs : List (BitVec (8 * width))) : List UInt8 := xs.flatMap littleEndian

variable {width : Nat}

theorem bytesOf_length (xs : List (BitVec (8 * width))) : (bytesOf xs).length = width * xs.length := by
  rw [bytesOf, List.length_flatMap]
  simp [Nat.mul_comm]

theorem valueOf_bytesOf (xs : List (BitVec (8 * width))) : valueOf (bytesOf xs) = value xs := by
  induction xs with
  | nil => rfl
  | cons x xs ih =>
    have bytes : valueOf (bytesOf (x :: xs)) =
        valueOf (littleEndian x) + 256 ^ (littleEndian x).length * valueOf (bytesOf xs) := by
      rw [valueOf, bytesOf, List.flatMap_cons, List.map_append, Nat.ofDigits_append,
        List.length_map]
      rfl
    rw [bytes, ih, valueOf_littleEndian, littleEndian_length, value_cons, Nat.pow_mul]

theorem bytes_filled {bytes bytes' : List UInt8} {n : Nat} (same : valueOf bytes = valueOf bytes')
    (lengths : bytes.length = bytes'.length + n) : bytes = bytes' ++ List.replicate n 0 := by
  have small (l : List UInt8) : ∀ d ∈ l.map UInt8.toNat, d < 256 := by
    intro d member
    obtain ⟨byte, -, rfl⟩ := List.mem_map.mp member
    exact byte.toNat_lt
  have filled : valueOf (bytes' ++ List.replicate n 0) = valueOf bytes' := by
    rw [valueOf, List.map_append, List.map_replicate]
    exact Nat.ofDigits_append_replicate_zero _
  have digits := Nat.ofDigits_inj_of_len_eq (show 1 < 256 by decide)
    (by simp [lengths]) (small bytes) (small (bytes' ++ List.replicate n 0)) (same.trans filled.symm)
  exact List.map_injective_iff.mpr (fun _ _ => UInt8.toNat_inj.mp) digits

end LoginHelper.Foundation.WordSequence
