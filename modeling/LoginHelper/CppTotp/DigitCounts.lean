/- Unit: LoginHelper/CppTotp/DigitCounts
   source: src/loginhelper/libcppotp/otp.cpp
   digest: The codes of every length: where the wrapping power of ten still gives the standard one. -/

import LoginHelper.CppTotp.Otp

set_option autoImplicit false
set_option relaxedAutoImplicit false

namespace LoginHelper.CppTotp.DigitCounts

open LoginHelper.Foundation
open LoginHelper.CppTotp.Bytes LoginHelper.CppTotp.Otp

theorem digits10_wraps (digitCount : Nat) :
    (digits10 digitCount).toNat = 10 ^ digitCount % 2 ^ 32 := by
  induction digitCount with
  | zero => rfl
  | succ n ih =>
    rw [digits10, BitVec.toNat_mul, ih, Nat.pow_succ]
    exact Nat.mod_mul_mod _ _ _

private theorem digits10_fits {digitCount : Nat} (few : digitCount < 10) :
    10 ^ digitCount % 2 ^ 32 = 10 ^ digitCount := by
  rw [← digits10_wraps, digits10_toNat few]

private theorem code_long (digest : ByteString) {digitCount : Nat} (many : 10 ≤ digitCount) :
    HashStandard.truncate digest % 10 ^ digitCount = HashStandard.truncate digest := by
  apply Nat.mod_eq_of_lt
  calc HashStandard.truncate digest
    _ < 2 ^ 31 := truncate_lt digest
    _ ≤ 10 ^ 10 := by decide
    _ ≤ 10 ^ digitCount := Nat.pow_le_pow_right (by decide) many

private theorem codes_agree (digest : ByteString) (digitCount : Nat) :
    HashStandard.truncate digest % 10 ^ digitCount =
        HashStandard.truncate digest % (10 ^ digitCount % 2 ^ 32) ∧
      10 ^ digitCount % 2 ^ 32 ≠ 0 ↔
    digitCount < 10 ∨ HashStandard.truncate digest < 10 ^ digitCount % 2 ^ 32 := by
  rcases Nat.lt_or_ge digitCount 10 with few | many
  · have positive : 10 ^ digitCount ≠ 0 := by positivity
    rw [digits10_fits few]
    exact iff_of_true ⟨rfl, positive⟩ (.inl few)
  · rw [code_long digest many]
    constructor
    · rintro ⟨same, nonzero⟩
      right
      rw [same]
      exact Nat.mod_lt _ (Nat.pos_of_ne_zero nonzero)
    · rintro (few | below)
      · exact absurd few (Nat.not_lt_of_ge many)
      · exact ⟨(Nat.mod_eq_of_lt below).symm, Nat.ne_zero_of_lt below⟩

private theorem hotp_exact (key : ByteString) (counter : U64) (digitCount : Nat) :
    hotp key counter digitCount hmacSha1_64 =
        some (BitVec.ofNat 32 (HashStandard.hotp key counter.toNat digitCount)) ↔
      digitCount < 10 ∨ HashStandard.truncate (HashStandard.hmac key
        (HashStandard.bigEndian 8 counter.toNat)) < 10 ^ digitCount % 2 ^ 32 := by
  rw [hotp_run, HashStandard.hotp]
  generalize HashStandard.hmac key (HashStandard.bigEndian 8 counter.toNat) = digest
  have small := Nat.lt_trans (truncate_lt digest) (show 2 ^ 31 < 2 ^ 32 by decide)
  have code := Nat.lt_of_le_of_lt (Nat.mod_le _ (10 ^ digitCount)) small
  have modulus : digits10 digitCount = 0 ↔ 10 ^ digitCount % 2 ^ 32 = 0 := by
    rw [← digits10_wraps]
    exact BitVec.toNat_eq
  have value : BitVec.ofNat 32 (HashStandard.truncate digest) % digits10 digitCount =
        BitVec.ofNat 32 (HashStandard.truncate digest % 10 ^ digitCount) ↔
      HashStandard.truncate digest % 10 ^ digitCount =
        HashStandard.truncate digest % (10 ^ digitCount % 2 ^ 32) := by
    rw [BitVec.toNat_eq, BitVec.toNat_umod, digits10_wraps, BitVec.toNat_ofNat, BitVec.toNat_ofNat,
      Nat.mod_eq_of_lt small, Nat.mod_eq_of_lt code, eq_comm]
  rw [← codes_agree, ← value, ne_eq, ← modulus]
  split
  case isTrue zero => exact iff_of_false (Option.some_ne_none _).symm fun both => both.2 zero
  case isFalse nonzero =>
    rw [Option.some.injEq]
    exact (and_iff_left nonzero).symm

/-- For every length the library's TOTP is the standard one exactly if the time step is not
zero and the code has at most nine digits or the truncated digest is below what 32 bits keep
of the power of ten. From 32 digits on they keep nothing. The standard is given the difference of
time and start as 64 bits hold it, so a time before the start counts from there to 2^64. -/
theorem totp_exact (key : ByteString) (timeNow timeStart timeStep : U64) (digitCount : Nat) :
    totp key timeNow timeStart timeStep digitCount hmacSha1_64 =
        some (BitVec.ofNat 32
          (HashStandard.totp key (timeNow - timeStart).toNat timeStep.toNat digitCount)) ↔
      timeStep ≠ 0 ∧ (digitCount < 10 ∨
        HashStandard.truncate (HashStandard.hmac key (HashStandard.bigEndian 8
          ((timeNow - timeStart).toNat / timeStep.toNat))) < 10 ^ digitCount % 2 ^ 32) := by
  rw [totp]
  split
  case isTrue zero => exact iff_of_false (Option.some_ne_none _).symm fun both => both.1 zero
  case isFalse nonzero =>
    have code := hotp_exact key ((timeNow - timeStart) / timeStep) digitCount
    rw [BitVec.toNat_udiv] at code
    rw [HashStandard.totp, code]
    exact (and_iff_right nonzero).symm

end LoginHelper.CppTotp.DigitCounts
