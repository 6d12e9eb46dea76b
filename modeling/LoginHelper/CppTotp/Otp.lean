/- Unit: LoginHelper/CppTotp/Otp
   source: src/loginhelper/libcppotp/otp.cpp, src/loginhelper/totp.h
   digest: The one-time codes of the library, and that they are the standard ones. -/

import LoginHelper.CppTotp.Sha1

set_option autoImplicit false
set_option relaxedAutoImplicit false

namespace LoginHelper.CppTotp.Otp

open LoginHelper.Foundation
open LoginHelper.CppTotp.Bytes
open LoginHelper.CppTotp.Sha1 (hmacSha1 hmacSha1_eq wordOfBytes_eq)
open LoginHelper.Windows.ProcessEnvironment (NString)
open LoginHelper.Windows.Runtime (StdException islower toupper)

abbrev HmacFunc := ByteString → ByteString → Option ByteString

def hmacSha1_64 : HmacFunc := fun key msg => hmacSha1 key msg 64

/-- `s.substr(pos, count)`, which throws when `pos` lies behind the end. -/
def substr (s : ByteString) (pos count : Nat) : Option ByteString :=
  if s.length < pos then none else some ((s.drop pos).take count)

/-- `digits10` after `digitCount` rounds of its loop. -/
def digits10 : Nat → U32
  | 0 => 1
  | n + 1 => digits10 n * 10

/-- Absent when an index or `substr` is out of range, or the modulus is zero. -/
def hotp (key : ByteString) (counter : U64) (digitCount : Nat) (hmacf : HmacFunc) :
    Option U32 := do
  let msg := u64beToByteString counter
  let hmac ← hmacf key msg
  let last ← hmac[hmac.length - 1]?
  let offset := (last &&& 0x0f).toNat
  let fourWord ← substr hmac offset 4
  let b0 ← fourWord[0]?
  let b1 ← fourWord[1]?
  let b2 ← fourWord[2]?
  let b3 ← fourWord[3]?
  let ret := (b0.setWidth 32 <<< 24) ||| (b1.setWidth 32 <<< 16) ||| (b2.setWidth 32 <<< 8) |||
    (b3.setWidth 32 <<< 0)
  if digits10 digitCount = 0 then none
  else pure ((ret &&& 0x7fffffff) % digits10 digitCount)

def totp (key : ByteString) (timeNow timeStart timeStep : U64) (digitCount : Nat)
    (hmacf : HmacFunc) : Option U32 :=
  if timeStep = 0 then none
  else hotp key ((timeNow - timeStart) / timeStep) digitCount hmacf

/-- `normalizedBase32String` of `totp.h`. -/
def normalizedBase32String (unnorm : NString) : NString :=
  unnorm.flatMap fun c =>
    if c = 32 ∨ c = 10 ∨ c = 45 then []
    else if islower c then [toupper c]
    else [c]

/-- How the plugin reads a secret. -/
def readSecret (text : NString) : Except StdException ByteString :=
  fromUnpaddedBase32 (normalizedBase32String text)

theorem digits10_toNat {digitCount : Nat} (h : digitCount < 10) :
    (digits10 digitCount).toNat = 10 ^ digitCount := by
  interval_cases digitCount <;> decide

private theorem digest_length (key msg : ByteString) :
    (HashStandard.hmac key msg).length = 20 := HashStandard.sha1_length _

private theorem low_nibble (b : Byte) : (b &&& 0x0f).toNat = b.toNat % 16 := by
  rw [BitVec.toNat_and]
  exact Nat.and_two_pow_sub_one_eq_mod b.toNat 4

private theorem low_bits (x : U32) : (x &&& 0x7fffffff).toNat = x.toNat % 2 ^ 31 := by
  rw [BitVec.toNat_and]
  exact Nat.and_two_pow_sub_one_eq_mod x.toNat 31

private theorem getElem?_getD (s : ByteString) {k : Nat} (h : k < s.length) :
    s[k]? = some (s.getD k 0) := by
  rw [List.getElem?_eq_getElem h, List.getD_eq_getElem _ _ h]

private theorem substr_getElem? (s : ByteString) (offset k : Nat) (room : offset + 4 ≤ s.length)
    (hk : k < 4) : ((s.drop offset).take 4)[k]? = some (s.getD (offset + k) 0) := by
  rw [List.getElem?_take_of_lt hk, List.getElem?_drop]
  exact getElem?_getD s (by omega)

theorem truncate_lt (digest : ByteString) : HashStandard.truncate digest < 2 ^ 31 :=
  Nat.mod_lt _ (by decide)

theorem hotp_run (key : ByteString) (counter : U64) (digitCount : Nat) :
    hotp key counter digitCount hmacSha1_64 =
      if digits10 digitCount = 0 then none
      else some (BitVec.ofNat 32 (HashStandard.truncate
        (HashStandard.hmac key (HashStandard.bigEndian 8 counter.toNat))) % digits10 digitCount) := by
  have length := digest_length key (HashStandard.bigEndian 8 counter.toNat)
  rw [hotp, u64beToByteString_eq, hmacSha1_64, hmacSha1_eq, Option.bind_eq_bind, Option.bind_some]
  generalize HashStandard.hmac key (HashStandard.bigEndian 8 counter.toNat) = digest at length
  have room : (digest.getD 19 0).toNat % 16 + 4 ≤ digest.length := by omega
  have cut : substr digest ((digest.getD (20 - 1) 0).toNat % 16) 4 =
      some ((digest.drop ((digest.getD 19 0).toNat % 16)).take 4) := if_neg (by omega)
  rw [length, getElem?_getD digest (show 20 - 1 < digest.length by omega)]
  simp only [Option.bind_eq_bind, Option.bind_some, low_nibble, cut,
    substr_getElem? digest _ _ room (show 0 < 4 by decide),
    substr_getElem? digest _ _ room (show 1 < 4 by decide),
    substr_getElem? digest _ _ room (show 2 < 4 by decide),
    substr_getElem? digest _ _ room (show 3 < 4 by decide), wordOfBytes_eq]
  congr 3
  apply BitVec.eq_of_toNat_eq
  have small := Nat.lt_trans (truncate_lt digest) (show 2 ^ 31 < 2 ^ 32 by decide)
  rw [low_bits, BitVec.toNat_ofNat, Nat.mod_eq_of_lt small]
  rfl

/-- The library's HOTP is the standard one up to nine digits: the modulus is the power of ten. -/
theorem hotp_eq (key : ByteString) (counter : U64) {digitCount : Nat} (h : digitCount < 10) :
    hotp key counter digitCount hmacSha1_64 =
      some (BitVec.ofNat 32 (HashStandard.hotp key counter.toNat digitCount)) := by
  have modulus := digits10_toNat h
  have nonzero : digits10 digitCount ≠ 0 := by
    intro zero
    rw [zero] at modulus
    have : 0 < 10 ^ digitCount := by positivity
    simp at modulus
    omega
  rw [hotp_run, if_neg nonzero, HashStandard.hotp]
  generalize HashStandard.hmac key (HashStandard.bigEndian 8 counter.toNat) = digest
  apply congrArg some
  apply BitVec.eq_of_toNat_eq
  have small := Nat.lt_trans (truncate_lt digest) (show 2 ^ 31 < 2 ^ 32 by decide)
  have code := Nat.lt_of_le_of_lt (Nat.mod_le _ (10 ^ digitCount)) small
  rw [BitVec.toNat_umod, modulus, BitVec.toNat_ofNat, BitVec.toNat_ofNat, Nat.mod_eq_of_lt small,
    Nat.mod_eq_of_lt code]

theorem totp_eq (key : ByteString) (time step : U64) (positive : step ≠ 0) {digitCount : Nat}
    (h : digitCount < 10) :
    totp key time 0 step digitCount hmacSha1_64 =
      some (BitVec.ofNat 32 (HashStandard.totp key time.toNat step.toNat digitCount)) := by
  rw [totp, if_neg positive, hotp_eq _ _ h, show time - 0 = time from BitVec.sub_zero time,
    BitVec.toNat_udiv]
  rfl

example : hotp ((List.range 20).map fun i => BitVec.ofNat 8 (48 + (i + 1) % 10)) 0 6 hmacSha1_64 = some 755224 := by
  decide +kernel

end LoginHelper.CppTotp.Otp
