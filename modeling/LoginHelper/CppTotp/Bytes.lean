/- Unit: LoginHelper/CppTotp/Bytes
   source: src/loginhelper/libcppotp/bytes.cpp
   digest: Byte strings, big-endian integers, and the Base32 reader. -/

import LoginHelper.Foundation.HashStandard
import LoginHelper.Windows.Runtime

set_option autoImplicit false
set_option relaxedAutoImplicit false

namespace LoginHelper.CppTotp.Bytes

open LoginHelper.Foundation.HashStandard (bigEndian bigEndian_append)
open LoginHelper.Windows.ProcessEnvironment (NString)
open LoginHelper.Windows.Runtime (StdException)

abbrev Byte := BitVec 8
abbrev ByteString := List Byte
abbrev U32 := BitVec 32
abbrev U64 := BitVec 64

def u32beToByteString (num : U32) : ByteString :=
  [((num >>> 24) &&& 0xff).setWidth 8, ((num >>> 16) &&& 0xff).setWidth 8,
    ((num >>> 8) &&& 0xff).setWidth 8, ((num >>> 0) &&& 0xff).setWidth 8]

def u64beToByteString (num : U64) : ByteString :=
  let left := u32beToByteString (((num >>> 32) &&& 0xffffffff).setWidth 32)
  let right := u32beToByteString (((num >>> 0) &&& 0xffffffff).setWidth 32)
  left ++ right

/-- `while (more(s.size())) s.push_back(c)`, for at most `fuel` rounds. -/
def pushWhile {α : Type} (more : Nat → Bool) (c : α) : Nat → List α → List α
  | 0, s => s
  | fuel + 1, s => if more s.length then pushWhile more c fuel (s ++ [c]) else s

/-- One round of the character loop of `b32ChunkToBytes`: `whole` and `padcount`. -/
def b32Step (st : U64 × Nat) (ci : UInt8 × Nat) : Except StdException (U64 × Nat) :=
  let (whole, padcount) := st
  let (c, i) := ci
  if c = 61 then .ok (whole ||| (0 <<< ((7 - i) * 5)), padcount + 1)
  else if 0 < padcount then
    .error (.invalidArgument "padding character followed by non-padding character")
  else if 65 ≤ c ∧ c ≤ 90 then
    .ok (whole ||| ((BitVec.ofNat 8 (c.toNat - 65)).setWidth 64 <<< ((7 - i) * 5)), padcount)
  else if 50 ≤ c ∧ c ≤ 55 then
    .ok (whole ||| ((BitVec.ofNat 8 (c.toNat - 50 + 26)).setWidth 64 <<< ((7 - i) * 5)), padcount)
  else
    .error (.invalidArgument ("not a base32 character: ".push (Char.ofNat c.toNat)))

/-- The `switch` over the number of padding characters. -/
def finalcount (padcount : Nat) : Except StdException Nat :=
  match padcount with
  | 0 => .ok 5
  | 1 => .ok 4
  | 3 => .ok 3
  | 4 => .ok 2
  | 6 => .ok 1
  | _ => .error (.invalidArgument "invalid number of padding characters")

def b32ChunkToBytes (str : NString) : Except StdException ByteString :=
  if str.length ≠ 8 then .error (.invalidArgument "incorrect length of base32 chunk")
  else do
    let (whole, padcount) ← str.zipIdx.foldlM b32Step (0, 0)
    let count ← finalcount padcount
    pure ((List.range count).map fun i => ((whole >>> ((4 - i) * 8)) &&& 0xff).setWidth 8)

def fromBase32 (b32str : NString) : Except StdException ByteString :=
  if b32str.length % 8 ≠ 0 then
    .error (.invalidArgument "base32 string length not divisible by 8")
  else
    (List.range (b32str.length / 8)).foldlM (fun ret i => do
      let chk ← b32ChunkToBytes ((b32str.drop (8 * i)).take 8)
      pure (ret ++ chk)) []

def fromUnpaddedBase32 (b32str : NString) : Except StdException ByteString :=
  fromBase32 (pushWhile (fun n => n % 8 ≠ 0) 61 8 b32str)

theorem pushWhile_eq {α : Type} (more : Nat → Bool) (c : α) (k fuel : Nat) (s : List α)
    (goOn : ∀ j < k, more (s.length + j) = true) (stop : more (s.length + k) = false)
    (enough : k ≤ fuel) : pushWhile more c fuel s = s ++ List.replicate k c := by
  induction k generalizing s fuel with
  | zero =>
    cases fuel with
    | zero => simp [pushWhile]
    | succ fuel =>
      rw [Nat.add_zero] at stop
      simp [pushWhile, stop]
  | succ k ih =>
    obtain ⟨fuel, rfl⟩ : ∃ n, fuel = n + 1 := ⟨fuel - 1, by omega⟩
    have first := goOn 0 (by omega)
    rw [Nat.add_zero] at first
    rw [pushWhile, if_pos first, ih fuel (s ++ [c])]
    · rw [List.append_assoc, List.singleton_append, ← List.replicate_succ]
    · intro j hj
      rw [List.length_append, List.length_singleton, Nat.add_assoc, Nat.add_comm 1 j]
      exact goOn (j + 1) (by omega)
    · rw [List.length_append, List.length_singleton, Nat.add_assoc, Nat.add_comm 1 k]
      exact stop
    · omega

private theorem and_low_byte (x : U32) : (x &&& 0xff).setWidth 8 = x.setWidth 8 := by
  rw [BitVec.setWidth_and]
  exact BitVec.and_allOnes

private theorem byte_eq (x : U32) (k : Nat) :
    ((x >>> (8 * k)) &&& 0xff).setWidth 8 = BitVec.ofNat 8 (x.toNat / 256 ^ k) := by
  rw [and_low_byte]
  apply BitVec.eq_of_toNat_eq
  rw [BitVec.toNat_setWidth, BitVec.toNat_ushiftRight, BitVec.toNat_ofNat,
    Nat.shiftRight_eq_div_pow, Nat.pow_mul]

theorem u32beToByteString_eq (num : U32) : u32beToByteString num = bigEndian 4 num.toNat := by
  have b3 := byte_eq num 3
  have b2 := byte_eq num 2
  have b1 := byte_eq num 1
  have b0 := byte_eq num 0
  rw [u32beToByteString, b3, b2, b1, b0]
  rfl

theorem u64beToByteString_eq (num : U64) : u64beToByteString num = bigEndian 8 num.toNat := by
  have low : ((num >>> 0) &&& 0xffffffff).setWidth 32 = num.setWidth 32 := by
    rw [BitVec.ushiftRight_zero, BitVec.setWidth_and]
    exact BitVec.and_allOnes
  have high : ((num >>> 32) &&& 0xffffffff).setWidth 32 = (num >>> 32).setWidth 32 := by
    rw [BitVec.setWidth_and]
    exact BitVec.and_allOnes
  have bound := num.isLt
  rw [u64beToByteString, low, high]
  simp only [u32beToByteString_eq]
  rw [bigEndian_append 4 4 _ _ (BitVec.isLt _)]
  congr 1
  simp only [BitVec.toNat_setWidth, BitVec.toNat_ushiftRight, Nat.shiftRight_eq_div_pow]
  omega

end LoginHelper.CppTotp.Bytes
