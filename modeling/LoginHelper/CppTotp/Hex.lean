/- Unit: LoginHelper/CppTotp/Hex
   source: src/loginhelper/libcppotp/bytes.cpp
   digest: The library's hexadecimal texts: what is read, and that it is what would be written. -/

import LoginHelper.CppTotp.Bytes
import LoginHelper.Foundation.Loops

set_option autoImplicit false
set_option relaxedAutoImplicit false

namespace LoginHelper.CppTotp.Hex

open LoginHelper.CppTotp.Bytes
open LoginHelper.Foundation.Loops (foldlM_range)
open LoginHelper.Windows.ProcessEnvironment (NString)
open LoginHelper.Windows.Runtime (StdException)

-- A result is absent where an assertion fails.
def nibbleToLCHex (nib : Byte) : Option UInt8 :=
  if nib < 0xa then some (UInt8.ofNat (nib.toNat + 48))
  else if nib < 0x10 then some (UInt8.ofNat (nib.toNat - 10 + 97))
  else none

def hexToNibble (c : UInt8) : Option Byte :=
  if 48 ≤ c ∧ c ≤ 57 then some (BitVec.ofNat 8 (c.toNat - 48))
  else if 65 ≤ c ∧ c ≤ 70 then some (BitVec.ofNat 8 (c.toNat - 65 + 10))
  else if 97 ≤ c ∧ c ≤ 102 then some (BitVec.ofNat 8 (c.toNat - 97 + 10))
  else none

def byteRound (ret : NString) (b : Byte) : Option NString := do
  let top ← nibbleToLCHex ((b >>> 4) &&& 0x0f)
  let btm ← nibbleToLCHex ((b >>> 0) &&& 0x0f)
  pure (ret ++ [top] ++ [btm])

def toHexString (bstr : ByteString) : Option NString := bstr.foldlM byteRound []

/-- The characters that are not ignored. -/
def isHexDigit (c : UInt8) : Bool := 48 ≤ c && c ≤ 57 || 65 ≤ c && c ≤ 70 || 97 ≤ c && c ≤ 102

def oddLength : String := "hex string (unknown characters ignored) length not divisible by 2"

def pairRound (hstr : NString) (ret : ByteString) (i : Nat) : Option ByteString := do
  let top ← hexToNibble (← hstr[2 * i + 0]?)
  let btm ← hexToNibble (← hstr[2 * i + 1]?)
  pure (ret ++ [(top <<< 4) ||| btm])

def fromHexStringSkipUnknown (str : NString) : Option (Except StdException ByteString) :=
  let hstr := str.filter isHexDigit
  if hstr.length % 2 ≠ 0 then some (.error (.invalidArgument oddLength))
  else ((List.range (hstr.length / 2)).foldlM (pairRound hstr) []).map .ok

/-- A digit in the case that is written. -/
def lowerDigit (c : UInt8) : UInt8 := if 65 ≤ c ∧ c ≤ 70 then c + 32 else c

private theorem digit_of_hex {c : UInt8} (digit : isHexDigit c = true) : ∃ nib < 16,
    hexToNibble c = some (BitVec.ofNat 8 nib) ∧
      nibbleToLCHex (BitVec.ofNat 8 nib) = some (lowerDigit c) := by
  have every : ∀ n < 256, isHexDigit (UInt8.ofNat n) = true → ∃ nib < 16,
      hexToNibble (UInt8.ofNat n) = some (BitVec.ofNat 8 nib) ∧
        nibbleToLCHex (BitVec.ofNat 8 nib) = some (lowerDigit (UInt8.ofNat n)) := by
    decide +kernel
  have here := every c.toNat c.toNat_lt
  rw [UInt8.ofNat_toNat] at here
  exact here digit

private theorem nibbles_of_pair : ∀ top < 16, ∀ btm < 16,
    (((BitVec.ofNat 8 top <<< 4) ||| BitVec.ofNat 8 btm) >>> 4) &&& 0x0f = BitVec.ofNat 8 top ∧
    (((BitVec.ofNat 8 top <<< 4) ||| BitVec.ofNat 8 btm) >>> 0) &&& 0x0f = BitVec.ofNat 8 btm := by
  decide +kernel

private def hexPair (b : Byte) : NString :=
  [(nibbleToLCHex ((b >>> 4) &&& 0x0f)).getD 0, (nibbleToLCHex ((b >>> 0) &&& 0x0f)).getD 0]

private def readPair (pair : NString) : Option Byte := do
  let top ← hexToNibble (← pair[0]?)
  let btm ← hexToNibble (← pair[1]?)
  pure ((top <<< 4) ||| btm)

private theorem byte_written (b : Byte) :
    (nibbleToLCHex ((b >>> 4) &&& 0x0f)).isSome = true ∧
      (nibbleToLCHex ((b >>> 0) &&& 0x0f)).isSome = true ∧ readPair (hexPair b) = some b := by
  have every : ∀ n < 256,
      (nibbleToLCHex ((BitVec.ofNat 8 n >>> 4) &&& 0x0f)).isSome = true ∧
        (nibbleToLCHex ((BitVec.ofNat 8 n >>> 0) &&& 0x0f)).isSome = true ∧
          readPair (hexPair (BitVec.ofNat 8 n)) = some (BitVec.ofNat 8 n) := by
    decide +kernel
  have here := every b.toNat b.isLt
  rwa [BitVec.ofNat_toNat, BitVec.setWidth_eq] at here

private theorem byteRound_run (ret : NString) (b : Byte) :
    byteRound ret b = some (ret ++ hexPair b) := by
  obtain ⟨top, first⟩ := Option.isSome_iff_exists.mp (byte_written b).1
  obtain ⟨btm, second⟩ := Option.isSome_iff_exists.mp (byte_written b).2.1
  rw [byteRound, hexPair, first, second]
  simp

private theorem toHexString_eq (bstr : ByteString) :
    toHexString bstr = some (bstr.flatMap hexPair) := by
  have loop (ret : NString) : bstr.foldlM byteRound ret = some (ret ++ bstr.flatMap hexPair) := by
    induction bstr generalizing ret with
    | nil => simp
    | cons b bstr ih =>
      rw [List.foldlM_cons, byteRound_run, Option.bind_eq_bind, Option.bind_some, ih,
        List.flatMap_cons, List.append_assoc]
  exact loop []

private theorem flatMap_hexPair_injective {bs cs : ByteString}
    (same : bs.flatMap hexPair = cs.flatMap hexPair) : bs = cs := by
  induction bs generalizing cs with
  | nil =>
    cases cs with
    | nil => rfl
    | cons c cs => cases same
  | cons b bs ih =>
    cases cs with
    | nil => cases same
    | cons c cs =>
      rw [List.flatMap_cons, List.flatMap_cons] at same
      obtain ⟨pair, rest⟩ := List.append_inj same rfl
      have byte : some b = some c := by
        rw [← (byte_written b).2.2, ← (byte_written c).2.2, pair]
      rw [Option.some.inj byte, ih rest]

private theorem pairRound_step {hstr : NString} (digits : ∀ c ∈ hstr, isHexDigit c = true) {i : Nat}
    (inside : i < hstr.length / 2) {ret : ByteString}
    (so_far : ret.flatMap hexPair = (hstr.take (2 * i)).map lowerDigit) :
    ∃ ret', pairRound hstr ret i = some ret' ∧
      ret'.flatMap hexPair = (hstr.take (2 * (i + 1))).map lowerDigit := by
  have first : 2 * i < hstr.length := by omega
  have second : 2 * i + 1 < hstr.length := by omega
  obtain ⟨top, high, top_value, top_text⟩ := digit_of_hex (digits _ (List.getElem_mem first))
  obtain ⟨btm, low, btm_value, btm_text⟩ := digit_of_hex (digits _ (List.getElem_mem second))
  obtain ⟨upper, lower⟩ := nibbles_of_pair top high btm low
  have pair : hexPair ((BitVec.ofNat 8 top <<< 4) ||| BitVec.ofNat 8 btm) =
      [lowerDigit hstr[2 * i], lowerDigit hstr[2 * i + 1]] := by
    rw [hexPair, upper, lower, top_text, btm_text]
    rfl
  refine ⟨ret ++ [(BitVec.ofNat 8 top <<< 4) ||| BitVec.ofNat 8 btm], ?_, ?_⟩
  · rw [pairRound, Nat.add_zero, List.getElem?_eq_getElem first, List.getElem?_eq_getElem second]
    simp only [Option.bind_eq_bind, Option.bind_some, top_value, btm_value]
    rfl
  · have taken : hstr.take (2 * (i + 1)) = hstr.take (2 * i) ++ [hstr[2 * i], hstr[2 * i + 1]] := by
      rw [show 2 * (i + 1) = 2 * i + 1 + 1 by omega, ← List.take_concat_get' _ _ second,
        ← List.take_concat_get' _ _ first, List.append_assoc]
      rfl
    rw [List.flatMap_append, so_far, List.flatMap_singleton, pair, taken, List.map_append]
    rfl

private theorem fromHexStringSkipUnknown_even {str : NString}
    (even : (str.filter isHexDigit).length % 2 = 0) : ∃ bstr,
      fromHexStringSkipUnknown str = some (.ok bstr) ∧
        toHexString bstr = some ((str.filter isHexDigit).map lowerDigit) := by
  have digits : ∀ c ∈ str.filter isHexDigit, isHexDigit c = true :=
    fun c member => List.of_mem_filter member
  obtain ⟨bstr, run, all⟩ := foldlM_range
    (fun i (ret : ByteString) =>
      ret.flatMap hexPair = ((str.filter isHexDigit).take (2 * i)).map lowerDigit)
    (show ([] : ByteString).flatMap hexPair = _ from rfl)
    fun i inside ret so_far => pairRound_step digits inside so_far
  refine ⟨bstr, ?_, ?_⟩
  · rw [fromHexStringSkipUnknown, if_neg (not_not.mpr even), run, Option.map_some]
  · rw [toHexString_eq, all, Nat.mul_div_cancel' (Nat.dvd_of_mod_eq_zero even), List.take_length]

private theorem hexPair_lower (b : Byte) :
    ∀ c ∈ hexPair b, isHexDigit c = true ∧ lowerDigit c = c := by
  have every : ∀ n < 256, ∀ c ∈ hexPair (BitVec.ofNat 8 n),
      isHexDigit c = true ∧ lowerDigit c = c := by
    decide +kernel
  have here := every b.toNat b.isLt
  rwa [BitVec.ofNat_toNat, BitVec.setWidth_eq] at here

private theorem read_iff_written (str : NString) (bstr : ByteString) :
    fromHexStringSkipUnknown str = some (.ok bstr) ↔
      toHexString bstr = some ((str.filter isHexDigit).map lowerDigit) := by
  rcases Decidable.em ((str.filter isHexDigit).length % 2 = 0) with even | odd
  · obtain ⟨read, run, text⟩ := fromHexStringSkipUnknown_even even
    rw [run]
    constructor
    · intro same
      cases same
      exact text
    · intro written
      rw [toHexString_eq] at written text
      have same := Option.some.inj (written.trans text.symm)
      rw [flatMap_hexPair_injective same]
  · have run : fromHexStringSkipUnknown str = some (.error (.invalidArgument oddLength)) :=
      if_pos odd
    rw [run]
    refine iff_of_false nofun fun written => ?_
    rw [toHexString_eq] at written
    have lengths := congrArg List.length (Option.some.inj written)
    have pairs : (bstr.flatMap hexPair).length = 2 * bstr.length := by
      simp [List.length_flatMap, hexPair, Nat.mul_comm]
    rw [pairs, List.length_map] at lengths
    omega

/-- Every byte string is read back from its text. What any text is read as is exactly what its
digits, in lower case, are the text of; the reader throws exactly if their number is odd, and no
assertion of either function ever fails. -/
theorem hex_read_iff :
    (∀ bstr, ∃ text, toHexString bstr = some text ∧
      fromHexStringSkipUnknown text = some (.ok bstr)) ∧
    ∀ str, (∀ bstr, fromHexStringSkipUnknown str = some (.ok bstr) ↔
        toHexString bstr = some ((str.filter isHexDigit).map lowerDigit)) ∧
      (∀ e, fromHexStringSkipUnknown str = some (.error e) ↔
        e = .invalidArgument oddLength ∧ (str.filter isHexDigit).length % 2 ≠ 0) ∧
      fromHexStringSkipUnknown str ≠ none := by
  refine ⟨fun bstr => ⟨bstr.flatMap hexPair, toHexString_eq bstr, ?_⟩, fun str =>
    ⟨read_iff_written str, ?_⟩⟩
  · have written : ∀ c ∈ bstr.flatMap hexPair, isHexDigit c = true ∧ lowerDigit c = c := by
      intro c member
      obtain ⟨b, -, inside⟩ := List.mem_flatMap.mp member
      exact hexPair_lower b c inside
    have digits : (bstr.flatMap hexPair).filter isHexDigit = bstr.flatMap hexPair :=
      List.filter_eq_self.mpr fun c member => (written c member).1
    have lower : (bstr.flatMap hexPair).map lowerDigit = bstr.flatMap hexPair :=
      (List.map_congr_left fun c member => (written c member).2).trans (List.map_id _)
    rw [read_iff_written, digits, lower, toHexString_eq]
  · rcases Decidable.em ((str.filter isHexDigit).length % 2 = 0) with even | odd
    · obtain ⟨read, run, -⟩ := fromHexStringSkipUnknown_even even
      rw [run]
      exact ⟨fun e => iff_of_false nofun fun thrown => thrown.2 even, nofun⟩
    · have run : fromHexStringSkipUnknown str = some (.error (.invalidArgument oddLength)) :=
        if_pos odd
      rw [run]
      refine ⟨fun e => ⟨?_, ?_⟩, nofun⟩
      · intro same
        cases same
        exact ⟨rfl, odd⟩
      · rintro ⟨rfl, -⟩
        rfl

end LoginHelper.CppTotp.Hex
