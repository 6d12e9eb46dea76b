/- Unit: LoginHelper/Ntapi/SourceStrings
   source: include/ntapi/string.h
   digest: What a counted string built from a terminated one says of it. -/

import LoginHelper.Ntapi.Strings

set_option autoImplicit false
set_option relaxedAutoImplicit false

namespace LoginHelper.Ntapi.SourceStrings

open LoginHelper.Ntapi.Strings

/-- A terminated string in memory, with whatever lies behind its terminator. -/
structure SourceString (T : CharType) where
  text : List T.Value
  beyond : List T.Value
  noNul : (0 : T.Value) ∉ text

variable {T : CharType} (source : SourceString T)

def SourceString.memory : List T.Value := source.text ++ 0 :: source.beyond

def SourceString.bytes : Nat := source.text.length * T.size

/-- The text is short enough for a 16-bit count of its bytes. -/
def Fits : Prop := source.bytes < 65536

def SizeAgrees (s : BasicString T) : Prop := (size s).toNat = source.text.length

def CharactersAgree (s : BasicString T) : Prop := characters s = source.text

def EmptyAgrees (s : BasicString T) : Prop := empty s = true ↔ source.text = []

private theorem traitsLength_memory : traitsLength source.memory = some source.text.length := by
  rw [traitsLength, SourceString.memory, List.findIdx?_append]
  have absent : source.text.findIdx? (· == 0) = none := by
    rw [List.findIdx?_eq_none_iff]
    intro c hc
    rw [beq_eq_false_iff_ne]
    rintro rfl
    exact source.noNul hc
  rw [absent]
  simp [List.findIdx?_cons]

/-- The length field: the count of bytes, narrowed. -/
def SourceString.length : UInt16 := UInt16.ofNat source.bytes

theorem SourceString.length_toNat : source.length.toNat = source.bytes % 65536 :=
  UInt16.toNat_ofNat'

private theorem length_whole : source.length.toNat % T.size = 0 := by
  have divides : T.size ∣ 65536 := by
    cases T with
    | char => decide
    | wchar => decide
  rw [source.length_toNat, SourceString.bytes, Nat.mod_mod_of_dvd _ divides, Nat.mul_mod_left]

private theorem length_backed : source.length.toNat ≤ source.memory.length * T.size := by
  have less : source.length.toNat ≤ source.bytes := by
    rw [source.length_toNat]
    exact Nat.mod_le _ _
  refine Nat.le_trans less (Nat.mul_le_mul_right _ ?_)
  rw [SourceString.memory, List.length_append]
  exact Nat.le_add_right _ _

/-- The string that the constructor makes of the source. -/
def counted : Counted T where
  length := source.length
  maximumLength := source.length
  buffer := some source.memory
  whole := length_whole source
  backed := length_backed source

theorem basicString_source :
    basicString (some source.memory) = some (counted source).toBasicString := by
  rw [basicString, traitsLength_memory]
  rfl

private theorem counted_endBytes :
    endBytes (counted source).toBasicString = source.bytes % 65536 := source.length_toNat

private theorem counted_count : (counted source).count = source.bytes % 65536 / T.size := by
  rw [Counted.count, counted_endBytes]

theorem counted_count_iff : (counted source).count = source.text.length ↔ Fits source := by
  rw [counted_count, Fits]
  have bytes : source.bytes / T.size = source.text.length :=
    Nat.mul_div_cancel _ T.size_pos
  constructor
  · intro same
    have whole := length_whole source
    rw [source.length_toNat] at whole
    have back := Nat.div_mul_cancel (Nat.dvd_of_mod_eq_zero whole)
    rw [same] at back
    have small := Nat.mod_lt source.bytes (show 0 < 65536 by decide)
    rw [← back] at small
    exact small
  · intro small
    rw [Nat.mod_eq_of_lt small, bytes]

theorem sizeAgrees_iff : SizeAgrees source (counted source).toBasicString ↔ Fits source := by
  rw [← counted_count_iff]
  have small : (counted source).count < 65536 :=
    Nat.lt_of_le_of_lt (Nat.div_le_self _ _) (UInt16.toNat_lt _)
  have toNat : (size (counted source).toBasicString).toNat = (counted source).count :=
    UInt16.toNat_ofNat'.trans (Nat.mod_eq_of_lt small)
  rw [SizeAgrees, toNat]

private theorem count_le_text : (counted source).count ≤ source.text.length := by
  rw [counted_count]
  calc source.bytes % 65536 / T.size
      ≤ source.bytes / T.size := Nat.div_le_div_right (Nat.mod_le _ _)
    _ = source.text.length := Nat.mul_div_cancel _ T.size_pos

theorem counted_characters :
    characters (counted source).toBasicString = source.text.take (counted source).count := by
  rw [(counted source).characters_eq]
  exact List.take_append_of_le_length (count_le_text source)

theorem charactersAgree_iff :
    CharactersAgree source (counted source).toBasicString ↔ Fits source := by
  rw [← counted_count_iff, CharactersAgree, counted_characters]
  constructor
  · intro whole
    have lengths := congrArg List.length whole
    rw [List.length_take, Nat.min_eq_left (count_le_text source)] at lengths
    exact lengths
  · intro all
    exact List.take_of_length_le (Nat.le_of_eq all.symm)

theorem empty_counted :
    empty (counted source).toBasicString = true ↔ ¬ 65536 ∣ source.bytes := by
  have zero : source.length = 0 ↔ 65536 ∣ source.bytes := by
    rw [← UInt16.toNat_inj, source.length_toNat]
    exact (Nat.dvd_iff_mod_eq_zero ..).symm
  rw [← zero]
  simp [empty, sizeBytes, counted]

theorem emptyAgrees_iff : EmptyAgrees source (counted source).toBasicString ↔
    source.text ≠ [] ∧ 65536 ∣ source.bytes := by
  rw [EmptyAgrees, empty_counted]
  constructor
  · intro agrees
    by_cases none : source.text = []
    · have zero : source.bytes = 0 := by rw [SourceString.bytes, none]; exact Nat.zero_mul _
      exact absurd (zero ▸ Nat.dvd_zero _) (agrees.mpr none)
    · exact ⟨none, not_not.mp fun h => none (agrees.mp h)⟩
  · rintro ⟨some, whole⟩
    exact ⟨fun h => absurd whole h, fun h => absurd h some⟩

end LoginHelper.Ntapi.SourceStrings
