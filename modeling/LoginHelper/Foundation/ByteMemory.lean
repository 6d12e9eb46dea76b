/- Unit: LoginHelper/Foundation/ByteMemory
   layer: library
   digest: Memory byte by byte, numbers in it lowest byte first, and records of such numbers. -/

import Mathlib.Data.Nat.Digits.Lemmas

set_option autoImplicit false
set_option relaxedAutoImplicit false

namespace LoginHelper.Foundation.ByteMemory

abbrev Address := BitVec 64

/-- What a read at an address finds, if the address can be read at all. -/
abbrev Memory := Address → Option UInt8

def valueOf (bytes : List UInt8) : Nat := Nat.ofDigits 256 (bytes.map UInt8.toNat)

def littleEndian {width : Nat} (value : BitVec (8 * width)) : List UInt8 :=
  (Nat.digitsAppend 256 width value.toNat).map UInt8.ofNat

private theorem toNat_fits {width : Nat} (value : BitVec (8 * width)) :
    value.toNat < 256 ^ width := by
  have small := value.isLt
  rwa [Nat.pow_mul] at small

@[simp] theorem littleEndian_length {width : Nat} (value : BitVec (8 * width)) :
    (littleEndian value).length = width := by
  rw [littleEndian, List.length_map]
  exact Nat.length_digitsAppend (by norm_num) width (toNat_fits value)

theorem valueOf_littleEndian {width : Nat} (value : BitVec (8 * width)) :
    valueOf (littleEndian value) = value.toNat := by
  have digits : (littleEndian value).map UInt8.toNat = Nat.digitsAppend 256 width value.toNat := by
    rw [littleEndian, List.map_map]
    apply (List.map_congr_left ?_).trans (List.map_id _)
    intro digit member
    have small : digit < 256 :=
      Nat.lt_of_mem_digitsAppend (by norm_num) width digit member
    exact UInt8.toNat_ofNat_of_lt small
  rw [valueOf, digits, Nat.digitsAppend, Nat.ofDigits_append_replicate_zero, Nat.ofDigits_digits]

theorem littleEndian_valueOf {width : Nat} (bytes : List UInt8) (length : bytes.length = width) :
    littleEndian (BitVec.ofNat (8 * width) (valueOf bytes)) = bytes := by
  have digits : (bytes.map UInt8.toNat).length = width ∧ ∀ d ∈ bytes.map UInt8.toNat, d < 256 := by
    refine ⟨by rw [List.length_map, length], ?_⟩
    intro d member
    obtain ⟨byte, -, rfl⟩ := List.mem_map.mp member
    exact byte.toNat_lt
  have small : valueOf bytes < 2 ^ (8 * width) := by
    have bound := Nat.ofDigits_lt_base_pow_length (by norm_num) digits.2
    rwa [digits.1, show 256 = 2 ^ 8 by norm_num, ← Nat.pow_mul] at bound
  have back : Nat.digitsAppend 256 width (valueOf bytes) = bytes.map UInt8.toNat :=
    (Nat.setInvOn_digitsAppend_ofDigits (by norm_num) width).1 digits
  rw [littleEndian, BitVec.toNat_ofNat, Nat.mod_eq_of_lt small, back, List.map_map]
  apply (List.map_congr_left ?_).trans (List.map_id _)
  intro byte _
  exact UInt8.ofNat_toNat

def readBytes (memory : Memory) (a : Address) : Nat → Option (List UInt8)
  | 0 => some []
  | n + 1 => do
    let byte ← memory a
    let rest ← readBytes memory (a + 1) n
    pure (byte :: rest)

def readNumber (memory : Memory) (a : Address) (width : Nat) : Option (BitVec (8 * width)) :=
  (readBytes memory a width).map fun bytes => BitVec.ofNat _ (valueOf bytes)

theorem readBytes_length {memory : Memory} {a : Address} {n : Nat} {bytes : List UInt8}
    (read : readBytes memory a n = some bytes) : bytes.length = n := by
  induction n generalizing a bytes with
  | zero =>
    cases read
    rfl
  | succ n ih =>
    rw [readBytes] at read
    obtain ⟨byte, -, read⟩ := Option.bind_eq_some_iff.mp read
    obtain ⟨rest, behind, read⟩ := Option.bind_eq_some_iff.mp read
    obtain rfl := Option.some.inj read
    rw [List.length_cons, ih behind]

def Holds (memory : Memory) (a : Address) (bytes : List UInt8) : Prop :=
  readBytes memory a bytes.length = some bytes

theorem holds_nil (memory : Memory) (a : Address) : Holds memory a [] := rfl

theorem holds_cons {memory : Memory} {a : Address} {byte : UInt8} {bytes : List UInt8} :
    Holds memory a (byte :: bytes) ↔ memory a = some byte ∧ Holds memory (a + 1) bytes := by
  rw [Holds, Holds, List.length_cons, readBytes]
  cases memory a with
  | none => simp
  | some here =>
    cases readBytes memory (a + 1) bytes.length with
    | none => simp
    | some rest => simp

theorem add_ofNat_succ (a : Address) (n : Nat) :
    a + BitVec.ofNat 64 (n + 1) = a + 1 + BitVec.ofNat 64 n := by
  rw [Nat.add_comm n 1, BitVec.ofNat_add, BitVec.add_assoc]
  rfl

theorem holds_append {memory : Memory} {a : Address} {bytes more : List UInt8} :
    Holds memory a (bytes ++ more) ↔
      Holds memory a bytes ∧ Holds memory (a + BitVec.ofNat 64 bytes.length) more := by
  induction bytes generalizing a with
  | nil => simp [holds_nil]
  | cons byte bytes ih =>
    rw [List.cons_append, holds_cons, holds_cons, ih, List.length_cons, add_ofNat_succ, and_assoc]

theorem add_ofNat_add (a : Address) (i j : Nat) :
    a + BitVec.ofNat 64 i + BitVec.ofNat 64 j = a + BitVec.ofNat 64 (i + j) := by
  rw [BitVec.add_assoc, ← BitVec.ofNat_add]

theorem Holds.behind {memory : Memory} {a : Address} {bytes more : List UInt8} {n : Nat}
    (holds : Holds memory a (bytes ++ more)) (length : bytes.length = n) :
    Holds memory (a + BitVec.ofNat 64 n) more :=
  length ▸ (holds_append.mp holds).2

theorem readNumber_of_holds {memory : Memory} {a : Address} {width : Nat}
    {value : BitVec (8 * width)} (holds : Holds memory a (littleEndian value)) :
    readNumber memory a width = some value := by
  rw [Holds, littleEndian_length] at holds
  rw [readNumber, holds, Option.map_some, valueOf_littleEndian, BitVec.ofNat_toNat, BitVec.setWidth_eq]

theorem readBytes_eq_of_holds {memory : Memory} {a : Address} {bytes : List UInt8} {n : Nat}
    (holds : Holds memory a bytes) (count : bytes.length = n) :
    readBytes memory a n = some bytes := count ▸ holds

/-- A field of a record. -/
structure Field where
  width : Nat
  value : BitVec (8 * width)

def record (fields : List Field) : List UInt8 := fields.flatMap fun f => littleEndian f.value

def offset (fields : List Field) : Nat := (fields.map Field.width).sum

@[simp] theorem record_length (fields : List Field) : (record fields).length = offset fields := by
  simp [record, offset, List.length_flatMap]

theorem Holds.field {memory : Memory} {a : Address} (before : List Field) (f : Field)
    (after : List Field) (holds : Holds memory a (record (before ++ f :: after))) :
    readNumber memory (a + BitVec.ofNat 64 (offset before)) f.width = some f.value := by
  rw [record, List.flatMap_append, List.flatMap_cons, holds_append] at holds
  obtain ⟨-, here⟩ := holds
  have start : (before.flatMap fun f => littleEndian f.value).length = offset before :=
    record_length before
  rw [start] at here
  exact readNumber_of_holds (holds_append.mp here).1

theorem Holds.entry {memory : Memory} {a : Address} {α : Type} {bytes : α → List UInt8} {size : Nat}
    (length : ∀ x, (bytes x).length = size) {xs : List α} (holds : Holds memory a (xs.flatMap bytes))
    {i : Nat} {x : α} (here : xs[i]? = some x) :
    Holds memory (a + BitVec.ofNat 64 (size * i)) (bytes x) := by
  induction xs generalizing a i with
  | nil => cases here
  | cons y ys ih =>
    rw [List.flatMap_cons, holds_append, length] at holds
    cases i with
    | zero =>
      obtain rfl := Option.some.inj here
      simpa using holds.1
    | succ i =>
      have next := ih holds.2 here
      rwa [add_ofNat_add, show size + size * i = size * (i + 1) by ring] at next

def ofBytes (base : Address) (bytes : List UInt8) : Memory := fun a => bytes[(a - base).toNat]?

theorem holds_ofBytes (base : Address) (before bytes after : List UInt8)
    (bound : (before ++ bytes ++ after).length ≤ 2 ^ 64) :
    Holds (ofBytes base (before ++ bytes ++ after)) (base + BitVec.ofNat 64 before.length) bytes := by
  induction bytes generalizing before with
  | nil => exact holds_nil _ _
  | cons byte bytes ih =>
    have small : before.length < 2 ^ 64 := by
      simp only [List.length_append, List.length_cons] at bound
      omega
    have shift : before ++ byte :: bytes ++ after = before ++ [byte] ++ bytes ++ after := by simp
    rw [holds_cons]
    constructor
    · have position : (base + BitVec.ofNat 64 before.length - base).toNat = before.length := by
        rw [BitVec.add_comm, BitVec.add_sub_cancel, BitVec.toNat_ofNat, Nat.mod_eq_of_lt small]
      rw [ofBytes, position, List.append_assoc, List.getElem?_append_right (Nat.le_refl _), Nat.sub_self]
      rfl
    · rw [shift] at bound ⊢
      have next := ih (before ++ [byte]) bound
      rwa [List.length_append, List.length_singleton, add_ofNat_succ, BitVec.add_assoc,
        BitVec.add_comm 1, ← BitVec.add_assoc] at next

end LoginHelper.Foundation.ByteMemory
