/- Unit: LoginHelper/Xorstr
   source: include/xorstr.hpp
   digest: Literals that the program keeps encrypted are what they were once they are decrypted. -/

import LoginHelper.Foundation.Loops
import LoginHelper.Foundation.WordSequence

set_option autoImplicit false
set_option relaxedAutoImplicit false

namespace LoginHelper.Xorstr

open LoginHelper.Foundation.ByteMemory LoginHelper.Foundation.WordSequence
open LoginHelper.Foundation.Loops (foldlM_range)

abbrev U32 : Type := BitVec 32

abbrev U64 : Type := BitVec 64

/-- The character types for which there is an `unsigned_`. -/
inductive ValueType
  | char
  | wchar
  | char32
  deriving DecidableEq

def ValueType.size : ValueType → Nat
  | .char => 1
  | .wchar => 2
  | .char32 => 4

abbrev ValueType.Value (T : ValueType) : Type := BitVec (8 * T.size)

/-- Whether `JM_XORSTR_DISABLE_AVX_INTRINSICS` is defined. -/
inductive Build
  | avx
  | noAvx
  deriving DecidableEq

/-- `_buffer_size` -/
def bufferSize (size : Nat) : Nat := (size / 16 + if size % 16 ≠ 0 then 1 else 0) * 2

def bufferAlign (build : Build) (size : Nat) : Nat :=
  match build with
  | .avx => if 16 < size then 32 else 16
  | .noAvx => 16

/-- `time` is `__TIME__` with its terminator. -/
def key4 (time : List (BitVec 8)) (seed : U32) : U32 :=
  time.foldl (fun value c => ((value ^^^ c.signExtend 32).setWidth 64 * 16777619).setWidth 32) seed

def key8 (time : List (BitVec 8)) (s : Nat) : U64 :=
  let firstPart := key4 time (BitVec.ofNat 32 (2166136261 + s))
  let secondPart := key4 time firstPart
  (firstPart.setWidth 64 <<< 32) ||| secondPart.setWidth 64

/-- `xor_string`: the literal and its keys, of which there are as many as words in the buffer. -/
structure XorString (T : ValueType) where
  str : List T.Value
  keys : List U64
  keys_length : keys.length = bufferSize (str.length * T.size)

def makeXorstr (time : List (BitVec 8)) {T : ValueType} (str : List T.Value) : XorString T where
  str := str
  keys := (List.range (bufferSize (str.length * T.size))).map (key8 time)
  keys_length := by rw [List.length_map, List.length_range]

/-- An array of words where the compiler has put it. -/
structure AlignedArray (align count : Nat) where
  address : Nat
  aligned : address % align = 0
  words : List U64
  words_length : words.length = count

def setAt (array : List U64) (i : Nat) (word : U64) : Option (List U64) :=
  if i < array.length then some (array.set i word) else none

def assign (count : Nat) (values array : List U64) : Option (List U64) :=
  (List.range count).foldlM (fun array idx => do
    let word ← values[idx]?
    setAt array idx word) array

/-- `_crypt_256_single` and `_crypt_128_single`. The two loads and the store fault away from a
multiple of their width. -/
def cryptSingle (lanes keysAt storageAt : Nat) (keys storage : List U64) (i : Nat) :
    Option (List U64) :=
  if (keysAt + 8 * i) % (8 * lanes) = 0 ∧ (storageAt + 8 * i) % (8 * lanes) = 0 ∧
      i + lanes ≤ keys.length ∧ i + lanes ≤ storage.length then
    some (storage.take i ++
      List.zipWith (· ^^^ ·) ((storage.drop i).take lanes) ((keys.drop i).take lanes) ++
      storage.drop (i + lanes))
  else none

def cryptGroups (lanes keysAt storageAt : Nat) (keys : List U64) (idxs : List Nat)
    (storage : List U64) : Option (List U64) :=
  idxs.foldlM (fun storage idx => cryptSingle lanes keysAt storageAt keys storage (idx * lanes))
    storage

def crypt256 := cryptGroups 4

def crypt128 := cryptGroups 2

section Code

variable {T : ValueType} (x : XorString T)

/-- `sizeof(str)` -/
def XorString.sizeBytes : Nat := x.str.length * T.size

/-- A round of the constructor of `string_storage`. -/
def storeChar (storage : List U64) (i : Nat) : Option (List U64) := do
  let c ← x.str[i]?
  let word ← storage[i / (8 / T.size)]?
  setAt storage (i / (8 / T.size)) (word ^^^ (c.setWidth 64 <<< (i % (8 / T.size) * 8 * T.size)))

def stringStorage : Option (List U64) := (List.range x.str.length).foldlM (storeChar x) x.keys

/-- `_copy` -/
def copy (words : List U64) : Option (List U64) := do
  let storage ← stringStorage x
  assign x.keys.length storage words

variable (build : Build)

/-- The two ways in which `crypt` ends, of which the preprocessor takes one. -/
def cryptWords (keysAt storageAt : Nat) (keys words : List U64) : Option (List U64) :=
  match build with
  | .avx => do
    let words ← crypt256 keysAt storageAt keys (List.range (x.keys.length / 4)) words
    if x.keys.length % 4 ≠ 0 then
      crypt128 keysAt storageAt keys [x.keys.length / 2 - 1] words
    else pure words
  | .noAvx => crypt128 keysAt storageAt keys (List.range (x.keys.length / 2)) words

/-- `crypt` of an object at an address. Its own array of keys begins as it happens to. -/
def crypt (storageAt : Nat) (keys : AlignedArray (bufferAlign build x.sizeBytes) x.keys.length)
    (words : List U64) : Option (List U64) := do
  let keyWords ← assign x.keys.length x.keys keys.words
  let words ← copy x words
  cryptWords x build keys.address storageAt keyWords words

end Code

private theorem bufferSize_covers (size : Nat) : size ≤ 8 * bufferSize size := by
  rw [bufferSize]
  split
  · omega
  · omega

private theorem bufferSize_even (size : Nat) : bufferSize size % 2 = 0 := Nat.mul_mod_left _ 2

private theorem bufferAlign_avx {size : Nat} (four : 4 ≤ bufferSize size) :
    bufferAlign .avx size = 32 := by
  rw [bufferSize] at four
  have large : 16 < size := by
    split at four
    · omega
    · omega
  exact if_pos large

private theorem bufferAlign_half (build : Build) (size : Nat) : 16 ∣ bufferAlign build size := by
  cases build with
  | avx =>
    rw [bufferAlign]
    split
    · decide
    · decide
  | noAvx => exact Nat.dvd_refl 16

variable {T : ValueType}

private theorem place_of_char (T : ValueType) (i : Nat) :
    64 * (i / (8 / T.size)) + i % (8 / T.size) * 8 * T.size = 8 * T.size * i ∧
      i % (8 / T.size) * 8 * T.size + 8 * T.size ≤ 64 := by
  cases T with
  | char => simp only [ValueType.size]; omega
  | wchar => simp only [ValueType.size]; omega
  | char32 => simp only [ValueType.size]; omega

private theorem setAt_run {array : List U64} {i : Nat} (inside : i < array.length) (word : U64) :
    setAt array i word = some (array.set i word) := if_pos inside

private theorem shifted_char (c : T.Value) {s : Nat} (room : s + 8 * T.size ≤ 64) :
    (c.setWidth 64 <<< s).toNat = 2 ^ s * c.toNat := by
  have small := c.isLt
  have fits : 2 ^ s * c.toNat < 2 ^ 64 := by
    calc 2 ^ s * c.toNat
      _ < 2 ^ s * 2 ^ (8 * T.size) := Nat.mul_lt_mul_of_pos_left small (Nat.two_pow_pos s)
      _ = 2 ^ (s + 8 * T.size) := (Nat.pow_add ..).symm
      _ ≤ 2 ^ 64 := Nat.pow_le_pow_right (by decide) room
  have wide : c.toNat < 2 ^ 64 := Nat.lt_of_le_of_lt (Nat.le_mul_of_pos_left _ (Nat.two_pow_pos s)) fits
  rw [BitVec.toNat_shiftLeft, BitVec.toNat_setWidth, Nat.mod_eq_of_lt wide, Nat.shiftLeft_eq,
    Nat.mul_comm, Nat.mod_eq_of_lt fits]

variable (x : XorString T)

private theorem word_of_char {i : Nat} (inside : i < x.str.length) :
    i / (8 / T.size) < x.keys.length := by
  have covers := bufferSize_covers (x.str.length * T.size)
  rw [← x.keys_length] at covers
  have place := place_of_char T i
  have positive : 0 < T.size := by
    cases T with
    | char => decide
    | wchar => decide
    | char32 => decide
  have before : T.size * i < T.size * x.str.length := Nat.mul_lt_mul_of_pos_left inside positive
  have bits : 8 * T.size * i = 8 * (T.size * i) := Nat.mul_assoc ..
  rw [Nat.mul_comm x.str.length] at covers
  omega

private theorem storeChar_step (i : Nat) (inside : i < x.str.length) (storage : List U64)
    (so_far : storage.length = x.keys.length ∧
      value storage = value x.keys ^^^ value (x.str.take i)) :
    ∃ storage', storeChar x storage i = some storage' ∧ storage'.length = x.keys.length ∧
      value storage' = value x.keys ^^^ value (x.str.take (i + 1)) := by
  have there : i / (8 / T.size) < storage.length := so_far.1 ▸ word_of_char x inside
  have c := List.getElem?_eq_getElem inside
  have word := List.getElem?_eq_getElem there
  have place := place_of_char T i
  have run : storeChar x storage i = some (storage.set (i / (8 / T.size))
      (storage[i / (8 / T.size)] ^^^
        (x.str[i].setWidth 64 <<< (i % (8 / T.size) * 8 * T.size)))) := by
    rw [storeChar, c, Option.bind_eq_bind, Option.bind_some, word, Option.bind_eq_bind,
      Option.bind_some, setAt_run there]
  have added : value (x.str.take (i + 1)) =
      value (x.str.take i) ^^^ (2 ^ (8 * T.size * i) * x.str[i].toNat) := by
    rw [← List.take_concat_get' _ _ inside, value_concat, List.length_take,
      Nat.min_eq_left (Nat.le_of_lt inside)]
  refine ⟨_, run, by rw [List.length_set, so_far.1], ?_⟩
  rw [value_set_xor word, shifted_char _ place.2, ← Nat.mul_assoc, ← Nat.pow_add, place.1,
    so_far.2, added, Nat.xor_assoc]

private theorem stringStorage_run : ∃ storage, stringStorage x = some storage ∧
    storage.length = x.keys.length ∧ value storage = value x.keys ^^^ value x.str := by
  have rounds := foldlM_range (fun i storage => storage.length = x.keys.length ∧
      value storage = value x.keys ^^^ value (x.str.take i))
    ⟨rfl, by rw [List.take_zero, value_nil, Nat.xor_zero]⟩ (storeChar_step x)
  rwa [List.take_length] at rounds

private theorem assign_run {values array : List U64} {count : Nat} (full : values.length = count)
    (fits : array.length = count) : assign count values array = some values := by
  have step (i : Nat) (inside : i < count) (now : List U64)
      (so_far : now = values.take i ++ array.drop i) :
      ∃ next, (do let word ← values[i]?; setAt now i word) = some next ∧
        next = values.take (i + 1) ++ array.drop (i + 1) := by
    have here : i < values.length := full.symm ▸ inside
    have there : i < array.length := fits.symm ▸ inside
    have taken : (values.take i).length = i := List.length_take_of_le (Nat.le_of_lt here)
    have long : i < now.length := by
      rw [so_far, List.length_append, taken, List.length_drop]
      omega
    refine ⟨now.set i values[i], ?_, ?_⟩
    · rw [List.getElem?_eq_getElem here, Option.bind_eq_bind, Option.bind_some, setAt_run long]
    · rw [so_far, List.set_append_right _ _ (Nat.le_of_eq taken), taken, Nat.sub_self,
        List.drop_eq_getElem_cons there, List.set_cons_zero, ← List.take_concat_get' _ _ here,
        List.append_assoc, List.singleton_append]
  obtain ⟨last, run, all⟩ := foldlM_range (fun i now => now = values.take i ++ array.drop i)
    (by rw [List.take_zero, List.drop_zero, List.nil_append]) step
  rw [assign, run, all, ← full, List.take_length, full, ← fits, List.drop_length, List.append_nil]

private def xorFront (keys storage : List U64) (p : Nat) : List U64 :=
  List.zipWith (· ^^^ ·) (storage.take p) (keys.take p) ++ storage.drop p

section Groups

variable {keys storage : List U64} {lanes keysAt storageAt : Nat}

private theorem cryptSingle_xorFront {i : Nat} (lengths : storage.length = keys.length)
    (room : i + lanes ≤ keys.length) (keys_aligned : (keysAt + 8 * i) % (8 * lanes) = 0)
    (storage_aligned : (storageAt + 8 * i) % (8 * lanes) = 0) :
    cryptSingle lanes keysAt storageAt keys (xorFront keys storage i) i =
      some (xorFront keys storage (i + lanes)) := by
  have front : (List.zipWith (· ^^^ ·) (storage.take i) (keys.take i)).length = i := by
    rw [List.length_zipWith, List.length_take, List.length_take]
    omega
  have whole : i + lanes ≤ (xorFront keys storage i).length := by
    rw [xorFront, List.length_append, front, List.length_drop]
    omega
  have behind : (xorFront keys storage i).drop i = storage.drop i := List.drop_left' front
  have before : (xorFront keys storage i).take i =
      List.zipWith (· ^^^ ·) (storage.take i) (keys.take i) := List.take_left' front
  have halves : (storage.take i).length = (keys.take i).length := by
    rw [List.length_take, List.length_take, lengths]
  rw [cryptSingle, if_pos ⟨keys_aligned, storage_aligned, room, whole⟩, ← List.drop_drop, behind,
    before, List.drop_drop, ← List.zipWith_append halves, ← List.take_add, ← List.take_add]
  rfl

private theorem cryptGroups_run {groups : Nat} (lengths : storage.length = keys.length)
    (room : groups * lanes ≤ keys.length)
    (aligned : 0 < groups → 8 * lanes ∣ keysAt ∧ 8 * lanes ∣ storageAt) :
    cryptGroups lanes keysAt storageAt keys (List.range groups) storage =
      some (xorFront keys storage (groups * lanes)) := by
  have step (i : Nat) (inside : i < groups) (now : List U64)
      (so_far : now = xorFront keys storage (i * lanes)) :
      ∃ next, cryptSingle lanes keysAt storageAt keys now (i * lanes) = some next ∧
        next = xorFront keys storage ((i + 1) * lanes) := by
    obtain ⟨keys_aligned, storage_aligned⟩ := aligned (Nat.zero_lt_of_lt inside)
    have further : 8 * lanes ∣ 8 * (i * lanes) := ⟨i, by rw [Nat.mul_comm i, Nat.mul_assoc]⟩
    have within : i * lanes + lanes ≤ keys.length := by
      rw [← Nat.succ_mul]
      exact Nat.le_trans (Nat.mul_le_mul_right _ inside) room
    refine ⟨_, ?_, (congrArg _ (Nat.succ_mul i lanes)).symm⟩
    rw [so_far]
    exact cryptSingle_xorFront lengths within
      (Nat.mod_eq_zero_of_dvd (Nat.dvd_add keys_aligned further))
      (Nat.mod_eq_zero_of_dvd (Nat.dvd_add storage_aligned further))
  have start : storage = xorFront keys storage (0 * lanes) := by simp [xorFront]
  obtain ⟨last, run, all⟩ := foldlM_range
    (fun i now => now = xorFront keys storage (i * lanes)) start step
  rw [cryptGroups, run, all]

private theorem xorFront_all (lengths : storage.length = keys.length) :
    xorFront keys storage keys.length = List.zipWith (· ^^^ ·) storage keys := by
  rw [xorFront, List.take_length, ← lengths, List.take_length, List.drop_length, List.append_nil]

end Groups

variable (build : Build)

section Decryption

variable {build} (buffer keys : AlignedArray (bufferAlign build x.sizeBytes) x.keys.length)

private theorem half_aligned : 8 * 2 ∣ keys.address :=
  (bufferAlign_half build _).trans (Nat.dvd_of_mod_eq_zero keys.aligned)

private theorem cryptWords_run {storage : List U64} (lengths : storage.length = x.keys.length) :
    cryptWords x build keys.address buffer.address x.keys storage =
      some (List.zipWith (· ^^^ ·) storage x.keys) := by
  have even : x.keys.length % 2 = 0 := x.keys_length ▸ bufferSize_even _
  have halves := And.intro (half_aligned x keys) (half_aligned x buffer)
  rw [← xorFront_all lengths]
  cases build with
  | noAvx =>
    have all : x.keys.length / 2 * 2 = x.keys.length := by omega
    have run := cryptGroups_run lengths (Nat.le_of_eq all) fun _ => halves
    rwa [all] at run
  | avx =>
    have quarter (array : AlignedArray (bufferAlign .avx x.sizeBytes) x.keys.length)
        (group : 0 < x.keys.length / 4) : 8 * 4 ∣ array.address := by
      have four : 4 ≤ bufferSize x.sizeBytes := by
        rw [XorString.sizeBytes, ← x.keys_length]
        omega
      exact (dvd_of_eq (bufferAlign_avx four).symm).trans
        (Nat.dvd_of_mod_eq_zero array.aligned)
    have run := cryptGroups_run lengths (Nat.div_mul_le_self _ 4)
      fun group => ⟨quarter keys group, quarter buffer group⟩
    rw [cryptWords, crypt256, run, Option.bind_eq_bind, Option.bind_some]
    split
    case isFalse groups =>
      have all : x.keys.length / 4 * 4 = x.keys.length := by omega
      rw [all]
      rfl
    case isTrue pair =>
      -- Two words are left behind the groups of four.
      have last : x.keys.length / 4 * 4 = (x.keys.length / 2 - 1) * 2 := by omega
      have all : (x.keys.length / 2 - 1) * 2 + 2 = x.keys.length := by omega
      have further : 8 * 2 ∣ 8 * ((x.keys.length / 2 - 1) * 2) :=
        ⟨x.keys.length / 2 - 1, by rw [Nat.mul_comm _ 2, Nat.mul_assoc]⟩
      have single := cryptSingle_xorFront lengths (Nat.le_of_eq all)
        (Nat.mod_eq_zero_of_dvd (Nat.dvd_add halves.1 further))
        (Nat.mod_eq_zero_of_dvd (Nat.dvd_add halves.2 further))
      rw [all] at single
      rw [crypt128, cryptGroups, List.foldlM_cons, last, single, Option.bind_eq_bind,
        Option.bind_some, List.foldlM_nil]
      rfl

private theorem crypt_run {words storage : List U64} (count : words.length = x.keys.length)
    (encrypted : stringStorage x = some storage) (lengths : storage.length = x.keys.length) :
    crypt x build buffer.address keys words =
      some (List.zipWith (· ^^^ ·) storage x.keys) := by
  have copied : copy x words = some storage := by
    rw [copy, encrypted, Option.bind_eq_bind, Option.bind_some, assign_run lengths count]
  rw [crypt, assign_run rfl keys.words_length, copied, Option.bind_eq_bind, Option.bind_some,
    Option.bind_some, cryptWords_run x buffer keys lengths]

end Decryption

private theorem decrypted_bytes {storage : List U64} (lengths : storage.length = x.keys.length)
    (encrypted : value storage = value x.keys ^^^ value x.str) :
    @bytesOf 8 (List.zipWith (· ^^^ ·) storage x.keys) =
      bytesOf x.str ++ List.replicate (8 * x.keys.length - x.sizeBytes) 0 := by
  have plain : value (List.zipWith (· ^^^ ·) storage x.keys) = value x.str := by
    rw [value_zipWith_xor lengths, encrypted, Nat.xor_comm, ← Nat.xor_assoc, Nat.xor_self,
      Nat.zero_xor]
  have covers : x.sizeBytes ≤ 8 * x.keys.length := x.keys_length ▸ bufferSize_covers x.sizeBytes
  have bytes : (bytesOf x.str).length = x.sizeBytes := (bytesOf_length _).trans (Nat.mul_comm ..)
  apply bytes_filled
  · rw [valueOf_bytesOf, valueOf_bytesOf]
    exact plain
  · rw [bytesOf_length, List.length_zipWith, lengths, Nat.min_self, bytes, Nat.add_sub_cancel' covers]

/-- However often a literal is decrypted, in either build and with whatever keys, the object
ends with the bytes of the literal and zeros behind them, and all accesses are inside of their
arrays and aligned. -/
theorem crypt_reads_back (buffer : AlignedArray (bufferAlign build x.sizeBytes) x.keys.length)
    (first : AlignedArray (bufferAlign build x.sizeBytes) x.keys.length)
    (rest : List (AlignedArray (bufferAlign build x.sizeBytes) x.keys.length)) :
    ∃ words, (first :: rest).foldlM (fun words keys => crypt x build buffer.address keys words)
        buffer.words = some words ∧
      @bytesOf 8 words = bytesOf x.str ++ List.replicate (8 * x.keys.length - x.sizeBytes) 0 := by
  obtain ⟨storage, encrypted, lengths, laid⟩ := stringStorage_run x
  have count : (List.zipWith (· ^^^ ·) storage x.keys).length = x.keys.length := by
    rw [List.length_zipWith, lengths, Nat.min_self]
  have again : ∀ more : List (AlignedArray (bufferAlign build x.sizeBytes) x.keys.length),
      more.foldlM (fun words keys => crypt x build buffer.address keys words)
        (List.zipWith (· ^^^ ·) storage x.keys) = some (List.zipWith (· ^^^ ·) storage x.keys) := by
    intro more
    induction more with
    | nil => rfl
    | cons keys more ih =>
      rw [List.foldlM_cons, crypt_run x buffer keys count encrypted lengths,
        Option.bind_eq_bind, Option.bind_some, ih]
  refine ⟨_, ?_, decrypted_bytes x lengths laid⟩
  rw [List.foldlM_cons, crypt_run x buffer first buffer.words_length encrypted lengths,
    Option.bind_eq_bind, Option.bind_some, again rest]

end LoginHelper.Xorstr
