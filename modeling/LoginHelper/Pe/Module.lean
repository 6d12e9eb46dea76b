/- Unit: LoginHelper/Pe/Module
   source: include/pe/module.inl, include/pe/segment.inl, x64 build
   digest: A module's headers and sections, read where the loader has mapped them. -/

import LoginHelper.Foundation.ByteMemory

set_option autoImplicit false
set_option relaxedAutoImplicit false

namespace LoginHelper.Pe.Module

open LoginHelper.Foundation.ByteMemory

-- A read that fails is an access violation, `none`; so `some none` is a null pointer.
def imageDosSignature : BitVec 16 := 0x5A4D

def imageNtSignature : BitVec 32 := 0x00004550

def imageNtOptionalHdrMagic : BitVec 16 := 0x20B

/-- `module->rva_to<T>(rva)` -/
def rvaTo (module : Address) (rva : BitVec 32) : Address := module + rva.setWidth 64

section Headers

variable (memory : Memory) (module : Address)

def ntHeader : Option (Option Address) := do
  let eMagic ← readNumber memory module 2
  if eMagic ≠ imageDosSignature then pure none
  else
    let eLfanew ← readNumber memory (module + 0x3C) 4
    let ntheader := rvaTo module eLfanew
    let signature ← readNumber memory ntheader 4
    if signature ≠ imageNtSignature then pure none else pure (some ntheader)

/-- The NT headers, if there is an optional header of the plugin's own kind behind them. -/
def optionalHeader : Option (Option Address) := do
  match ← ntHeader memory module with
  | none => pure none
  | some ntheader =>
    let sizeOfOptionalHeader ← readNumber memory (ntheader + 20) 2
    if sizeOfOptionalHeader = 0 then pure none
    else
      let magic ← readNumber memory (ntheader + 24) 2
      if magic ≠ imageNtOptionalHdrMagic then pure none else pure (some ntheader)

def size : Option (BitVec 32) := do
  let eMagic ← readNumber memory module 2
  if eMagic ≠ imageDosSignature then pure 0
  else
    match ← optionalHeader memory module with
    | none => pure 0
    | some ntheader => readNumber memory (ntheader + 80) 4

/-- Where the span of the section headers lies, header by header. -/
def segments : Option (List Address) := do
  match ← ntHeader memory module with
  | none => pure []
  | some ntheader =>
    let sizeOfOptionalHeader ← readNumber memory (ntheader + 20) 2
    let numberOfSections ← readNumber memory (ntheader + 6) 2
    let first := ntheader + 24 + sizeOfOptionalHeader.setWidth 64
    pure ((List.range numberOfSections.toNat).map fun i => first + BitVec.ofNat 64 (40 * i))

def exportDirectory : Option (Option Address) := do
  match ← optionalHeader memory module with
  | none => pure none
  | some ntheader =>
    let virtualAddress ← readNumber memory (ntheader + 136) 4
    if virtualAddress = 0 then pure none
    else
      let size ← readNumber memory (ntheader + 140) 4
      if size = 0 then pure none else pure (some (rvaTo module virtualAddress))

end Headers

section Segment

variable (memory : Memory) (segment : Address)

/-- The loop of `segment::name`, over the bytes that are left of the field. -/
def nameFrom (memory : Memory) (a : Address) : Nat → Option (List UInt8)
  | 0 => some []
  | n + 1 => do
    let c ← memory a
    if c = 0 then pure []
    else
      let rest ← nameFrom memory (a + 1) n
      pure (c :: rest)

def name : Option (List UInt8) := nameFrom memory segment 8

def virtualSize : Option (BitVec 32) := readNumber memory (segment + 8) 4

def virtualAddress : Option (BitVec 32) := readNumber memory (segment + 12) 4

def pointerToRelocations : Option (BitVec 32) := readNumber memory (segment + 24) 4

def numberOfRelocations : Option (BitVec 16) := readNumber memory (segment + 32) 2

def characteristics : Option (BitVec 32) := readNumber memory (segment + 36) 4

/-- `this->Characteristics & flag` -/
def hasFlag (flag : BitVec 32) : Option Bool := do
  let flags ← characteristics memory segment
  pure (flags &&& flag != 0)

def imageScnCntCode : BitVec 32 := 0x00000020

def containsCode : Option Bool := hasFlag memory segment imageScnCntCode

def containsInitializedData : Option Bool := hasFlag memory segment 0x00000040

def containsUninitializedData : Option Bool := hasFlag memory segment 0x00000080

def discardable : Option Bool := hasFlag memory segment 0x02000000

def notCached : Option Bool := hasFlag memory segment 0x04000000

def notPaged : Option Bool := hasFlag memory segment 0x08000000

def shared : Option Bool := hasFlag memory segment 0x10000000

def executable : Option Bool := hasFlag memory segment 0x20000000

def readable : Option Bool := hasFlag memory segment 0x40000000

def writable : Option Bool := hasFlag memory segment 0x80000000

def imageScnLnkNrelocOvfl : BitVec 32 := 0x01000000

/-- `relocation_count`, with the module that `RtlPcToFileHeader` finds, 0 being none. -/
def relocationCount (pcToFileHeader : Address → Address) : Option (BitVec 32) := do
  let overflow ← hasFlag memory segment imageScnLnkNrelocOvfl
  let count ← numberOfRelocations memory segment
  if overflow && count == 0xFFFF then
    let pointer ← pointerToRelocations memory segment
    readNumber memory (pcToFileHeader segment + pointer.setWidth 64) 4
  else pure (count.setWidth 32)

/-- `as_bytes`, its start and its length; the empty span starts at the null pointer. -/
def asBytes (pcToFileHeader : Address → Address) : Option (Address × Nat) := do
  let module := pcToFileHeader segment
  if module = 0 then pure (0, 0)
  else
    let start ← virtualAddress memory segment
    let size ← virtualSize memory segment
    pure (module + start.setWidth 64, size.toNat)

end Segment

/-- `std::find_if` over the section headers. -/
def findIf (test : Address → Option Bool) : List Address → Option (Option Address)
  | [] => some none
  | segment :: rest => do
    if ← test segment then pure (some segment) else findIf test rest

/-- `module::segment` -/
def segment (memory : Memory) (module : Address) (wanted : List UInt8) :
    Option (Option Address) := do
  let table ← segments memory module
  findIf (fun s => (name memory s).map (· == wanted)) table

/-- `IMAGE_SECTION_HEADER` -/
structure SectionHeader where
  name : List UInt8
  virtualSize : BitVec 32
  virtualAddress : BitVec 32
  sizeOfRawData : BitVec 32
  pointerToRawData : BitVec 32
  pointerToRelocations : BitVec 32
  pointerToLinenumbers : BitVec 32
  numberOfRelocations : BitVec 16
  numberOfLinenumbers : BitVec 16
  characteristics : BitVec 32
  name_length : name.length = 8

namespace SectionHeader

variable (s : SectionHeader)

def fields : List Field :=
  [⟨4, s.virtualSize⟩, ⟨4, s.virtualAddress⟩, ⟨4, s.sizeOfRawData⟩, ⟨4, s.pointerToRawData⟩,
    ⟨4, s.pointerToRelocations⟩, ⟨4, s.pointerToLinenumbers⟩, ⟨2, s.numberOfRelocations⟩,
    ⟨2, s.numberOfLinenumbers⟩, ⟨4, s.characteristics⟩]

def bytes : List UInt8 := s.name ++ record s.fields

def shortName : List UInt8 := s.name.takeWhile (· != 0)

theorem bytes_length : s.bytes.length = 40 := by
  rw [bytes, List.length_append, s.name_length, record_length]
  rfl

end SectionHeader

/-- The headers of an image, with the fields that nothing looks at as they may be. -/
structure Headers where
  dosFields : List UInt8
  eLfanew : BitVec 32
  machine : BitVec 16
  timeDateStamp : BitVec 32
  pointerToSymbolTable : BitVec 32
  numberOfSymbols : BitVec 32
  characteristics : BitVec 16
  optionalHeader : List UInt8
  sections : List SectionHeader
  dosFields_length : dosFields.length = 58
  optionalHeader_fits : optionalHeader.length < 2 ^ 16
  sections_fit : sections.length < 2 ^ 16

namespace Headers

variable (h : Headers)

def dosBytes : List UInt8 :=
  record [⟨2, imageDosSignature⟩] ++ (h.dosFields ++ record [⟨4, h.eLfanew⟩])

def fileFields : List Field :=
  [⟨4, imageNtSignature⟩, ⟨2, h.machine⟩, ⟨2, BitVec.ofNat 16 h.sections.length⟩,
    ⟨4, h.timeDateStamp⟩, ⟨4, h.pointerToSymbolTable⟩, ⟨4, h.numberOfSymbols⟩,
    ⟨2, BitVec.ofNat 16 h.optionalHeader.length⟩, ⟨2, h.characteristics⟩]

def ntBytes : List UInt8 :=
  record h.fileFields ++ (h.optionalHeader ++ h.sections.flatMap SectionHeader.bytes)

/-- Where a section header lies. -/
def sectionAddress (base : Address) (i : Nat) : Address :=
  rvaTo base h.eLfanew + 24 + BitVec.ofNat 64 h.optionalHeader.length + BitVec.ofNat 64 (40 * i)

end Headers

/-- The headers stand at the base of a module and where they point to. -/
structure LaidOut (memory : Memory) (base : Address) (h : Headers) : Prop where
  dos : Holds memory base h.dosBytes
  nt : Holds memory (rvaTo base h.eLfanew) h.ntBytes

/-- An optional header of a 64-bit image, up to the entry for the export directory. -/
structure OptionalHeader where
  standardFields : List UInt8
  sizeOfImage : BitVec 32
  windowsFields : List UInt8
  exportRva : BitVec 32
  exportSize : BitVec 32
  dataDirectory : List UInt8
  standardFields_length : standardFields.length = 54
  windowsFields_length : windowsFields.length = 52

def OptionalHeader.bytes (o : OptionalHeader) : List UInt8 :=
  record [⟨2, imageNtOptionalHdrMagic⟩] ++ (o.standardFields ++ (record [⟨4, o.sizeOfImage⟩] ++
    (o.windowsFields ++ (record [⟨4, o.exportRva⟩, ⟨4, o.exportSize⟩] ++ o.dataDirectory))))

section Fields

variable {memory : Memory} {base : Address} {h : Headers}

theorem eMagic_of_laidOut (laid : LaidOut memory base h) :
    readNumber memory base 2 = some imageDosSignature := by
  have read := Holds.field [] ⟨2, imageDosSignature⟩ [] (holds_append.mp laid.dos).1
  rwa [show offset [] = 0 from rfl, BitVec.add_zero] at read

theorem eLfanew_of_laidOut (laid : LaidOut memory base h) :
    readNumber memory (base + 0x3C) 4 = some h.eLfanew := by
  have behind := (laid.dos.behind (record_length _)).behind h.dosFields_length
  have read := Holds.field [] ⟨4, h.eLfanew⟩ [] behind
  rwa [add_ofNat_add, add_ofNat_add] at read

private theorem fileField_of_laidOut (laid : LaidOut memory base h) (before : List Field) (f : Field)
    (after : List Field) (fields : h.fileFields = before ++ f :: after) :
    readNumber memory (rvaTo base h.eLfanew + BitVec.ofNat 64 (offset before)) f.width =
      some f.value := by
  have here := (holds_append.mp laid.nt).1
  rw [fields] at here
  exact Holds.field before f after here

theorem optionalHeader_holds (laid : LaidOut memory base h) :
    Holds memory (rvaTo base h.eLfanew + BitVec.ofNat 64 24) h.optionalHeader :=
  (holds_append.mp (laid.nt.behind (record_length _))).1

theorem ntHeader_of_laidOut (laid : LaidOut memory base h) :
    ntHeader memory base = some (some (rvaTo base h.eLfanew)) := by
  have signature : readNumber memory (rvaTo base h.eLfanew) 4 = some imageNtSignature := by
    have read := fileField_of_laidOut laid [] ⟨4, imageNtSignature⟩ _ rfl
    rwa [show offset [] = 0 from rfl, BitVec.add_zero] at read
  simp only [ntHeader, Option.bind_eq_bind, eMagic_of_laidOut laid, eLfanew_of_laidOut laid,
    Option.bind_some, signature, ne_eq, not_true, if_false]
  rfl

theorem sizeOfOptionalHeader_of_laidOut (laid : LaidOut memory base h) :
    readNumber memory (rvaTo base h.eLfanew + 20) 2 =
      some (BitVec.ofNat 16 h.optionalHeader.length) :=
  fileField_of_laidOut laid [⟨4, imageNtSignature⟩, ⟨2, h.machine⟩,
    ⟨2, BitVec.ofNat 16 h.sections.length⟩, ⟨4, h.timeDateStamp⟩, ⟨4, h.pointerToSymbolTable⟩,
    ⟨4, h.numberOfSymbols⟩] ⟨2, BitVec.ofNat 16 h.optionalHeader.length⟩ _ rfl

theorem numberOfSections_of_laidOut (laid : LaidOut memory base h) :
    readNumber memory (rvaTo base h.eLfanew + 6) 2 =
      some (BitVec.ofNat 16 h.sections.length) :=
  fileField_of_laidOut laid [⟨4, imageNtSignature⟩, ⟨2, h.machine⟩]
    ⟨2, BitVec.ofNat 16 h.sections.length⟩ _ rfl

theorem segments_of_laidOut (laid : LaidOut memory base h) :
    segments memory base =
      some ((List.range h.sections.length).map (h.sectionAddress base)) := by
  have count : (BitVec.ofNat 16 h.sections.length).toNat = h.sections.length :=
    Nat.mod_eq_of_lt h.sections_fit
  have length : (BitVec.ofNat 16 h.optionalHeader.length).setWidth 64 =
      BitVec.ofNat 64 h.optionalHeader.length := by
    have small := h.optionalHeader_fits
    apply BitVec.eq_of_toNat_eq
    rw [BitVec.toNat_setWidth, BitVec.toNat_ofNat, BitVec.toNat_ofNat, Nat.mod_eq_of_lt small]
  rw [segments, ntHeader_of_laidOut laid]
  simp only [Option.bind_eq_bind, Option.bind_some, sizeOfOptionalHeader_of_laidOut laid,
    numberOfSections_of_laidOut laid]
  rw [count, length]
  rfl

private theorem section_holds (laid : LaidOut memory base h) {i : Nat} {s : SectionHeader}
    (here : h.sections[i]? = some s) : Holds memory (h.sectionAddress base i) s.bytes := by
  have table := (laid.nt.behind (record_length _)).behind rfl
  exact table.entry SectionHeader.bytes_length here

end Fields

/-- What the accessors of a section header return. -/
structure ReadsSection (memory : Memory) (a : Address) (s : SectionHeader) : Prop where
  name : name memory a = some s.shortName
  virtualSize : virtualSize memory a = some s.virtualSize
  virtualAddress : virtualAddress memory a = some s.virtualAddress
  pointerToRelocations : pointerToRelocations memory a = some s.pointerToRelocations
  numberOfRelocations : numberOfRelocations memory a = some s.numberOfRelocations
  characteristics : characteristics memory a = some s.characteristics

private theorem nameFrom_of_holds {memory : Memory} {a : Address} {bytes : List UInt8}
    (holds : Holds memory a bytes) :
    nameFrom memory a bytes.length = some (bytes.takeWhile (· != 0)) := by
  induction bytes generalizing a with
  | nil => rfl
  | cons c rest ih =>
    obtain ⟨here, behind⟩ := holds_cons.mp holds
    rw [List.length_cons, nameFrom, here, Option.bind_eq_bind, Option.bind_some]
    split
    case isTrue zero => simp [zero]
    case isFalse char =>
      rw [ih behind, List.takeWhile_cons_of_pos (by simpa using char)]
      rfl

theorem readsSection_of_holds {memory : Memory} {a : Address} {s : SectionHeader}
    (holds : Holds memory a s.bytes) : ReadsSection memory a s := by
  have fields := holds.behind s.name_length
  have field (before : List Field) (f : Field) (after : List Field)
      (split : s.fields = before ++ f :: after) :
      readNumber memory (a + BitVec.ofNat 64 (8 + offset before)) f.width = some f.value := by
    rw [split] at fields
    rw [← add_ofNat_add]
    exact fields.field before f after
  refine ⟨?_, ?_, ?_, ?_, ?_, ?_⟩
  · have read := nameFrom_of_holds (holds_append.mp holds).1
    rwa [s.name_length] at read
  · exact field [] ⟨4, s.virtualSize⟩ _ rfl
  · exact field [⟨4, s.virtualSize⟩] ⟨4, s.virtualAddress⟩ _ rfl
  · exact field [⟨4, s.virtualSize⟩, ⟨4, s.virtualAddress⟩, ⟨4, s.sizeOfRawData⟩,
      ⟨4, s.pointerToRawData⟩] ⟨4, s.pointerToRelocations⟩ _ rfl
  · exact field [⟨4, s.virtualSize⟩, ⟨4, s.virtualAddress⟩, ⟨4, s.sizeOfRawData⟩,
      ⟨4, s.pointerToRawData⟩, ⟨4, s.pointerToRelocations⟩, ⟨4, s.pointerToLinenumbers⟩]
      ⟨2, s.numberOfRelocations⟩ _ rfl
  · exact field [⟨4, s.virtualSize⟩, ⟨4, s.virtualAddress⟩, ⟨4, s.sizeOfRawData⟩,
      ⟨4, s.pointerToRawData⟩, ⟨4, s.pointerToRelocations⟩, ⟨4, s.pointerToLinenumbers⟩,
      ⟨2, s.numberOfRelocations⟩, ⟨2, s.numberOfLinenumbers⟩] ⟨4, s.characteristics⟩ _ rfl

theorem ReadsSection.hasFlag {memory : Memory} {a : Address} {s : SectionHeader}
    (reads : ReadsSection memory a s) (flag : BitVec 32) :
    hasFlag memory a flag = some (s.characteristics &&& flag != 0) := by
  rw [Module.hasFlag, reads.characteristics]
  rfl

theorem findIf_first {α : Type} {read : Address → Option Bool} {test : α → Bool}
    {table : List Address} {xs : List α}
    (reads : List.Forall₂ (fun a x => read a = some (test x)) table xs) :
    findIf read table = some ((xs.findIdx? test).bind (table[·]?)) := by
  induction reads with
  | nil => rfl
  | @cons a x table xs here rest ih =>
    rw [findIf, here, Option.bind_eq_bind, Option.bind_some, List.findIdx?_cons]
    cases test x with
    | true => rfl
    | false =>
      simp only [Bool.false_eq_true, ↓reduceIte, ih]
      cases xs.findIdx? test with
      | none => rfl
      | some i => simp

section Sections

variable {memory : Memory} {base : Address} {h : Headers}

theorem readsSection_of_laidOut (laid : LaidOut memory base h) {i : Nat} {s : SectionHeader}
    (here : h.sections[i]? = some s) : ReadsSection memory (h.sectionAddress base i) s :=
  readsSection_of_holds (section_holds laid here)

private theorem table_reads (laid : LaidOut memory base h) {read : Address → Option Bool}
    {test : SectionHeader → Bool}
    (each : ∀ a s, ReadsSection memory a s → read a = some (test s)) :
    List.Forall₂ (fun a s => read a = some (test s))
      ((List.range h.sections.length).map (h.sectionAddress base)) h.sections := by
  rw [List.forall₂_iff_get]
  refine ⟨by simp, ?_⟩
  intro i hi hi'
  have here : h.sections[i]? = some h.sections[i] := List.getElem?_eq_getElem hi'
  simpa using each _ _ (readsSection_of_laidOut laid here)

theorem findIf_of_laidOut (laid : LaidOut memory base h) {read : Address → Option Bool}
    {test : SectionHeader → Bool}
    (each : ∀ a s, ReadsSection memory a s → read a = some (test s)) :
    findIf read ((List.range h.sections.length).map (h.sectionAddress base)) =
      some ((h.sections.findIdx? test).map (h.sectionAddress base)) := by
  rw [findIf_first (table_reads laid each)]
  cases found : h.sections.findIdx? test with
  | none => rfl
  | some i =>
    have inside : i < h.sections.length := (List.findIdx?_eq_some_iff_getElem.mp found).1
    simp [inside]

end Sections

def smallOptional : OptionalHeader where
  standardFields := List.replicate 54 0
  sizeOfImage := 0x1000
  windowsFields := List.replicate 52 0
  exportRva := 0x800
  exportSize := 0x28
  dataDirectory := []
  standardFields_length := List.length_replicate
  windowsFields_length := List.length_replicate

def smallCode : SectionHeader where
  name := [0x2E, 0x74, 0x65, 0x78, 0x74, 0, 0, 0]
  virtualSize := 26
  virtualAddress := 288
  sizeOfRawData := 26
  pointerToRawData := 288
  pointerToRelocations := 0
  pointerToLinenumbers := 0
  numberOfRelocations := 0
  numberOfLinenumbers := 0
  characteristics := 0x60000020
  name_length := rfl

def smallData : SectionHeader where
  name := [0x2E, 0x74, 0x65, 0x78, 0x74, 0, 0, 0]
  virtualSize := 0x800
  virtualAddress := 0x800
  sizeOfRawData := 0
  pointerToRawData := 0
  pointerToRelocations := 0
  pointerToLinenumbers := 0
  numberOfRelocations := 3
  numberOfLinenumbers := 0
  characteristics := 0x40000040
  name_length := rfl

theorem smallOptional_length : smallOptional.bytes.length = 120 := by
  simp [OptionalHeader.bytes, smallOptional, offset]

def smallHeaders : Headers where
  dosFields := List.replicate 58 0
  eLfanew := 64
  machine := 0x8664
  timeDateStamp := 0
  pointerToSymbolTable := 0
  numberOfSymbols := 0
  characteristics := 0x22
  optionalHeader := smallOptional.bytes
  sections := [smallCode, smallData]
  dosFields_length := List.length_replicate
  optionalHeader_fits := by rw [smallOptional_length]; norm_num
  sections_fit := by norm_num

private theorem small_dos : smallHeaders.dosBytes.length = 64 := by
  simp [Headers.dosBytes, smallHeaders, offset]

private theorem small_nt : smallHeaders.ntBytes.length = 224 := by
  simp [Headers.ntBytes, smallHeaders, Headers.fileFields, offset, smallOptional_length,
    SectionHeader.bytes_length]

def smallBytes : List UInt8 :=
  [0xCC, 0x48, 0x89, 0x5C, 0x24, 0x08, 0x57, 0x48, 0x83, 0xEC, 0x20, 0x48, 0x8B, 0xFA, 0x48, 0x8B,
    0xD9, 0xFF, 0x15, 0x10, 0x20, 0x30, 0x00, 0x4C, 0x8B, 0xC8]

def smallMemory : Memory :=
  ofBytes 0x140000000 (smallHeaders.dosBytes ++ smallHeaders.ntBytes ++ smallBytes)

private theorem small_bound :
    (smallHeaders.dosBytes ++ smallHeaders.ntBytes ++ smallBytes).length ≤ 2 ^ 64 := by
  simp [small_dos, small_nt, smallBytes]

theorem small_laid : LaidOut smallMemory 0x140000000 smallHeaders := by
  constructor
  · have dos := holds_ofBytes 0x140000000 [] smallHeaders.dosBytes
      (smallHeaders.ntBytes ++ smallBytes) (by simpa using small_bound)
    simpa [smallMemory] using dos
  · have nt := holds_ofBytes 0x140000000 smallHeaders.dosBytes smallHeaders.ntBytes smallBytes
      small_bound
    rwa [small_dos] at nt

theorem small_code : Holds smallMemory 0x140000120 smallBytes := by
  have code := holds_ofBytes 0x140000000 (smallHeaders.dosBytes ++ smallHeaders.ntBytes) smallBytes
    [] (by simpa using small_bound)
  rw [List.length_append, small_dos, small_nt, List.append_nil] at code
  exact code

end LoginHelper.Pe.Module
