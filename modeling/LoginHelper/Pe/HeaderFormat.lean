/- Unit: LoginHelper/Pe/HeaderFormat
   source: include/pe/module.inl, include/pe/segment.inl
   digest: What is read from the headers of an image, and that nothing else is taken for headers. -/

import LoginHelper.Pe.Module

set_option autoImplicit false
set_option relaxedAutoImplicit false

namespace LoginHelper.Pe.HeaderFormat

open LoginHelper.Foundation.ByteMemory LoginHelper.Pe.Module

/-- What the functions of a module return, on the headers of an image. -/
structure ReadBack (memory : Memory) (base : Address) (h : Headers) : Prop where
  segments : segments memory base =
    some ((List.range h.sections.length).map (h.sectionAddress base))
  sections : ∀ i s, h.sections[i]? = some s → ReadsSection memory (h.sectionAddress base i) s
  flags : ∀ i s, h.sections[i]? = some s → ∀ flag,
    hasFlag memory (h.sectionAddress base i) flag = some (s.characteristics &&& flag != 0)
  relocationCount : ∀ i s, h.sections[i]? = some s → ∀ pcToFileHeader,
    relocationCount memory (h.sectionAddress base i) pcToFileHeader =
      if s.characteristics &&& imageScnLnkNrelocOvfl ≠ 0 ∧ s.numberOfRelocations = 0xFFFF then
        readNumber memory (pcToFileHeader (h.sectionAddress base i) +
          s.pointerToRelocations.setWidth 64) 4
      else some (s.numberOfRelocations.setWidth 32)
  segment : ∀ wanted, Module.segment memory base wanted =
    some ((h.sections.findIdx? fun s => s.shortName == wanted).map (h.sectionAddress base))
  size : ∀ o : OptionalHeader, h.optionalHeader = o.bytes → size memory base = some o.sizeOfImage
  exportDirectory : ∀ o : OptionalHeader, h.optionalHeader = o.bytes →
    exportDirectory memory base =
      some (if o.exportRva = 0 ∨ o.exportSize = 0 then none else some (rvaTo base o.exportRva))

section ReadingBack

variable {memory : Memory} {base : Address} {h : Headers}

private theorem segment_of_laidOut (laid : LaidOut memory base h) (wanted : List UInt8) :
    Module.segment memory base wanted =
      some ((h.sections.findIdx? fun s => s.shortName == wanted).map (h.sectionAddress base)) := by
  have each (a : Address) (s : SectionHeader) (reads : ReadsSection memory a s) :
      (name memory a).map (· == wanted) = some (s.shortName == wanted) := by
    rw [reads.name, Option.map_some]
  rw [Module.segment, segments_of_laidOut laid, Option.bind_eq_bind, Option.bind_some]
  exact findIf_of_laidOut laid each

private theorem optional_reads (laid : LaidOut memory base h) {o : OptionalHeader}
    (form : h.optionalHeader = o.bytes) :
    readNumber memory (rvaTo base h.eLfanew + 24) 2 = some imageNtOptionalHdrMagic ∧
      readNumber memory (rvaTo base h.eLfanew + 80) 4 = some o.sizeOfImage ∧
        readNumber memory (rvaTo base h.eLfanew + 136) 4 = some o.exportRva ∧
          readNumber memory (rvaTo base h.eLfanew + 140) 4 = some o.exportSize := by
  have magic := optionalHeader_holds laid
  rw [form, OptionalHeader.bytes] at magic
  have image := (magic.behind (record_length _)).behind o.standardFields_length
  have directory := (image.behind (record_length _)).behind o.windowsFields_length
  replace magic := Holds.field [] ⟨2, imageNtOptionalHdrMagic⟩ [] (holds_append.mp magic).1
  replace image := Holds.field [] ⟨4, o.sizeOfImage⟩ [] (holds_append.mp image).1
  have rva := Holds.field [] ⟨4, o.exportRva⟩ _ (holds_append.mp directory).1
  have exportSize := Holds.field [⟨4, o.exportRva⟩] ⟨4, o.exportSize⟩ [] (holds_append.mp directory).1
  simp only [add_ofNat_add] at magic image rva exportSize
  exact ⟨magic, image, rva, exportSize⟩

private theorem optionalHeader_of_laidOut (laid : LaidOut memory base h) {o : OptionalHeader}
    (form : h.optionalHeader = o.bytes) :
    optionalHeader memory base = some (some (rvaTo base h.eLfanew)) := by
  have fits := h.optionalHeader_fits
  have length : o.bytes.length = 120 + o.dataDirectory.length := by
    simp [OptionalHeader.bytes, o.standardFields_length, o.windowsFields_length, offset]
    omega
  have present : BitVec.ofNat 16 h.optionalHeader.length ≠ 0 := by
    intro none
    have zero := congrArg BitVec.toNat none
    rw [BitVec.toNat_ofNat, Nat.mod_eq_of_lt fits, form, length] at zero
    change 120 + _ = 0 at zero
    omega
  simp only [optionalHeader, Option.bind_eq_bind, ntHeader_of_laidOut laid, Option.bind_some,
    sizeOfOptionalHeader_of_laidOut laid, (optional_reads laid form).1, if_neg present, ne_eq,
    not_true, if_false]
  rfl

/-- The headers of an image are read as they are, wherever it is loaded. -/
theorem headers_read_back (laid : LaidOut memory base h) : ReadBack memory base h := by
  constructor
  case segments => exact segments_of_laidOut laid
  case sections => exact fun i s here => readsSection_of_laidOut laid here
  case flags => exact fun i s here flag => (readsSection_of_laidOut laid here).hasFlag flag
  case relocationCount =>
    intro i s here pcToFileHeader
    have reads := readsSection_of_laidOut laid here
    simp only [Module.relocationCount, reads.hasFlag, reads.numberOfRelocations,
      reads.pointerToRelocations, Option.bind_eq_bind, Option.bind_some, Bool.and_eq_true,
      bne_iff_ne, beq_iff_eq]
    rfl
  case segment => exact segment_of_laidOut laid
  case size =>
    intro o form
    simp only [Module.size, Option.bind_eq_bind, eMagic_of_laidOut laid, Option.bind_some, ne_eq,
      not_true, if_false, optionalHeader_of_laidOut laid form, (optional_reads laid form).2.1]
  case exportDirectory =>
    intro o form
    obtain ⟨-, -, rva, size⟩ := optional_reads laid form
    simp only [Module.exportDirectory, Option.bind_eq_bind, optionalHeader_of_laidOut laid form,
      Option.bind_some, rva, size]
    by_cases no_rva : o.exportRva = 0
    · rw [if_pos no_rva, if_pos (.inl no_rva)]
      rfl
    · rw [if_neg no_rva]
      by_cases no_size : o.exportSize = 0
      · rw [if_pos no_size, if_pos (.inr no_size)]
        rfl
      · rw [if_neg no_size, if_neg (not_or.mpr ⟨no_rva, no_size⟩)]
        rfl

end ReadingBack

theorem headers_read_back_small : ReadBack smallMemory 0x140000000 smallHeaders :=
  headers_read_back small_laid

private def slice (bytes : List UInt8) (i w : Nat) : List UInt8 := (bytes.drop i).take w

private def sliceValue (bytes : List UInt8) (i w : Nat) : BitVec (8 * w) :=
  BitVec.ofNat _ (valueOf (slice bytes i w))

private theorem littleEndian_slice {bytes : List UInt8} {i w : Nat} (inside : i + w ≤ bytes.length) :
    littleEndian (sliceValue bytes i w) = slice bytes i w := by
  apply littleEndian_valueOf
  rw [slice, List.length_take, List.length_drop]
  omega

private theorem slice_append (bytes : List UInt8) {i w j : Nat} (next : i + w = j) :
    slice bytes i w ++ bytes.drop j = bytes.drop i := by
  rw [slice, ← next, ← List.drop_drop, List.take_append_drop]

private theorem section_of_bytes {bytes : List UInt8} (length : bytes.length = 40) :
    ∃ s : SectionHeader, s.bytes = bytes := by
  let s : SectionHeader :=
    { name := bytes.take 8
      virtualSize := sliceValue bytes 8 4
      virtualAddress := sliceValue bytes 12 4
      sizeOfRawData := sliceValue bytes 16 4
      pointerToRawData := sliceValue bytes 20 4
      pointerToRelocations := sliceValue bytes 24 4
      pointerToLinenumbers := sliceValue bytes 28 4
      numberOfRelocations := sliceValue bytes 32 2
      numberOfLinenumbers := sliceValue bytes 34 2
      characteristics := sliceValue bytes 36 4
      name_length := by rw [List.length_take, length]; rfl }
  have fields : record s.fields = slice bytes 8 4 ++ (slice bytes 12 4 ++ (slice bytes 16 4 ++
      (slice bytes 20 4 ++ (slice bytes 24 4 ++ (slice bytes 28 4 ++ (slice bytes 32 2 ++
        (slice bytes 34 2 ++ (slice bytes 36 4 ++ [])))))))) := by
    have field {i w : Nat} (inside : i + w ≤ 40) := littleEndian_slice (length.symm ▸ inside)
    simp only [SectionHeader.fields, record, List.flatMap_cons, List.flatMap_nil]
    rw [field, field, field, field, field, field, field, field, field] <;> omega
  have tail : ([] : List UInt8) = bytes.drop 40 := (List.drop_eq_nil_of_le (by omega)).symm
  refine ⟨s, ?_⟩
  rw [SectionHeader.bytes, fields, tail, slice_append bytes (show 36 + 4 = 40 from rfl),
    slice_append bytes (show 34 + 2 = 36 from rfl), slice_append bytes (show 32 + 2 = 34 from rfl),
    slice_append bytes (show 28 + 4 = 32 from rfl), slice_append bytes (show 24 + 4 = 28 from rfl),
    slice_append bytes (show 20 + 4 = 24 from rfl), slice_append bytes (show 16 + 4 = 20 from rfl),
    slice_append bytes (show 12 + 4 = 16 from rfl), slice_append bytes (show 8 + 4 = 12 from rfl)]
  exact List.take_append_drop 8 bytes

private theorem sections_of_bytes {n : Nat} {bytes : List UInt8} (length : bytes.length = 40 * n) :
    ∃ sections : List SectionHeader, sections.length = n ∧
      sections.flatMap SectionHeader.bytes = bytes := by
  induction n generalizing bytes with
  | zero => exact ⟨[], rfl, (List.eq_nil_of_length_eq_zero length).symm⟩
  | succ n ih =>
    have head_length : (bytes.take 40).length = 40 := by rw [List.length_take]; omega
    have tail_length : (bytes.drop 40).length = 40 * n := by rw [List.length_drop]; omega
    obtain ⟨s, first⟩ := section_of_bytes head_length
    obtain ⟨sections, count, rest⟩ := ih tail_length
    refine ⟨s :: sections, by rw [List.length_cons, count], ?_⟩
    rw [List.flatMap_cons, first, rest, List.take_append_drop]

/-- The headers lie in memory as far as their own numbers say that they reach. -/
def HeadersReadable (memory : Memory) (base : Address) : Prop :=
  (readBytes memory base 64).isSome ∧
    ∀ ntheader sizeOfOptionalHeader numberOfSections,
      ntHeader memory base = some (some ntheader) →
        readNumber memory (ntheader + 20) 2 = some sizeOfOptionalHeader →
          readNumber memory (ntheader + 6) 2 = some numberOfSections →
            (readBytes memory ntheader
              (24 + sizeOfOptionalHeader.toNat + 40 * numberOfSections.toNat)).isSome

private theorem readNumber_of_bytes {memory : Memory} {a : Address} {bytes : List UInt8}
    (holds : Holds memory a bytes) {i w : Nat} (inside : i + w ≤ bytes.length) :
    readNumber memory (a + BitVec.ofNat 64 i) w = some (sliceValue bytes i w) := by
  have split : bytes = bytes.take i ++ (slice bytes i w ++ bytes.drop (i + w)) := by
    rw [slice_append bytes rfl, List.take_append_drop]
  rw [split] at holds
  have start : (bytes.take i).length = i := by rw [List.length_take]; omega
  have here := (holds_append.mp (holds.behind start)).1
  rw [← littleEndian_slice inside] at here
  exact readNumber_of_holds here

private theorem holds_of_readBytes {memory : Memory} {a : Address} {n : Nat} {bytes : List UInt8}
    (read : readBytes memory a n = some bytes) : bytes.length = n ∧ Holds memory a bytes := by
  have length := readBytes_length read
  refine ⟨length, ?_⟩
  rw [Holds, length]
  exact read

private theorem slice_of_read {memory : Memory} {a : Address} {bytes : List UInt8}
    (holds : Holds memory a bytes) {i w : Nat} (inside : i + w ≤ bytes.length)
    {value : BitVec (8 * w)} (read : readNumber memory (a + BitVec.ofNat 64 i) w = some value) :
    littleEndian value = slice bytes i w := by
  rw [readNumber_of_bytes holds inside] at read
  rw [← Option.some.inj read, littleEndian_slice inside]

private theorem dosBytes_of_bytes {memory : Memory} {base : Address} {dos : List UInt8}
    (length : dos.length = 64) (here : Holds memory base dos)
    (magic : readNumber memory base 2 = some imageDosSignature) {eLfanew : BitVec 32}
    (lfanew : readNumber memory (base + 0x3C) 4 = some eLfanew) :
    record [⟨2, imageDosSignature⟩] ++ (slice dos 2 58 ++ record [⟨4, eLfanew⟩]) = dos := by
  have first : @littleEndian 2 imageDosSignature = slice dos 0 2 := by
    apply slice_of_read here (by omega)
    rwa [BitVec.add_zero]
  have last : @littleEndian 4 eLfanew = slice dos 60 4 := slice_of_read here (by omega) lfanew
  have tail : ([] : List UInt8) = dos.drop 64 := (List.drop_eq_nil_of_le (by omega)).symm
  simp only [record, List.flatMap_cons, List.flatMap_nil]
  rw [first, last, tail, slice_append dos (show 60 + 4 = 64 from rfl),
    slice_append dos (show 2 + 58 = 60 from rfl), ← tail, List.append_nil,
    slice_append dos (show 0 + 2 = 2 from rfl), List.drop_zero]

private theorem headers_of_bytes {memory : Memory} {base : Address} {dos nt : List UInt8}
    (dos_length : dos.length = 64) (dos_here : Holds memory base dos)
    (magic : readNumber memory base 2 = some imageDosSignature) {eLfanew : BitVec 32}
    (lfanew : readNumber memory (base + 0x3C) 4 = some eLfanew)
    (signature : readNumber memory (rvaTo base eLfanew) 4 = some imageNtSignature)
    {sizeOfOptionalHeader numberOfSections : BitVec 16}
    (optional : readNumber memory (rvaTo base eLfanew + 20) 2 = some sizeOfOptionalHeader)
    (count : readNumber memory (rvaTo base eLfanew + 6) 2 = some numberOfSections)
    (nt_length : nt.length = 24 + sizeOfOptionalHeader.toNat + 40 * numberOfSections.toNat)
    (nt_here : Holds memory (rvaTo base eLfanew) nt) :
    ∃ h, LaidOut memory base h ∧ h.sections.length = numberOfSections.toNat := by
  have table_length : (nt.drop (24 + sizeOfOptionalHeader.toNat)).length =
      40 * numberOfSections.toNat := by
    rw [List.length_drop]
    omega
  obtain ⟨sections, sections_length, table⟩ := sections_of_bytes table_length
  have optional_length : (slice nt 24 sizeOfOptionalHeader.toNat).length =
      sizeOfOptionalHeader.toNat := by
    rw [slice, List.length_take, List.length_drop]
    omega
  let h : Headers :=
    { dosFields := slice dos 2 58
      eLfanew := eLfanew
      machine := sliceValue nt 4 2
      timeDateStamp := sliceValue nt 8 4
      pointerToSymbolTable := sliceValue nt 12 4
      numberOfSymbols := sliceValue nt 16 4
      characteristics := sliceValue nt 22 2
      optionalHeader := slice nt 24 sizeOfOptionalHeader.toNat
      sections := sections
      dosFields_length := by rw [slice, List.length_take, List.length_drop]; omega
      optionalHeader_fits := by rw [optional_length]; exact sizeOfOptionalHeader.isLt
      sections_fit := by rw [sections_length]; exact numberOfSections.isLt }
  have file : record h.fileFields = slice nt 0 4 ++ (slice nt 4 2 ++ (slice nt 6 2 ++
      (slice nt 8 4 ++ (slice nt 12 4 ++ (slice nt 16 4 ++ (slice nt 20 2 ++
        (slice nt 22 2 ++ []))))))) := by
    have field {i w : Nat} (inside : i + w ≤ 24) :
        littleEndian (sliceValue nt i w) = slice nt i w := littleEndian_slice (by omega)
    have first : @littleEndian 4 imageNtSignature = slice nt 0 4 := by
      apply slice_of_read nt_here (by omega)
      rwa [BitVec.add_zero]
    have number : @littleEndian 2 (BitVec.ofNat 16 sections.length) = slice nt 6 2 := by
      rw [sections_length, BitVec.ofNat_toNat, BitVec.setWidth_eq]
      exact slice_of_read nt_here (by omega) count
    have size : @littleEndian 2 (BitVec.ofNat 16 h.optionalHeader.length) = slice nt 20 2 := by
      rw [optional_length, BitVec.ofNat_toNat, BitVec.setWidth_eq]
      exact slice_of_read nt_here (by omega) optional
    simp only [Headers.fileFields, record, List.flatMap_cons, List.flatMap_nil]
    rw [first, number, size, field, field, field, field, field] <;> omega
  have whole : h.ntBytes = nt := by
    rw [Headers.ntBytes, file, show h.sections.flatMap _ = _ from table,
      slice_append nt (show 24 + sizeOfOptionalHeader.toNat = _ from rfl)]
    simp only [List.append_assoc, List.nil_append]
    rw [slice_append nt (show 22 + 2 = 24 from rfl), slice_append nt (show 20 + 2 = 22 from rfl),
      slice_append nt (show 16 + 4 = 20 from rfl), slice_append nt (show 12 + 4 = 16 from rfl),
      slice_append nt (show 8 + 4 = 12 from rfl), slice_append nt (show 6 + 2 = 8 from rfl),
      slice_append nt (show 4 + 2 = 6 from rfl), slice_append nt (show 0 + 4 = 4 from rfl),
      List.drop_zero]
  refine ⟨h, ⟨?_, ?_⟩, sections_length⟩
  · rw [Headers.dosBytes, dosBytes_of_bytes dos_length dos_here magic lfanew]
    exact dos_here
  · rw [whole]
    exact nt_here

private theorem ntHeader_found {memory : Memory} {base ntheader : Address}
    (found : ntHeader memory base = some (some ntheader)) :
    readNumber memory base 2 = some imageDosSignature ∧ ∃ eLfanew,
      readNumber memory (base + 0x3C) 4 = some eLfanew ∧ ntheader = rvaTo base eLfanew ∧
        readNumber memory ntheader 4 = some imageNtSignature := by
  rw [ntHeader] at found
  obtain ⟨eMagic, magic, found⟩ := Option.bind_eq_some_iff.mp found
  split at found
  · cases found
  rename_i dos
  obtain ⟨eLfanew, lfanew, found⟩ := Option.bind_eq_some_iff.mp found
  obtain ⟨signature, read, found⟩ := Option.bind_eq_some_iff.mp found
  split at found
  · cases found
  rename_i nt
  obtain rfl := Option.some.inj (Option.some.inj found)
  rw [not_not.mp dos] at magic
  rw [not_not.mp nt] at read
  exact ⟨magic, eLfanew, lfanew, rfl, read⟩

private theorem segments_found {memory : Memory} {base : Address} {table : List Address}
    (found : segments memory base = some table) (some_section : table ≠ []) :
    ∃ ntheader sizeOfOptionalHeader numberOfSections,
      ntHeader memory base = some (some ntheader) ∧
        readNumber memory (ntheader + 20) 2 = some sizeOfOptionalHeader ∧
          readNumber memory (ntheader + 6) 2 = some numberOfSections ∧
            table.length = numberOfSections.toNat := by
  rw [segments] at found
  obtain ⟨nt, header, found⟩ := Option.bind_eq_some_iff.mp found
  cases nt with
  | none =>
    obtain rfl := Option.some.inj found
    exact (some_section rfl).elim
  | some ntheader =>
    obtain ⟨size, optional, found⟩ := Option.bind_eq_some_iff.mp found
    obtain ⟨n, count, found⟩ := Option.bind_eq_some_iff.mp found
    obtain rfl := Option.some.inj found
    exact ⟨ntheader, size, n, header, optional, count, by simp⟩

private theorem headersReadable_of_laidOut {memory : Memory} {base : Address} {h : Headers}
    (laid : LaidOut memory base h) : HeadersReadable memory base := by
  have dos_length : h.dosBytes.length = 64 := by
    simp [Headers.dosBytes, h.dosFields_length, offset]
  constructor
  · rw [readBytes_eq_of_holds laid.dos dos_length]
    rfl
  · intro ntheader size n header optional count
    rw [ntHeader_of_laidOut laid] at header
    obtain rfl := Option.some.inj (Option.some.inj header)
    rw [sizeOfOptionalHeader_of_laidOut laid] at optional
    rw [numberOfSections_of_laidOut laid] at count
    obtain rfl := Option.some.inj optional
    obtain rfl := Option.some.inj count
    have table_length : (h.sections.flatMap SectionHeader.bytes).length = 40 * h.sections.length := by
      simp [List.length_flatMap, SectionHeader.bytes_length, Nat.mul_comm]
    have length : h.ntBytes.length = 24 + (BitVec.ofNat 16 h.optionalHeader.length).toNat +
        40 * (BitVec.ofNat 16 h.sections.length).toNat := by
      rw [BitVec.toNat_ofNat, BitVec.toNat_ofNat, Nat.mod_eq_of_lt h.optionalHeader_fits,
        Nat.mod_eq_of_lt h.sections_fit, Headers.ntBytes, List.length_append, List.length_append,
        record_length, table_length, Nat.add_assoc]
      rfl
    rw [readBytes_eq_of_holds laid.nt length]
    rfl

/-- A module has sections to the code exactly if the headers of an image stand there, and then
they are that image's sections in their order. -/
theorem segments_wellFormed (memory : Memory) (base : Address) (table : List Address) :
    segments memory base = some table ∧ table ≠ [] ∧ HeadersReadable memory base ↔
      ∃ h, LaidOut memory base h ∧ h.sections ≠ [] ∧
        table = (List.range h.sections.length).map (h.sectionAddress base) := by
  constructor
  · rintro ⟨found, some_section, dos_readable, nt_readable⟩
    obtain ⟨ntheader, size, n, header, optional, count, length⟩ := segments_found found some_section
    obtain ⟨dos, dos_read⟩ := Option.isSome_iff_exists.mp dos_readable
    obtain ⟨nt, nt_read⟩ := Option.isSome_iff_exists.mp (nt_readable _ _ _ header optional count)
    obtain ⟨magic, eLfanew, lfanew, rfl, signature⟩ := ntHeader_found header
    obtain ⟨dos_length, dos_here⟩ := holds_of_readBytes dos_read
    obtain ⟨nt_length, nt_here⟩ := holds_of_readBytes nt_read
    obtain ⟨h, laid, sections⟩ := headers_of_bytes dos_length dos_here magic lfanew signature
      optional count nt_length nt_here
    refine ⟨h, laid, ?_, ?_⟩
    · intro none
      rw [none, List.length_nil, ← length] at sections
      exact some_section (List.eq_nil_of_length_eq_zero sections.symm)
    · rw [segments_of_laidOut laid] at found
      exact (Option.some.inj found).symm
  · rintro ⟨h, laid, some_section, rfl⟩
    refine ⟨segments_of_laidOut laid, ?_, headersReadable_of_laidOut laid⟩
    intro empty
    have none := congrArg List.length empty
    rw [List.length_map, List.length_range] at none
    exact some_section (List.eq_nil_of_length_eq_zero none)

end LoginHelper.Pe.HeaderFormat
