/- Unit: LoginHelper/GameImage
   source: oep_notify in src/loginhelper/dllmain.cpp, with include/pe/module.inl and segment.inl
   digest: From the image in memory to the pointers through which the hooks call the game. -/

import LoginHelper.HookClosure
import LoginHelper.Pe.Module

set_option autoImplicit false
set_option relaxedAutoImplicit false

namespace LoginHelper.GameImage

open LoginHelper.Foundation.ByteMemory (Memory Holds readBytes readBytes_eq_of_holds littleEndian
  valueOf offset littleEndian_valueOf)
open LoginHelper.Foundation.LeftmostMatch (Leftmost)
open LoginHelper.Searchers
open LoginHelper.Data LoginHelper.Dllmain LoginHelper.HookClosure
open LoginHelper.Pe.Module (Headers SectionHeader OptionalHeader LaidOut ReadsSection segments
  findIf hasFlag imageScnCntCode asBytes segments_of_laidOut readsSection_of_laidOut
  findIf_of_laidOut smallMemory smallHeaders smallOptional smallCode smallBytes smallOptional_length
  small_laid small_code)

/-- `std::find_if` over `module->segments()`, and `s2->as_bytes()`. The iterator behind the last
section is not to be dereferenced. -/
def codeSection (memory : Memory) (pcToFileHeader : Address → Address) (handle : Address) :
    Option (Address × List UInt8) := do
  let sections2 ← segments memory handle
  let found ← findIf (fun x => hasFlag memory x imageScnCntCode) sections2
  let s2 ← found
  let (start, size) ← asBytes memory s2 pcToFileHeader
  let data ← readBytes memory start size
  pure (start, data)

/-- What the searches of `oep_notify` are given. -/
def gameModule (memory : Memory) (pcToFileHeader : Address → Address) (handle : Address)
    (userMode : 0 < handle.toNat ∧ handle.toNat < 2 ^ 47) : Option Module :=
  (codeSection memory pcToFileHeader handle).map fun (start, data) =>
    ⟨handle, start, data, userMode⟩

/-- A 64-bit image as the loader maps it, and its first code section: the section lies behind the
headers and inside the image, whose size has 32 bits, and the system knows its headers as the
image's. -/
structure Mapped (memory : Memory) (pcToFileHeader : Address → Address) (handle : Address)
    (h : Headers) (code : SectionHeader) (data : List UInt8) : Prop where
  userMode : 0 < handle.toNat ∧ handle.toNat < 2 ^ 47
  laid : LaidOut memory handle h
  first : h.sections.find? (fun s => s.characteristics &&& imageScnCntCode != 0) = some code
  owner : ∀ i < h.sections.length, pcToFileHeader (h.sectionAddress handle i) = handle
  size : data.length = code.virtualSize.toNat
  mapped : Holds memory (handle + code.virtualAddress.setWidth 64) data
  image : ∃ o : OptionalHeader, h.optionalHeader = o.bytes ∧
    code.virtualAddress.toNat + code.virtualSize.toNat ≤ o.sizeOfImage.toNat
  behindHeaders : h.eLfanew.toNat + 24 + h.optionalHeader.length + 40 * h.sections.length ≤
    code.virtualAddress.toNat

section Found

variable {memory : Memory} {pcToFileHeader : Address → Address} {handle : Address} {h : Headers}
  {code : SectionHeader} {data : List UInt8}

/-- The module that the searches go through. -/
def Mapped.module (image : Mapped memory pcToFileHeader handle h code data) : Module :=
  ⟨handle, handle + code.virtualAddress.setWidth 64, data, image.userMode⟩

private theorem first_at (image : Mapped memory pcToFileHeader handle h code data) :
    ∃ i, h.sections[i]? = some code ∧ i < h.sections.length ∧
      h.sections.findIdx? (fun s => s.characteristics &&& imageScnCntCode != 0) = some i := by
  obtain ⟨flagged, i, inside, here, before⟩ := List.find?_eq_some_iff_getElem.mp image.first
  refine ⟨i, by rw [List.getElem?_eq_getElem inside, here], inside, ?_⟩
  rw [List.findIdx?_eq_some_iff_getElem]
  refine ⟨inside, by rw [here]; exact flagged, ?_⟩
  intro j earlier
  simpa using before j earlier

/-- The searches are given the bytes of the first code section, where they stand. -/
theorem gameModule_of_mapped (image : Mapped memory pcToFileHeader handle h code data) :
    gameModule memory pcToFileHeader handle image.userMode = some image.module := by
  obtain ⟨i, here, inside, index⟩ := first_at image
  have reads := readsSection_of_laidOut image.laid here
  have found : findIf (fun x => hasFlag memory x imageScnCntCode)
      ((List.range h.sections.length).map (h.sectionAddress handle)) =
        some (some (h.sectionAddress handle i)) := by
    rw [findIf_of_laidOut image.laid fun a s reads => reads.hasFlag imageScnCntCode, index]
    rfl
  have bytes : asBytes memory (h.sectionAddress handle i) pcToFileHeader =
      some (handle + code.virtualAddress.setWidth 64, code.virtualSize.toNat) := by
    have owned : handle ≠ 0 := by
      intro null
      have positive := image.userMode.1
      rw [null] at positive
      exact Nat.lt_irrefl 0 positive
    rw [asBytes, image.owner i inside, if_neg owned, reads.virtualAddress, reads.virtualSize]
    rfl
  have section_bytes := readBytes_eq_of_holds image.mapped image.size
  simp only [gameModule, codeSection, segments_of_laidOut image.laid, Option.bind_eq_bind,
    Option.bind_some, found, bytes, section_bytes]
  rfl

end Found

def located (m : Module) (pattern : String) (address : Nat → Address) : Address :=
  (m.find pattern).elim 0 fun result => m.rvaTo (address result)

/-- The operand of the call that stands 16 bytes into `OpenLoginPanel`. -/
def instanceCell (m : Module) (result : Nat) : Address :=
  m.address result + 0x10 + (m.read32 (result + 0x10)).signExtend 64 + 4

def pointerOf (m : Module) : Original → Address
  | .loginOtpPanelUpdateVerifyMode => located m updateVerifyModePattern m.address
  | .loginOtpPanelProcessConfirmClick =>
      located m processConfirmClickPattern fun result => m.address result - 0x8B
  | .titleLoginPanelProcessEvent => located m processEventPattern m.address
  | .titleLoginPanelProcessLogin =>
      if (m.find processLoginPattern).isSome then located m processLoginPattern m.address
      else located m processLoginPattern2 fun result => m.address result - 0x52
  | .titleLoginPanelOpenLoginPanel => located m openLoginPanelPattern m.address
  | .uiEngineInterfaceGetInstance => located m openLoginPanelPattern (instanceCell m)
  | .lobbyRequestLogin => located m requestLoginPattern fun result => m.address result - 0x5E

private theorem onMatch_original (m : Module) (pattern : String) {found : Nat → Globals → Globals}
    (o : Original) (address : Nat → Address) (each : ∀ result g, (found result g).original =
      Function.update g.original o (m.rvaTo (address result)))
    {g : Globals} (null : g.original o = 0) :
    (onMatch m pattern found g).original =
      Function.update g.original o (located m pattern address) := by
  rw [onMatch, located]
  cases m.find pattern with
  | none =>
    rw [Option.elim_none, ← null, Function.update_eq_self]
  | some result => exact each result g

private theorem resolveProcessLogin_original (m : Module) {g : Globals}
    (null : g.original .titleLoginPanelProcessLogin = 0) :
    (resolveProcessLogin m g).original = Function.update g.original .titleLoginPanelProcessLogin
      (pointerOf m .titleLoginPanelProcessLogin) := by
  rw [resolveProcessLogin, pointerOf]
  split
  · exact onMatch_original m _ _ _ (fun _ _ => rfl) null
  · exact onMatch_original m _ _ _ (fun _ _ => rfl) null

private theorem hookOpenLoginPanel_original (m : Module) {g : Globals}
    (null : g.original .titleLoginPanelOpenLoginPanel = 0)
    (null' : g.original .uiEngineInterfaceGetInstance = 0) :
    (hookOpenLoginPanel m g).original = Function.update
      (Function.update g.original .titleLoginPanelOpenLoginPanel
        (pointerOf m .titleLoginPanelOpenLoginPanel))
      .uiEngineInterfaceGetInstance (pointerOf m .uiEngineInterfaceGetInstance) := by
  rw [hookOpenLoginPanel, onMatch, pointerOf, pointerOf, located, located]
  cases m.find openLoginPanelPattern with
  | none =>
    rw [Option.elim_none, Option.elim_none, ← null, Function.update_eq_self, null, ← null',
      Function.update_eq_self]
  | some result => rfl

theorem hookModule_original (m : Module) (g : Globals) (null : ∀ o, g.original o = 0)
    (o : Original) : (hookModule m g).original o = pointerOf m o := by
  have update : (hookUpdateVerifyMode m g).original = _ :=
    onMatch_original m _ .loginOtpPanelUpdateVerifyMode m.address (fun _ _ => rfl) (null _)
  have confirm : (hookProcessConfirmClick m (hookUpdateVerifyMode m g)).original = _ :=
    onMatch_original m _ .loginOtpPanelProcessConfirmClick (fun result => m.address result - 0x8B)
      (fun _ _ => rfl) (by simp [update, null])
  have request : (hookRequestLogin m (hookProcessConfirmClick m
      (hookUpdateVerifyMode m g))).original = _ :=
    onMatch_original m _ .lobbyRequestLogin (fun result => m.address result - 0x5E)
      (fun _ _ => rfl) (by simp [confirm, update, null])
  have openPanel := hookOpenLoginPanel_original m (g := hookRequestLogin m
    (hookProcessConfirmClick m (hookUpdateVerifyMode m g)))
    (by simp [request, confirm, update, null]) (by simp [request, confirm, update, null])
  have login := resolveProcessLogin_original m (g := hookOpenLoginPanel m (hookRequestLogin m
    (hookProcessConfirmClick m (hookUpdateVerifyMode m g))))
    (by simp [openPanel, request, confirm, update, null])
  have event : (hookModule m g).original = _ :=
    onMatch_original m _ .titleLoginPanelProcessEvent m.address (fun _ _ => rfl)
      (by simp [login, openPanel, request, confirm, update, null])
  rw [event, login, openPanel, request, confirm, update]
  cases o <;> simp [pointerOf]

private theorem onMatch_uiPanelOffset (m : Module) (pattern : String)
    {found : Nat → Globals → Globals}
    (each : ∀ result g, (found result g).uiPanelOffset = g.uiPanelOffset) (g : Globals) :
    (onMatch m pattern found g).uiPanelOffset = g.uiPanelOffset := by
  rw [onMatch]
  split
  · exact each _ g
  · rfl

theorem hookModule_uiPanelOffset (m : Module) (g : Globals) :
    (hookModule m g).uiPanelOffset = (m.find processConfirmClickPattern).elim g.uiPanelOffset
      fun result => m.read32 (result + 2) - 0x0298 := by
  have update : (hookUpdateVerifyMode m g).uiPanelOffset = g.uiPanelOffset := by
    apply onMatch_uiPanelOffset
    exact fun _ _ => rfl
  have request (g : Globals) : (hookRequestLogin m g).uiPanelOffset = g.uiPanelOffset := by
    apply onMatch_uiPanelOffset
    exact fun _ _ => rfl
  have openPanel (g : Globals) : (hookOpenLoginPanel m g).uiPanelOffset = g.uiPanelOffset := by
    apply onMatch_uiPanelOffset
    exact fun _ _ => rfl
  have login (g : Globals) : (resolveProcessLogin m g).uiPanelOffset = g.uiPanelOffset := by
    rw [resolveProcessLogin]
    split
    · apply onMatch_uiPanelOffset
      exact fun _ _ => rfl
    · apply onMatch_uiPanelOffset
      exact fun _ _ => rfl
  have event (g : Globals) : (hookProcessEvent m g).uiPanelOffset = g.uiPanelOffset := by
    apply onMatch_uiPanelOffset
    exact fun _ _ => rfl
  rw [hookModule, event, login, openPanel, request, hookProcessConfirmClick, onMatch]
  cases m.find processConfirmClickPattern with
  | none => exact update
  | some result => rfl

/-- The first place in the data that has the bytes a pattern asks for, if there is one. -/
def FirstPlace (pattern : String) (data : List UInt8) : Option Nat → Prop :=
  Leftmost (TokensMatchAt (tokens pattern.toList) data)

/-- The pointer leads as many bytes ahead of the first place of the pattern in the section, and
is null if the pattern has none. -/
def LeadsTo (start : Address) (data : List UInt8) (pattern : String) (ahead : Nat)
    (pointer : Address) : Prop :=
  ∃ place, FirstPlace pattern data place ∧
    pointer = place.elim 0 fun i => start + BitVec.ofNat 64 i - BitVec.ofNat 64 ahead

/-- The pointer leads to the cell through which the call inside `OpenLoginPanel` goes, if that
cell lies in the 4 GiB from the image on, and only then. -/
def LeadsToCell (handle start : Address) (data : List UInt8) (pointer : Address) : Prop :=
  ∃ place, FirstPlace openLoginPanelPattern data place ∧
    match place with
    | none => pointer = 0
    | some i => ∃ d : BitVec 32, @littleEndian 4 d <+: data.drop (i + 0x10) ∧
        (pointer = start + BitVec.ofNat 64 (i + 0x14) + d.signExtend 64 ↔
          (start + BitVec.ofNat 64 (i + 0x14) + d.signExtend 64 - handle).toNat < 2 ^ 32)

/-- The offset is the displacement of the comparison at the first place, less its usual value,
and that displacement has 16 bits. -/
def OffsetAt (data : List UInt8) (offset : BitVec 32) : Prop :=
  ∃ place, FirstPlace processConfirmClickPattern data place ∧
    match place with
    | none => offset = 0
    | some i => ∃ d : BitVec 16, @littleEndian 2 d ++ [0, 0] <+: data.drop (i + 2) ∧
        offset = d.setWidth 32 - 0x298

/-- What the notification has found. -/
structure HookedExactly (handle start : Address) (data : List UInt8) (g : Globals) : Prop where
  updateVerifyMode : LeadsTo start data updateVerifyModePattern 0
    (g.original .loginOtpPanelUpdateVerifyMode)
  processConfirmClick : LeadsTo start data processConfirmClickPattern 0x8B
    (g.original .loginOtpPanelProcessConfirmClick)
  requestLogin : LeadsTo start data requestLoginPattern 0x5E (g.original .lobbyRequestLogin)
  openLoginPanel : LeadsTo start data openLoginPanelPattern 0
    (g.original .titleLoginPanelOpenLoginPanel)
  processEvent : LeadsTo start data processEventPattern 0 (g.original .titleLoginPanelProcessEvent)
  processLogin : (∃ i, FirstPlace processLoginPattern data (some i) ∧
      g.original .titleLoginPanelProcessLogin = start + BitVec.ofNat 64 i) ∨
    FirstPlace processLoginPattern data none ∧ LeadsTo start data processLoginPattern2 0x52
      (g.original .titleLoginPanelProcessLogin)
  getInstance : LeadsToCell handle start data (g.original .uiEngineInterfaceGetInstance)
  uiPanelOffset : OffsetAt data g.uiPanelOffset
  attached : ∀ hook, g.attached hook = true ↔ g.original hook.own ≠ 0
  fresh : g.Fresh

private theorem find_first (m : Module) {pattern : String}
    (paired : Even (tokens pattern.toList).length) (some : tokens pattern.toList ≠ []) :
    FirstPlace pattern m.data (m.find pattern) := by
  by_cases empty : m.data = []
  · have nothing : m.find pattern = none := by rw [Module.find, patternSearcher, if_pos empty]
    rw [nothing, FirstPlace]
    intro i here
    have room := here.1
    have positive := List.length_pos_of_ne_nil some
    rw [empty, List.length_nil] at room
    omega
  · exact patternSearcher_paired pattern.toList paired m.data empty

theorem rvaTo_iff (m : Module) (target : Address) :
    m.rvaTo target = target ↔ (target - m.handle).toNat < 2 ^ 32 := by
  have cut : (((target - m.handle).setWidth 32).setWidth 64).toNat =
      (target - m.handle).toNat % 2 ^ 32 := by
    rw [BitVec.toNat_setWidth, BitVec.toNat_setWidth]
    omega
  constructor
  · intro same
    have rva : ((target - m.handle).setWidth 32).setWidth 64 = target - m.handle := by
      rw [eq_comm, BitVec.sub_eq_iff_eq_add, BitVec.add_comm]
      exact same.symm
    rw [← rva, cut]
    exact Nat.mod_lt _ (by norm_num)
  · intro small
    have rva : ((target - m.handle).setWidth 32).setWidth 64 = target - m.handle := by
      apply BitVec.eq_of_toNat_eq
      rw [cut, Nat.mod_eq_of_lt small]
    rw [Module.rvaTo, rva, BitVec.add_comm, BitVec.sub_add_cancel]

private theorem inside_image (handle : Address) {rva : BitVec 32} {i ahead : Nat}
    (low : ahead ≤ rva.toNat) (high : rva.toNat + i < 2 ^ 32) :
    (handle + rva.setWidth 64 + BitVec.ofNat 64 i - BitVec.ofNat 64 ahead - handle).toNat <
      2 ^ 32 := by
  have place : handle + rva.setWidth 64 + BitVec.ofNat 64 i - BitVec.ofNat 64 ahead - handle =
      BitVec.ofNat 64 (rva.toNat + i - ahead) := by
    apply BitVec.eq_of_toNat_eq
    have base := handle.isLt
    simp only [BitVec.toNat_sub, BitVec.toNat_add, BitVec.toNat_setWidth, BitVec.toNat_ofNat]
    omega
  rw [place, BitVec.toNat_ofNat]
  omega

def patterns : List (String × Nat) :=
  [(updateVerifyModePattern, 38), (processConfirmClickPattern, 31), (requestLoginPattern, 55),
    (openLoginPanelPattern, 32), (processLoginPattern, 27), (processLoginPattern2, 24),
    (processEventPattern, 25)]

private theorem patterns_tokens : ∀ pattern ∈ patterns,
    (tokens pattern.1.toList).length = 2 * pattern.2 := by
  decide +kernel

private theorem patterns_whole {pattern : String} {bytes : Nat}
    (member : (pattern, bytes) ∈ patterns) :
    Even (tokens pattern.toList).length ∧ tokens pattern.toList ≠ [] := by
  have length : (tokens pattern.toList).length = 2 * bytes := patterns_tokens _ member
  have positive : ∀ pattern ∈ patterns, 0 < pattern.2 := by decide
  have some_byte : 0 < bytes := positive _ member
  exact ⟨⟨bytes, by omega⟩, List.ne_nil_of_length_pos (by omega)⟩

private theorem read32_value (m : Module) {r : Nat} {b0 b1 b2 b3 : UInt8} {rest : List UInt8}
    (bytes : m.data.drop r = b0 :: b1 :: b2 :: b3 :: rest) :
    (m.read32 r).toNat = valueOf [b0, b1, b2, b3] := by
  have byte (i : Nat) : m.data.getD (r + i) 0 = (m.data.drop r).getD i 0 := by
    simp [List.getD_eq_getElem?_getD, List.getElem?_drop]
  have h0 : b0.toBitVec.toNat < 2 ^ 8 := b0.toBitVec.isLt
  have h1 : b1.toBitVec.toNat < 2 ^ 8 := b1.toBitVec.isLt
  have h2 : b2.toBitVec.toNat < 2 ^ 8 := b2.toBitVec.isLt
  rw [Module.read32]
  simp only [byte, bytes, BitVec.toNat_append, List.getD_cons_zero, List.getD_cons_succ]
  rw [← Nat.shiftLeft_add_eq_or_of_lt h2, ← Nat.shiftLeft_add_eq_or_of_lt h1,
    ← Nat.shiftLeft_add_eq_or_of_lt h0]
  simp only [valueOf, List.map_cons, List.map_nil, Nat.ofDigits_cons, Nat.ofDigits_nil,
    Nat.shiftLeft_eq, UInt8.toNat]
  omega

private theorem four_bytes {bytes : List UInt8} (room : 4 ≤ bytes.length) :
    ∃ b0 b1 b2 b3 rest, bytes = b0 :: b1 :: b2 :: b3 :: rest := by
  match bytes, room with
  | b0 :: b1 :: b2 :: b3 :: rest, _ => exact ⟨b0, b1, b2, b3, rest, rfl⟩

private theorem read32_bytes (m : Module) {r : Nat} (room : r + 4 ≤ m.data.length) :
    @littleEndian 4 (m.read32 r) <+: m.data.drop r := by
  have enough : 4 ≤ (m.data.drop r).length := by rw [List.length_drop]; omega
  obtain ⟨b0, b1, b2, b3, rest, bytes⟩ := four_bytes enough
  have value : m.read32 r = BitVec.ofNat (8 * 4) (valueOf [b0, b1, b2, b3]) := by
    rw [← read32_value m bytes, BitVec.ofNat_toNat, BitVec.setWidth_eq]
  have back : @littleEndian 4 (m.read32 r) = [b0, b1, b2, b3] := by
    rw [value]
    exact littleEndian_valueOf _ rfl
  rw [back, bytes]
  exact ⟨rest, rfl⟩

private theorem read32_short (m : Module) {r : Nat} (room : r + 4 ≤ m.data.length)
    (zero : ∀ byte, m.data[r + 2]? = some byte ∨ m.data[r + 3]? = some byte → byte = 0) :
    ∃ d : BitVec 16, @littleEndian 2 d ++ [0, 0] <+: m.data.drop r ∧
      m.read32 r = d.setWidth 32 := by
  have enough : 4 ≤ (m.data.drop r).length := by rw [List.length_drop]; omega
  obtain ⟨b0, b1, b2, b3, rest, bytes⟩ := four_bytes enough
  have here (k : Nat) : m.data[r + k]? = (b0 :: b1 :: b2 :: b3 :: rest)[k]? := by
    rw [← bytes, List.getElem?_drop]
  obtain rfl := zero b2 (.inl (here 2))
  obtain rfl := zero b3 (.inr (here 3))
  have back : @littleEndian 2 (BitVec.ofNat 16 (valueOf [b0, b1])) = [b0, b1] :=
    littleEndian_valueOf [b0, b1] rfl
  refine ⟨BitVec.ofNat 16 (valueOf [b0, b1]), ?_, ?_⟩
  · rw [back, bytes]
    exact ⟨rest, rfl⟩
  · have h0 := b0.toNat_lt
    have h1 := b1.toNat_lt
    apply BitVec.eq_of_toNat_eq
    rw [read32_value m bytes, BitVec.toNat_setWidth, BitVec.toNat_ofNat]
    simp only [valueOf, List.map_cons, List.map_nil, Nat.ofDigits_cons, Nat.ofDigits_nil,
      UInt8.toNat_zero]
    omega

section Exact

variable {memory : Memory} {pcToFileHeader : Address → Address} {handle : Address} {h : Headers}
  {code : SectionHeader} {data : List UInt8}

private theorem behind_headers (image : Mapped memory pcToFileHeader handle h code data) :
    0x8B ≤ code.virtualAddress.toNat := by
  obtain ⟨o, optional, -⟩ := image.image
  have behind := image.behindHeaders
  have long : 120 ≤ h.optionalHeader.length := by
    rw [optional]
    simp [OptionalHeader.bytes, o.standardFields_length, o.windowsFields_length, offset]
    omega
  have some_section : 0 < h.sections.length :=
    List.length_pos_of_mem (List.mem_of_find?_eq_some image.first)
  omega

private theorem end_of_image (image : Mapped memory pcToFileHeader handle h code data) :
    code.virtualAddress.toNat + data.length < 2 ^ 32 := by
  obtain ⟨o, -, inside⟩ := image.image
  have size := image.size
  have bound := o.sizeOfImage.isLt
  omega

private theorem room_of_place {pattern : String} {i : Nat} (some : tokens pattern.toList ≠ [])
    (first : FirstPlace pattern data (.some i)) : i < data.length := by
  have room := first.1.1
  have positive := List.length_pos_of_ne_nil some
  omega

private theorem located_place (image : Mapped memory pcToFileHeader handle h code data)
    {pattern : String} (whole : Even (tokens pattern.toList).length ∧ tokens pattern.toList ≠ [])
    {ahead : Nat} (near : ahead ≤ 0x8B) {i : Nat}
    (place : image.module.find pattern = some i) {address : Nat → Address}
    (there : address i = image.module.address i - BitVec.ofNat 64 ahead) :
    located image.module pattern address =
      image.module.codeAddress + BitVec.ofNat 64 i - BitVec.ofNat 64 ahead := by
  have first := find_first image.module whole.1 whole.2
  rw [place] at first
  have room : i < data.length := room_of_place whole.2 first
  have low := behind_headers image
  have high := end_of_image image
  have inside := inside_image handle (show ahead ≤ code.virtualAddress.toNat by omega)
    (show code.virtualAddress.toNat + i < 2 ^ 32 by omega)
  rw [located, place, Option.elim_some, there]
  exact (rvaTo_iff image.module _).mpr inside

private theorem located_leadsTo (image : Mapped memory pcToFileHeader handle h code data)
    {pattern : String} (whole : Even (tokens pattern.toList).length ∧ tokens pattern.toList ≠ [])
    {ahead : Nat} (near : ahead ≤ 0x8B) {address : Nat → Address}
    (there : ∀ i, address i = image.module.address i - BitVec.ofNat 64 ahead) :
    LeadsTo image.module.codeAddress data pattern ahead (located image.module pattern address) := by
  refine ⟨image.module.find pattern, find_first image.module whole.1 whole.2, ?_⟩
  cases place : image.module.find pattern with
  | none => rw [located, place, Option.elim_none, Option.elim_none]
  | some i => exact located_place image whole near place (there i)

private theorem located_cell (image : Mapped memory pcToFileHeader handle h code data) :
    LeadsToCell handle image.module.codeAddress data
      (located image.module openLoginPanelPattern (instanceCell image.module)) := by
  have whole := patterns_whole (show (openLoginPanelPattern, 32) ∈ patterns by simp [patterns])
  have first := find_first image.module whole.1 whole.2
  refine ⟨image.module.find openLoginPanelPattern, first, ?_⟩
  rw [located]
  cases place : image.module.find openLoginPanelPattern with
  | none => rfl
  | some i =>
    rw [place] at first
    have length : (tokens openLoginPanelPattern.toList).length = 2 * 32 :=
      patterns_tokens (openLoginPanelPattern, 32) (by simp [patterns])
    have room := first.1.1
    rw [length] at room
    refine ⟨image.module.read32 (i + 0x10), read32_bytes image.module (by omega), ?_⟩
    have cell : instanceCell image.module i = image.module.codeAddress +
        BitVec.ofNat 64 (i + 0x14) + (image.module.read32 (i + 0x10)).signExtend 64 := by
      rw [instanceCell, Module.address, BitVec.ofNat_add]
      generalize (image.module.read32 (i + 0x10)).signExtend 64 = d
      bv_omega
    rw [← cell]
    exact rvaTo_iff image.module _

private theorem offset_found (image : Mapped memory pcToFileHeader handle h code data) :
    OffsetAt data ((image.module.find processConfirmClickPattern).elim 0
      fun result => image.module.read32 (result + 2) - 0x0298) := by
  have whole := patterns_whole (show (processConfirmClickPattern, 31) ∈ patterns by simp [patterns])
  have first := find_first image.module whole.1 whole.2
  refine ⟨image.module.find processConfirmClickPattern, first, ?_⟩
  cases place : image.module.find processConfirmClickPattern with
  | none => rfl
  | some i =>
    rw [place] at first
    obtain ⟨⟨room, all⟩, -⟩ := first
    have length : (tokens processConfirmClickPattern.toList).length = 2 * 31 :=
      patterns_tokens (processConfirmClickPattern, 31) (by simp [patterns])
    rw [length] at room
    -- The fifth and the sixth byte of the pattern are zero.
    have zero : ∀ k, k = 4 ∨ k = 5 → ∀ byte, data[i + k]? = some byte → byte = 0 := by
      intro k which byte here
      have high : (tokens processConfirmClickPattern.toList)[2 * k]? = some (.digit 0) := by
        rcases which with rfl | rfl
        · decide
        · decide
      have low : (tokens processConfirmClickPattern.toList)[2 * k + 1]? = some (.digit 0) := by
        rcases which with rfl | rfl
        · decide
        · decide
      have high_zero := all _ _ byte high (by rwa [show 2 * k / 2 = k by omega])
      have low_zero := all _ _ byte low (by rwa [show (2 * k + 1) / 2 = k by omega])
      rw [nibble, if_pos (by omega)] at high_zero
      rw [nibble, if_neg (by omega)] at low_zero
      apply UInt8.toNat_inj.mp
      rw [UInt8.toNat_zero]
      omega
    have inside : i + 2 + 4 ≤ image.module.data.length := by
      change i + 31 ≤ image.module.data.length at room
      omega
    obtain ⟨d, bytes, value⟩ := read32_short image.module inside
      (fun byte here => here.elim (zero 4 (.inl rfl) byte) (zero 5 (.inr rfl) byte))
    refine ⟨d, bytes, ?_⟩
    rw [Option.elim_some, value]

end Exact

theorem notified_original {m : Module} {w : World} (notified : Notified m w) (o : Original) :
    w.globals.original o = pointerOf m o := by
  obtain ⟨keeppin, swap, globals⟩ := notified_globals notified
  rw [globals]
  exact hookModule_original m _ (fun _ => rfl) o

private theorem small_mapped :
    Mapped smallMemory (fun _ => 0x140000000) 0x140000000 smallHeaders smallCode smallBytes := by
  constructor
  case userMode => decide
  case laid => exact small_laid
  case first => rfl
  case owner => intros; rfl
  case size => rfl
  case mapped => exact small_code
  case image => exact ⟨smallOptional, rfl, by decide⟩
  case behindHeaders =>
    simp [smallHeaders, smallCode, smallOptional_length]

end LoginHelper.GameImage
