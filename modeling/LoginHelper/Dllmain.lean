/- Unit: LoginHelper/Dllmain
   source: src/loginhelper/dllmain.cpp
   digest: Finding the game's functions by their bytes, attaching the hooks, and reading the switches. -/

import LoginHelper.Hooks
import LoginHelper.Searchers

set_option autoImplicit false
set_option relaxedAutoImplicit false

namespace LoginHelper.Dllmain

open LoginHelper.Foundation.Execution
open LoginHelper.Windows.Runtime (stoi)
open LoginHelper.CommandLine (hasSwitch keepPinRegex fixProgramIdRegex)
open LoginHelper.Searchers (patternSearcher)
open LoginHelper.Data

/-- The game's module in memory, with the code section it executes from. A module
lies in the lower half of the address space and not at its very start. -/
structure Module where
  handle : Address
  codeAddress : Address
  data : List UInt8
  userMode : 0 < handle.toNat ∧ handle.toNat < 2 ^ 47

namespace Module

/-- `std::search(data.begin(), data.end(), pattern_searcher(pattern))` -/
def find (m : Module) (pattern : String) : Option Nat := patternSearcher pattern.toList m.data

/-- `(uintptr_t)&result[0]` -/
def address (m : Module) (result : Nat) : Address := m.codeAddress + BitVec.ofNat 64 result

/-- `module->rva_to(address - handle)`, where the difference is cut to its 32 bits. -/
def rvaTo (m : Module) (address : Address) : Address :=
  m.handle + ((address - m.handle).setWidth 32).setWidth 64

/-- The four bytes at `result`, which every pattern this is used with covers. -/
def read32 (m : Module) (result : Nat) : BitVec 32 :=
  let byte (i : Nat) : BitVec 8 := (m.data.getD (result + i) 0).toBitVec
  byte 3 ++ byte 2 ++ byte 1 ++ byte 0

end Module

def updateVerifyModePattern : String :=
  "48 8B C4 56 57 41 55 41 56 41 57 48 81 EC 80 00 00 00 48 C7 40 98 FE FF FF FF 48 89 58 10 " ++
    "48 89 68 18 0F 29 70 C8"

def processConfirmClickPattern : String :=
  "83 BB ?? ?? 00 00 00 0F8E ?? ?? ?? ?? 83 BB ?? ?? ?? ?? 00 0F8E ?? ?? ?? ?? E8 ?? ?? ?? ??"

def requestLoginPattern : String :=
  "0F 84 F0 03 00 00 33 F6 66 41 3B F0 0F 84 E4 03 00 00 4D 85 ED 0F 84 DB 03 00 00 66 3B 75 " ++
    "70 0F 84 D1 03 00 00 48 85 DB 0F 84 C8 03 00 00 48 85 C0 0F 84 BF 03 00 00"

def openLoginPanelPattern : String :=
  "48 89 7C 24 18 41 56 48 83 EC 20 4C 8B F1 FF 15 ?? ?? ?? ?? 48 8B F8 48 85 C0 0F 84 E9 01 " ++
    "00 00"

def processLoginPattern : String :=
  "48 8B C4 55 57 41 56 48 8D 68 A8 48 81 EC 40 01 00 00 48 C7 44 24 68 FE FF FF FF"

def processLoginPattern2 : String :=
  "33 DB 48 89 5D D7 4C 8B 08 4C 8D 45 D7 41 8B 94 24 ?? ?? 00 00 48 8B C8"

def processEventPattern : String :=
  "48 89 5C 24 08 57 48 83 EC 20 48 8B FA 48 8B D9 FF 15 ?? ?? ?? ?? 4C 8B C8"

/-- `o... = module->rva_to(address - handle);` -/
def resolve (m : Module) (o : Original) (address : Address) (g : Globals) : Globals :=
  { g with original := Function.update g.original o (m.rvaTo address) }

/-- `DetourAttach`. The pointer goes through a trampoline from then on. -/
def attach (hook : Hook) (g : Globals) : Globals :=
  { g with attached := Function.update g.attached hook true }

/-- `result = std::search(...); if (result != data.end()) { ... }` -/
def onMatch (m : Module) (pattern : String) (found : Nat → Globals → Globals) (g : Globals) :
    Globals :=
  match m.find pattern with
  | some result => found result g
  | none => g

def hookUpdateVerifyMode (m : Module) : Globals → Globals :=
  onMatch m updateVerifyModePattern fun result g =>
    attach .loginOtpPanelUpdateVerifyMode
      (resolve m .loginOtpPanelUpdateVerifyMode (m.address result) g)

def hookProcessConfirmClick (m : Module) : Globals → Globals :=
  onMatch m processConfirmClickPattern fun result g =>
    attach .loginOtpPanelProcessConfirmClick
      (resolve m .loginOtpPanelProcessConfirmClick (m.address result - 0x8B)
        { g with uiPanelOffset := m.read32 (result + 2) - 0x0298 })

def hookRequestLogin (m : Module) : Globals → Globals :=
  onMatch m requestLoginPattern fun result g =>
    attach .lobbyRequestLogin (resolve m .lobbyRequestLogin (m.address result - 0x5E) g)

def hookOpenLoginPanel (m : Module) : Globals → Globals :=
  onMatch m openLoginPanelPattern fun result g =>
    let offsetAddr := m.address result + 0x10
    let offset := (m.read32 (result + 0x10)).signExtend 64
    resolve m .uiEngineInterfaceGetInstance (offsetAddr + offset + 4)
      (attach .titleLoginPanelOpenLoginPanel
        (resolve m .titleLoginPanelOpenLoginPanel (m.address result) g))

def resolveProcessLogin (m : Module) (g : Globals) : Globals :=
  if (m.find processLoginPattern).isSome then
    onMatch m processLoginPattern (fun result =>
      resolve m .titleLoginPanelProcessLogin (m.address result)) g
  else
    onMatch m processLoginPattern2 (fun result =>
      resolve m .titleLoginPanelProcessLogin (m.address result - 0x52)) g

def hookProcessEvent (m : Module) : Globals → Globals :=
  onMatch m processEventPattern fun result g =>
    attach .titleLoginPanelProcessEvent
      (resolve m .titleLoginPanelProcessEvent (m.address result) g)

def hookModule (m : Module) (g : Globals) : Globals :=
  hookProcessEvent m (resolveProcessLogin m (hookOpenLoginPanel m (hookRequestLogin m
    (hookProcessConfirmClick m (hookUpdateVerifyMode m g)))))

def setKeeppin : Code Unit := assignGlobals fun g => { g with keeppin := true }

def setSwapProgramid : Code Unit := assignGlobals fun g => { g with swapProgramid := true }

def keepPinSwitch : Code Unit := do
  let w ← readState
  if hasSwitch keepPinRegex w.process.commandLine = true then setKeeppin else pure ()

def fixProgramIdVariable : Code Unit := do
  match ← readWide .bnsServerFixProgramId with
  | some fixprogramid =>
    let n ← returnedOr (stoi fixprogramid)
    if n = 1 then setSwapProgramid else pure ()
  | none => pure ()

def fixProgramIdSwitch : Code Unit := do
  let w ← readState
  if w.globals.swapProgramid = false then
    if hasSwitch fixProgramIdRegex w.process.commandLine = true then setSwapProgramid else pure ()
  else pure ()

def readSwitches : Code Unit := do
  keepPinSwitch
  fixProgramIdVariable
  fixProgramIdSwitch

/-- `oep_notify`, with what `pe::get_module()` finds. -/
def oepNotify (module : Option Module) : Code Unit := do
  let w ← readState
  if w.globals.initdone = true then pure ()
  else
    match module with
    | none => pure ()
    | some m =>
      assignGlobals fun g => hookModule m { g with initdone := true }
      readSwitches

end LoginHelper.Dllmain
