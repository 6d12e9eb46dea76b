/- Unit: LoginHelper/Data
   source: src/loginhelper/Data.h, and the globals of LoginOtp.h, Lobby.h and dllmain.cpp
   digest: The game's panels, the plugin's globals, and everything its functions read and write. -/

import LoginHelper.Foundation.Execution
import LoginHelper.Windows.Runtime
import Mathlib.Data.BitVec

set_option autoImplicit false
set_option relaxedAutoImplicit false

namespace LoginHelper.Data

open LoginHelper.Foundation.Execution
open LoginHelper.Windows.ProcessEnvironment
open LoginHelper.Windows.Runtime (StdException)

/-- Addresses and register values. -/
abbrev Address := BitVec 64

structure OtpInput where
  inputBtnIndex : Int

structure OtpNumpad where
  numpadValue : Int

structure LoginOtpPanel where
  otpInputList : Fin 8 → OtpInput
  otpNumpadList : Fin 10 → OtpNumpad
  verifyFailCount : Int
  curInputCount : Int
  keyboardEnabled : Bool

structure TitleLoginPanel where
  userIdEditBoxID : UInt32
  userPasswordEditBoxID : UInt32

structure LoginHelperData where
  npAddress : WString
  npPort : UInt16
  npProgramId : UInt16
  npGameCode : WString
  lobbyAddress : WString
  lobbyPort : UInt16

/-- The functions of the game whose addresses `oep_notify` looks for. -/
inductive Original
  | loginOtpPanelUpdateVerifyMode
  | loginOtpPanelProcessConfirmClick
  | titleLoginPanelProcessEvent
  | titleLoginPanelProcessLogin
  | titleLoginPanelOpenLoginPanel
  | uiEngineInterfaceGetInstance
  | lobbyRequestLogin
  deriving DecidableEq

/-- The functions of the plugin that are attached to functions of the game. -/
inductive Hook
  | loginOtpPanelUpdateVerifyMode
  | loginOtpPanelProcessConfirmClick
  | titleLoginPanelProcessEvent
  | titleLoginPanelOpenLoginPanel
  | lobbyRequestLogin
  deriving DecidableEq

def Hook.own : Hook → Original
  | .loginOtpPanelUpdateVerifyMode => .loginOtpPanelUpdateVerifyMode
  | .loginOtpPanelProcessConfirmClick => .loginOtpPanelProcessConfirmClick
  | .titleLoginPanelProcessEvent => .titleLoginPanelProcessEvent
  | .titleLoginPanelOpenLoginPanel => .titleLoginPanelOpenLoginPanel
  | .lobbyRequestLogin => .lobbyRequestLogin

/-- The plugin's globals, with the pointers to the originals and what is attached. -/
structure Globals where
  mAccount : WString
  mPassword : WString
  loggedin : Int
  lhdata : LoginHelperData
  firstrun : Bool
  swapProgramid : Bool
  pincode : Fin 6 → Int
  keeppin : Bool
  pintext : WString
  pincount : Int
  uiPanelOffset : BitVec 32
  uiEngineInterfaceInstance : Address
  initdone : Bool
  original : Original → Address
  attached : Hook → Bool

/-- The globals as the initialisers in the source leave them. -/
def Globals.initial : Globals where
  mAccount := []
  mPassword := []
  loggedin := 0
  lhdata := ⟨[], 0, 0, [], [], 0⟩
  firstrun := true
  swapProgramid := false
  pincode := fun i => if i.val = 0 then -1 else 0
  keeppin := false
  pintext := []
  pincount := 0
  uiPanelOffset := 0
  uiEngineInterfaceInstance := 0
  initdone := false
  original := fun _ => 0
  attached := fun _ => false

/-- `pincode[0]`: a digit, or the mark -1 for not read yet, or -2 for none to be read. -/
def Globals.firstDigit (g : Globals) : Int := g.pincode 0

/-- The plugin's own globals as they are before the first call, whatever the
notification found and read. -/
structure Globals.Fresh (g : Globals) : Prop where
  mAccount : g.mAccount = []
  mPassword : g.mPassword = []
  loggedin : g.loggedin = 0
  firstrun : g.firstrun = true
  pincode : g.pincode = Globals.initial.pincode
  pincount : g.pincount = 0

/-- The process around the plugin. What a buffer holds after a variable turned out not
to fit is undefined, so the process may hold any such contents for every variable. -/
structure Process where
  environment : Environment
  commandLine : WString
  time : BitVec 64
  staleWide : EnvVar → WString
  staleNarrow : NString

/-- The game's panels by their addresses, `UIPanelOffset` included. -/
structure Panels where
  otp : Address → LoginOtpPanel
  titleLogin : Address → TitleLoginPanel

structure World where
  process : Process
  panels : Panels
  globals : Globals

/-- A process with nothing set, and panels with nothing in them. -/
def Process.bare : Process := ⟨Environment.bare, [], 0, fun _ => [], []⟩

def Panels.blank : Panels :=
  ⟨fun _ => ⟨fun _ => ⟨0⟩, fun _ => ⟨0⟩, 0, 0, false⟩, fun _ => ⟨0, 0⟩⟩

/-- The operations of the plugin that have no defined result on some states. -/
inductive Fault
  | unterminatedBuffer
  | outsideString
  | outsideArray
  | signedOverflow
  deriving DecidableEq

abbrev Code (α : Type) : Type := Exec StdException Fault World α

abbrev Ending (α : Type) : Type := Outcome StdException Fault World α

def World.withEnvironment (w : World) (env : Environment) : World :=
  { w with process := { w.process with environment := env } }

def World.withGlobals (w : World) (g : Globals) : World := { w with globals := g }

def World.withOtpPanel (w : World) (at_ : Address) (panel : LoginOtpPanel) : World :=
  { w with panels := { w.panels with otp := Function.update w.panels.otp at_ panel } }

@[simp] theorem withEnvironment_globals (w : World) (env : Environment) :
    (w.withEnvironment env).globals = w.globals := rfl
@[simp] theorem withEnvironment_environment (w : World) (env : Environment) :
    (w.withEnvironment env).process.environment = env := rfl
@[simp] theorem withGlobals_globals (w : World) (g : Globals) : (w.withGlobals g).globals = g := rfl
@[simp] theorem withGlobals_process (w : World) (g : Globals) :
    (w.withGlobals g).process = w.process := rfl
@[simp] theorem withGlobals_panels (w : World) (g : Globals) :
    (w.withGlobals g).panels = w.panels := rfl
@[simp] theorem withOtpPanel_globals (w : World) (a : Address) (panel : LoginOtpPanel) :
    (w.withOtpPanel a panel).globals = w.globals := rfl
@[simp] theorem withOtpPanel_same (w : World) (a : Address) (panel : LoginOtpPanel) :
    (w.withOtpPanel a panel).panels.otp a = panel := by
  simp [World.withOtpPanel]

def assignGlobals (f : Globals → Globals) : Code Unit :=
  modifyState fun w => w.withGlobals (f w.globals)

@[simp] theorem assignGlobals_run (f : Globals → Globals) (w : World) :
    (assignGlobals f).run w = .done () (w.withGlobals (f w.globals)) := rfl

/-- `SetEnvironmentVariableW(name, L"")`. -/
def clearVariable (name : EnvVar) : Code Unit :=
  modifyState fun w => w.withEnvironment (w.process.environment.clear name)

@[simp] theorem clearVariable_run (name : EnvVar) (w : World) :
    (clearVariable name).run w = .done () (w.withEnvironment (w.process.environment.clear name)) := rfl

def stringOf {α : Type} (read : Option (Option (List α))) : Code (Option (List α)) :=
  match read with
  | none => pure none
  | some text => definedOr .unterminatedBuffer text >>= fun text => pure (some text)

/-- `if (GetEnvironmentVariableW(name, &buffer[0], 256))`, and the string in the buffer. -/
def readWide (name : EnvVar) : Code (Option WString) :=
  readState >>= fun w =>
    stringOf (readVariable (w.process.environment.value name) (w.process.staleWide name) 256)

/-- `if (GetEnvironmentVariableA("BNS_PROFILE_OTP_SECRET", &buffer[0], 2048))`, likewise. -/
def readNarrowSecret : Code (Option NString) :=
  readState >>= fun w =>
    stringOf (readVariable w.process.environment.secret w.process.staleNarrow 2048)

theorem readWide_unset (name : EnvVar) (w : World)
    (unset : w.process.environment.value name = []) : (readWide name).run w = .done none w := by
  simp [readWide, unset, stringOf]

theorem readWide_fits (name : EnvVar) (w : World) (set : w.process.environment.IsSet name)
    (fits : (w.process.environment.value name).length < 256) :
    (readWide name).run w = .done (some (w.process.environment.value name)) w := by
  simp [readWide, stringOf,
    readVariable_fits _ (w.process.staleWide name) 256 set (Environment.value_nulFree _ _) fits]

/-- A text that does not fit leaves whatever the buffer then holds to be read. -/
theorem readWide_long (name : EnvVar) (w : World)
    (long : 256 ≤ (w.process.environment.value name).length) :
    (readWide name).run w =
      match bufferString 256 (w.process.staleWide name) with
      | some text => .done (some text) w
      | none => .undefined .unterminatedBuffer := by
  have set : w.process.environment.value name ≠ [] := by
    intro empty
    rw [empty] at long
    simp at long
  rw [readWide, bind_run, readState_run, Outcome.andThen_done, readVariable_long _ _ _ set long]
  cases bufferString 256 (w.process.staleWide name) <;> rfl

theorem fits_of_unterminated {name : EnvVar} {w : World} {text : Option WString} {t : World}
    (stale : bufferString 256 (w.process.staleWide name) = none)
    (read : (readWide name).run w = .done text t) :
    (w.process.environment.value name).length < 256 := by
  by_contra long
  rw [readWide_long name w (by omega), stale] at read
  cases read

theorem readNarrowSecret_unset (w : World) (unset : w.process.environment.secret = []) :
    readNarrowSecret.run w = .done none w := by
  simp [readNarrowSecret, unset, stringOf]

theorem readNarrowSecret_fits (w : World) (set : w.process.environment.secret ≠ [])
    (fits : w.process.environment.secret.length < 2048) :
    readNarrowSecret.run w = .done (some w.process.environment.secret) w := by
  simp [readNarrowSecret, stringOf,
    readVariable_fits _ w.process.staleNarrow 2048 set (Environment.secret_nulFree _) fits]

theorem keeps_stringOf {α : Type} {R : World → World → Prop} (frame : IsFrame R)
    (read : Option (Option (List α))) : (stringOf read).Keeps R := by
  cases read with
  | none => exact keeps_pure frame none
  | some text =>
    exact keeps_bind frame (keeps_definedOr frame _ text) fun text => keeps_pure frame _

theorem keeps_readWide {R : World → World → Prop} (frame : IsFrame R) (name : EnvVar) :
    (readWide name).Keeps R :=
  keeps_bind frame (keeps_readState frame) fun _ => keeps_stringOf frame _

theorem keeps_readNarrowSecret {R : World → World → Prop} (frame : IsFrame R) :
    readNarrowSecret.Keeps R :=
  keeps_bind frame (keeps_readState frame) fun _ => keeps_stringOf frame _

theorem readWide_cases (name : EnvVar) (w : World) :
    (w.process.environment.value name = [] ∧ (readWide name).run w = .done none w) ∨
    (w.process.environment.IsSet name ∧
      ((∃ text, (readWide name).run w = .done (some text) w) ∨
        (readWide name).run w = .undefined .unterminatedBuffer)) := by
  by_cases unset : w.process.environment.value name = []
  · exact .inl ⟨unset, readWide_unset name w unset⟩
  · refine .inr ⟨unset, ?_⟩
    by_cases fits : (w.process.environment.value name).length < 256
    · exact .inl ⟨_, readWide_fits name w unset fits⟩
    · rw [readWide_long name w (by omega)]
      cases bufferString 256 (w.process.staleWide name) with
      | none => exact .inr rfl
      | some text => exact .inl ⟨text, rfl⟩

theorem readNarrowSecret_cases (w : World) :
    (w.process.environment.secret = [] ∧ readNarrowSecret.run w = .done none w) ∨
    (w.process.environment.secret ≠ [] ∧
      ((∃ text, readNarrowSecret.run w = .done (some text) w) ∨
        readNarrowSecret.run w = .undefined .unterminatedBuffer)) := by
  by_cases unset : w.process.environment.secret = []
  · exact .inl ⟨unset, readNarrowSecret_unset w unset⟩
  · refine .inr ⟨unset, ?_⟩
    by_cases fits : w.process.environment.secret.length < 2048
    · exact .inl ⟨_, readNarrowSecret_fits w unset fits⟩
    · rw [readNarrowSecret, bind_run, readState_run, Outcome.andThen_done,
        readVariable_long _ _ _ unset (by omega)]
      cases bufferString 2048 w.process.staleNarrow with
      | none => exact .inr rfl
      | some text => exact .inl ⟨text, rfl⟩

end LoginHelper.Data
