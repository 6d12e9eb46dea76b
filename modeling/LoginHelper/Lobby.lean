/- Unit: LoginHelper/Lobby
   source: src/loginhelper/Lobby.h
   digest: The stored login, the server override, and the hooks of the login panel and the lobby. -/

import LoginHelper.Calls
import LoginHelper.CommandLine

set_option autoImplicit false
set_option relaxedAutoImplicit false

namespace LoginHelper.Lobby

open LoginHelper.Foundation.Execution
open LoginHelper.Windows.ProcessEnvironment
open LoginHelper.Windows.Runtime (StdException stoi)
open LoginHelper.CommandLine (usernameArgument passwordArgument)
open LoginHelper.Data LoginHelper.Calls

def setLoggedin (n : Int) : Code Unit := assignGlobals fun g => { g with loggedin := n }

def setAccount (text : WString) : Code Unit := assignGlobals fun g => { g with mAccount := text }

def setPassword (text : WString) : Code Unit := assignGlobals fun g => { g with mPassword := text }

/-- The exits of `GetLogin` that found no complete pair. -/
def noLogin : Code Bool := do
  setLoggedin (-1)
  pure false

/-- `BNS_PROFILE_PASSWORD`, once there is a user name. -/
def passwordFromVariable : Code Bool := do
  match ← readWide .bnsProfilePassword with
  | some passchar =>
    setPassword passchar
    clearVariable .bnsProfilePassword
    pure true
  | none => noLogin

def loginFromCommandLine : Code Bool := do
  let w ← readState
  match usernameArgument w.process.commandLine with
  | some account =>
    setAccount account
    match passwordArgument w.process.commandLine with
    | some password =>
      setPassword password
      pure true
    | none => noLogin
  | none => noLogin

/-- The part of `GetLogin` behind its early exit. -/
def readLogin : Code Bool := do
  setLoggedin 2
  match ← readWide .bnsProfileUsername with
  | some mailchar =>
    setAccount mailchar
    clearVariable .bnsProfileUsername
    passwordFromVariable
  | none => loginFromCommandLine

/-- The early exit returns the `int` as a `bool`: anything but 0 is true. -/
def getLogin : Code Bool := do
  let w ← readState
  if w.globals.loggedin ≠ 0 then pure (decide (w.globals.loggedin ≠ 0)) else readLogin

def setServer (f : LoginHelperData → LoginHelperData) : Code Unit :=
  assignGlobals fun g => { g with lhdata := f g.lhdata }

/-- `std::stoi`, whose exceptions leave the hook. -/
def readNumber (text : WString) : Code Int := returnedOr (stoi text)

/-- One `if` of `GetServer`: store the text of a variable and report that it was set. -/
def serverText (name : EnvVar) (store : WString → LoginHelperData → LoginHelperData) :
    Code Bool := do
  match ← readWide name with
  | some text =>
    setServer (store text)
    pure true
  | none => pure false

def serverNumber (name : EnvVar) (store : UInt16 → LoginHelperData → LoginHelperData) :
    Code Bool := do
  match ← readWide name with
  | some text =>
    let n ← readNumber text
    setServer (store (UInt16.ofInt n))
    pure true
  | none => pure false

/-- The three fields that `GetServer` marks as unset with -1. -/
def resetServer : Code Unit :=
  setServer fun d =>
    { d with npPort := UInt16.ofInt (-1), npProgramId := UInt16.ofInt (-1),
             lobbyPort := UInt16.ofInt (-1) }

def getServer : Code Bool := do
  resetServer
  let a ← serverText .bnsServerNpAddress fun s d => { d with npAddress := s }
  let b ← serverNumber .bnsServerNpPort fun n d => { d with npPort := n }
  let c ← serverNumber .bnsServerNpProgramId fun n d => { d with npProgramId := n }
  let d ← serverText .bnsServerNpGameCode fun s d => { d with npGameCode := s }
  let e ← serverText .bnsServerLobbyAddress fun s d => { d with lobbyAddress := s }
  let f ← serverNumber .bnsServerLobbyPort fun n d => { d with lobbyPort := n }
  pure (a || b || c || d || e || f)

/-- The `switch` under `swap_programid`. -/
def swapProgramId (npProgramId : UInt16) : UInt16 :=
  match npProgramId with
  | 302 => 301
  | 306 => 321
  | 342 => 346
  | 343 => 347
  | other => other

/-- `if (!text.empty()) argument = text.c_str();` -/
def overrideText (argument : TextPointer) (text : WString) : TextPointer :=
  if text.isEmpty then argument else .ofPlugin text

/-- `if (number != -1) argument = number;`, the number promoted to `int` first. -/
def overrideNumber (argument number : UInt16) : UInt16 :=
  if (number.toNat : Int) ≠ -1 then number else argument

def overrideLogin (d : LoginHelperData) (args : LobbyLogin UInt16) : LobbyLogin UInt16 :=
  { args with
    npAddress := overrideText args.npAddress d.npAddress
    npPort := overrideNumber args.npPort d.npPort
    npProgramId := overrideNumber args.npProgramId d.npProgramId
    npGameCode := overrideText args.npGameCode d.npGameCode
    lobbyAddress := overrideText args.lobbyAddress d.lobbyAddress
    lobbyPort := overrideNumber args.lobbyPort d.lobbyPort }

def toOriginal (args : LobbyLogin UInt16) : LobbyLogin Int :=
  ⟨args.thisptr, args.npAddress, args.npPort, args.npProgramId.toNat, args.npGameCode,
    args.lobbyAddress, args.lobbyPort, args.account, args.password⟩

/-- The arguments once the program id has been swapped, or not. -/
def swapped (swap : Bool) (args : LobbyLogin UInt16) : LobbyLogin UInt16 :=
  if swap then { args with npProgramId := swapProgramId args.npProgramId } else args

def hkLobbyRequestLogin (args : LobbyLogin UInt16) : Code Exit := do
  assignGlobals fun g => { g with firstrun := false }
  let w ← readState
  let args := swapped w.globals.swapProgramid args
  if ← getServer then
    let w ← readState
    pure (.calls (.requestLogin (toOriginal (overrideLogin w.globals.lhdata args))) .finishing)
  else pure (.calls (.requestLogin (toOriginal args)) .finishing)

def hkTitleLoginPanelProcessEvent (thisptr event : Address) : Code Exit := do
  let w ← readState
  if w.globals.firstrun = true then
    assignGlobals fun g => { g with pincount := 0 }
    pure (.calls (.processLogin thisptr) (.eventLogin thisptr event))
  else pure (.calls (.processEvent thisptr event) .finishing)

/-- `thisptr_src` with `UIPanelOffset` added. -/
def offsetTitlePanel (g : Globals) (thisptrSrc : Address) : Address :=
  thisptrSrc + g.uiPanelOffset.signExtend 64

def hkTitleLoginPanelOpenLoginPanel (thisptrSrc : Address) : Code Exit := do
  let w ← readState
  pure (.calls (.openLoginPanel thisptrSrc)
    (.loginPanelOpened (offsetTitlePanel w.globals thisptrSrc)))

/-- `SetTextValue` of the interface, found 24 bytes further on in the newer clients. -/
def setTextValue (g : Globals) (editBox : UInt32) (text : WString) : PluginCall :=
  .setTextValue g.uiEngineInterfaceInstance
    (g.uiEngineInterfaceInstance + if 0 < g.uiPanelOffset.toInt then 8 * 3 else 0) editBox text

/-- `hkTitleLoginPanel_OpenLoginPanel` from the interface on. -/
def fillLoginPanel (thisptrOffset interface : Address) : Code Exit := do
  assignGlobals fun g => { g with uiEngineInterfaceInstance := interface }
  if ← getLogin then
    let w ← readState
    pure (.calls
      (setTextValue w.globals (w.panels.titleLogin thisptrOffset).userIdEditBoxID
        w.globals.mAccount)
      (.userIdSet thisptrOffset))
  else pure (.returns 0)

/-- Its second `SetTextValue`. -/
def fillPassword (thisptrOffset : Address) : Code Exit := do
  let w ← readState
  pure (.calls
    (setTextValue w.globals (w.panels.titleLogin thisptrOffset).userPasswordEditBoxID
      w.globals.mPassword)
    .finishing)

def SameButLogin (w w' : World) : Prop :=
  ∃ loggedin account password, w'.globals =
    { w.globals with loggedin := loggedin, mAccount := account, mPassword := password }

theorem sameButLogin_frame : IsFrame SameButLogin where
  refl w := ⟨w.globals.loggedin, w.globals.mAccount, w.globals.mPassword, rfl⟩
  trans := by
    rintro s t u ⟨l, a, p, first⟩ ⟨l', a', p', second⟩
    exact ⟨l', a', p', by rw [second, first]⟩

private theorem keeps_noLogin : noLogin.Keeps SameButLogin :=
  keeps_bind sameButLogin_frame (fun w => ⟨-1, w.globals.mAccount, w.globals.mPassword, rfl⟩)
    fun _ => keeps_pure sameButLogin_frame false

private theorem keeps_setAccount (text : WString) : (setAccount text).Keeps SameButLogin :=
  fun w => ⟨w.globals.loggedin, text, w.globals.mPassword, rfl⟩

private theorem keeps_setPassword (text : WString) : (setPassword text).Keeps SameButLogin :=
  fun w => ⟨w.globals.loggedin, w.globals.mAccount, text, rfl⟩

private theorem keeps_clear (name : EnvVar) : (clearVariable name).Keeps SameButLogin :=
  fun w => ⟨w.globals.loggedin, w.globals.mAccount, w.globals.mPassword, rfl⟩

private theorem keeps_passwordFromVariable : passwordFromVariable.Keeps SameButLogin := by
  have frame := sameButLogin_frame
  apply keeps_bind frame (keeps_readWide frame _)
  intro password
  cases password with
  | some passchar =>
    apply keeps_bind frame (keeps_setPassword passchar)
    intro _
    exact keeps_bind frame (keeps_clear _) fun _ => keeps_pure frame true
  | none => exact keeps_noLogin

private theorem keeps_loginFromCommandLine : loginFromCommandLine.Keeps SameButLogin := by
  have frame := sameButLogin_frame
  apply keeps_bind frame (keeps_readState frame)
  intro w
  cases usernameArgument w.process.commandLine with
  | some account =>
    apply keeps_bind frame (keeps_setAccount account)
    intro _
    cases passwordArgument w.process.commandLine with
    | some password =>
      exact keeps_bind frame (keeps_setPassword password) fun _ => keeps_pure frame true
    | none => exact keeps_noLogin
  | none => exact keeps_noLogin

private theorem keeps_readLogin : readLogin.Keeps SameButLogin := by
  have frame := sameButLogin_frame
  refine keeps_bind frame (fun w => ⟨2, w.globals.mAccount, w.globals.mPassword, rfl⟩) fun _ => ?_
  apply keeps_bind frame (keeps_readWide frame _)
  intro username
  cases username with
  | some mailchar =>
    apply keeps_bind frame (keeps_setAccount mailchar)
    intro _
    exact keeps_bind frame (keeps_clear _) fun _ => keeps_passwordFromVariable
  | none => exact keeps_loginFromCommandLine

theorem getLogin_frame : getLogin.Keeps SameButLogin :=
  keeps_bind sameButLogin_frame (keeps_readState sameButLogin_frame) fun _ =>
    keeps_ite _ (keeps_pure sameButLogin_frame _) keeps_readLogin

/-- Only `lhdata` may differ. -/
def SameButServer (w w' : World) : Prop :=
  w'.process = w.process ∧ ∃ lhdata, w'.globals = { w.globals with lhdata := lhdata }

theorem sameButServer_frame : IsFrame SameButServer where
  refl w := ⟨rfl, w.globals.lhdata, rfl⟩
  trans := by
    rintro s t u ⟨process, d, first⟩ ⟨process', d', second⟩
    exact ⟨process'.trans process, d', by rw [second, first]⟩

private theorem keeps_setServer (f : LoginHelperData → LoginHelperData) :
    (setServer f).Keeps SameButServer := fun w => ⟨rfl, f w.globals.lhdata, rfl⟩

theorem serverText_frame (name : EnvVar) (store : WString → LoginHelperData → LoginHelperData) :
    (serverText name store).Keeps SameButServer := by
  have frame := sameButServer_frame
  apply keeps_bind frame (keeps_readWide frame name)
  intro text
  cases text with
  | none => exact keeps_pure frame false
  | some text => exact keeps_bind frame (keeps_setServer _) fun _ => keeps_pure frame true

theorem serverNumber_frame (name : EnvVar) (store : UInt16 → LoginHelperData → LoginHelperData) :
    (serverNumber name store).Keeps SameButServer := by
  have frame := sameButServer_frame
  apply keeps_bind frame (keeps_readWide frame name)
  intro text
  cases text with
  | none => exact keeps_pure frame false
  | some text =>
    apply keeps_bind frame (keeps_returnedOr frame _)
    intro n
    exact keeps_bind frame (keeps_setServer _) fun _ => keeps_pure frame true

theorem getServer_frame : getServer.Keeps SameButServer := by
  have frame := sameButServer_frame
  apply keeps_bind frame (keeps_setServer _)
  intro _
  apply keeps_bind frame (serverText_frame _ _)
  intro _
  apply keeps_bind frame (serverNumber_frame _ _)
  intro _
  apply keeps_bind frame (serverNumber_frame _ _)
  intro _
  apply keeps_bind frame (serverText_frame _ _)
  intro _
  apply keeps_bind frame (serverText_frame _ _)
  intro _
  exact keeps_bind frame (serverNumber_frame _ _) fun _ => keeps_pure frame _

end LoginHelper.Lobby
