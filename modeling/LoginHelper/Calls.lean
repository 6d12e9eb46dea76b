/- Unit: LoginHelper/Calls
   source: the signatures of the originals and the hooks in LoginOtp.h and Lobby.h
   digest: Where control goes when it leaves the plugin, and where it comes back. -/

import LoginHelper.Data

set_option autoImplicit false
set_option relaxedAutoImplicit false

namespace LoginHelper.Calls

open LoginHelper.Windows.ProcessEnvironment (WString)
open LoginHelper.Data

/-- A `const wchar_t*`: one that the game passed in, or the `c_str()` of a string
of the plugin. -/
inductive TextPointer
  | ofGame (address : Address)
  | ofPlugin (text : WString)
  deriving DecidableEq

/-- The arguments of `Lobby::RequestLogin`. The hook declares the program id as an
`unsigned __int16`, the original as an `int`. -/
structure LobbyLogin (ProgramId : Type) where
  thisptr : Address
  npAddress : TextPointer
  npPort : UInt16
  npProgramId : ProgramId
  npGameCode : TextPointer
  lobbyAddress : TextPointer
  lobbyPort : UInt16
  account : TextPointer
  password : TextPointer

/-- A call of a function that the plugin may hook. -/
inductive GameCall
  | updateVerifyMode (panel : Address)
  | processConfirmClick (panel : Address)
  | processEvent (panel event : Address)
  | openLoginPanel (panel : Address)
  | requestLogin (args : LobbyLogin UInt16)

def GameCall.hook : GameCall → Hook
  | .updateVerifyMode _ => .loginOtpPanelUpdateVerifyMode
  | .processConfirmClick _ => .loginOtpPanelProcessConfirmClick
  | .processEvent _ _ => .titleLoginPanelProcessEvent
  | .openLoginPanel _ => .titleLoginPanelOpenLoginPanel
  | .requestLogin _ => .lobbyRequestLogin

/-- A call the plugin makes into the game. -/
inductive PluginCall
  | updateVerifyMode (panel : Address)
  | processConfirmClick (panel : Address)
  | processEvent (panel event : Address)
  | processLogin (panel : Address)
  | openLoginPanel (panel : Address)
  | getInstance
  | setTextValue (interface : Address) (slot : Address) (editBox : UInt32) (text : WString)
  | requestLogin (args : LobbyLogin Int)

def PluginCall.original : PluginCall → Option Original
  | .updateVerifyMode _ => some .loginOtpPanelUpdateVerifyMode
  | .processConfirmClick _ => some .loginOtpPanelProcessConfirmClick
  | .processEvent _ _ => some .titleLoginPanelProcessEvent
  | .processLogin _ => some .titleLoginPanelProcessLogin
  | .openLoginPanel _ => some .titleLoginPanelOpenLoginPanel
  | .getInstance => some .uiEngineInterfaceGetInstance
  | .setTextValue _ _ _ _ => none
  | .requestLogin _ => some .lobbyRequestLogin

def PluginCall.interface : PluginCall → Option Address
  | .setTextValue interface _ _ _ => some interface
  | _ => none

/-- What is left of a hook while it waits for a call into the game to return. -/
inductive Frame
  /-- Only the return of what the original returned. -/
  | finishing
  /-- `hkLoginOtpPanel_updateVerifyMode` inside the confirmation it makes itself. -/
  | autoConfirm (panelSrc panelOffset : Address)
  /-- `hkTitleLoginPanel_ProcessEvent` inside `processLogin`. -/
  | eventLogin (panel event : Address)
  /-- The three waits of `hkTitleLoginPanel_OpenLoginPanel` before its last. -/
  | loginPanelOpened (panelOffset : Address)
  | instanceWanted (panelOffset : Address)
  | userIdSet (panelOffset : Address)
  deriving DecidableEq

/-- How a stretch of plugin code ends. -/
inductive Exit
  | calls (call : PluginCall) (rest : Frame)
  | returns (value : Address)

end LoginHelper.Calls
