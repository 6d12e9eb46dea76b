/- Unit: LoginHelper/Exceptions
   source: the hooks of src/loginhelper/LoginOtp.h and src/loginhelper/Lobby.h under any game
   digest: The exceptions that reach the game: where they come from, and the state they leave. -/

import LoginHelper.Footprint
import LoginHelper.ServerOverride

set_option autoImplicit false
set_option relaxedAutoImplicit false

namespace LoginHelper.Exceptions

open LoginHelper.Foundation.Execution LoginHelper.Foundation.Runs
open LoginHelper.Windows.ProcessEnvironment
open LoginHelper.Windows.Runtime (StdException stoi)
open LoginHelper.CommandLine (pinArgument usernameArgument passwordArgument)
open LoginHelper.CppTotp.Otp (readSecret)
open LoginHelper.Data LoginHelper.Calls LoginHelper.LoginOtp LoginHelper.Lobby
open LoginHelper.Hooks LoginHelper.Machine
open LoginHelper.Footprint (Touches touches_getServer)
open LoginHelper.ServerOverride (numberVariables sampleLogin)

theorem quiet_readWide (name : EnvVar) : (readWide name).Quiet := by
  apply quiet_bind throws_readState
  intro w
  cases readVariable (w.process.environment.value name) (w.process.staleWide name) 256 with
  | none => exact throws_pure none
  | some text => exact quiet_bind (throws_definedOr _ text) fun text => throws_pure _

private theorem quiet_loadPintext : loadPintext.Quiet := by
  apply quiet_forEach
  intro i
  apply quiet_bind throws_readState
  intro w
  exact quiet_bind (throws_definedOr _ _) fun c => throws_modifyState _

private theorem quiet_loadBuffer (buffer : NString) : (loadBuffer buffer).Quiet := by
  apply quiet_forEach
  intro i
  exact quiet_bind (throws_definedOr _ _) fun c => throws_modifyState _

private theorem quiet_spend {spend : Code Unit} (quiet : spend.Quiet) :
    (spendUnlessKept spend).Quiet :=
  quiet_bind throws_readState fun _ => throws_ite _ (throws_pure ()) quiet

private theorem quiet_pinFromText (text : WString) {spend : Code Unit} (quiet : spend.Quiet) :
    (pinFromText text spend).Quiet := by
  apply quiet_bind (throws_modifyState _)
  intro _
  apply quiet_bind quiet_loadPintext
  intro _
  exact quiet_bind quiet fun _ => throws_pure true

private theorem quiet_pinFromCommandLine : pinFromCommandLine.Quiet := by
  apply quiet_bind throws_readState
  intro w
  cases pinArgument w.process.commandLine with
  | some text => exact quiet_pinFromText text (throws_pure ())
  | none => exact throws_pure false

theorem quiet_getLogin : getLogin.Quiet := by
  have none : noLogin.Quiet := quiet_bind (throws_modifyState _) fun _ => throws_pure false
  have password : passwordFromVariable.Quiet := by
    apply quiet_bind (quiet_readWide _)
    intro text
    cases text with
    | none => exact none
    | some passchar =>
      apply quiet_bind (throws_modifyState _)
      intro _
      exact quiet_bind (throws_modifyState _) fun _ => throws_pure true
  have line : loginFromCommandLine.Quiet := by
    apply quiet_bind throws_readState
    intro w
    cases usernameArgument w.process.commandLine with
    | none => exact none
    | some account =>
      apply quiet_bind (throws_modifyState _)
      intro _
      cases passwordArgument w.process.commandLine with
      | none => exact none
      | some text => exact quiet_bind (throws_modifyState _) fun _ => throws_pure true
  have read : readLogin.Quiet := by
    apply quiet_bind (throws_modifyState _)
    intro _
    apply quiet_bind (quiet_readWide _)
    intro text
    cases text with
    | none => exact line
    | some mailchar =>
      apply quiet_bind (throws_modifyState _)
      intro _
      exact quiet_bind (throws_modifyState _) fun _ => password
  exact quiet_bind throws_readState fun _ => throws_ite _ (throws_pure _) read

/-- No PIN is cached, the secret is the first source that is set, and the decoder refuses
the text that is read for it. -/
structure SecretRefused (w : World) (e : StdException) : Prop where
  uncached : w.globals.firstDigit = -1
  pincode : w.process.environment.value .bnsPincode = []
  profilePin : w.process.environment.value .bnsProfilePin = []
  refused : ∃ text, readVariable w.process.environment.secret w.process.staleNarrow 2048 =
    some (some text) ∧ readSecret text = .error e

private theorem eq_frame : IsFrame (Eq : World → World → Prop) := ⟨fun _ => rfl, fun _ _ _ => Eq.trans⟩

private theorem pinFromSecret_throws (secret : NString) :
    (pinFromSecret secret).Throws fun w e t => t = w ∧ readSecret secret = .error e := by
  refine throws_bind (R := Eq) (T := fun w e t => t = w ∧ readSecret secret = .error e)
    ?_ ?_ ?_ ?_
  · intro s t e u same thrown
    rw [same]
    exact thrown
  · exact keeps_returnedOr eq_frame _
  · exact throws_returnedOr fun w e refused => ⟨rfl, refused⟩
  · intro qui
    apply Exec.Quiet.throws
    apply quiet_bind throws_readState
    intro w
    apply quiet_bind (throws_definedOr _ _)
    intro p
    apply quiet_bind (throws_definedOr _ _)
    intro buffer
    apply quiet_bind (quiet_loadBuffer buffer)
    intro _
    exact quiet_bind (quiet_spend (throws_modifyState _)) fun _ => throws_pure true

private theorem narrowSecret_read {w : World} {text : NString}
    (read : readNarrowSecret.run w = .done (some text) w) :
    readVariable w.process.environment.secret w.process.staleNarrow 2048 = some (some text) := by
  rw [readNarrowSecret, bind_run, readState_run, Outcome.andThen_done] at read
  cases known : readVariable w.process.environment.secret w.process.staleNarrow 2048 with
  | none =>
    rw [known] at read
    cases read
  | some buffer =>
    cases buffer with
    | none =>
      rw [known] at read
      cases read
    | some text' =>
      rw [known] at read
      cases read
      rfl

theorem getPin_threw {w t : World} {e : StdException} (run : getPin.run w = .threw e t) :
    t = w ∧ SecretRefused w e := by
  rw [getPin, bind_run, readState_run, Outcome.andThen_done, ite_run] at run
  split at run
  · cases run
  rw [ite_run] at run
  split at run
  · cases run
  rename_i uncached
  rw [readPin, bind_run] at run
  rcases readWide_cases .bnsPincode w with ⟨pincode, read⟩ | ⟨-, ⟨text, read⟩ | fault⟩
  case inr.inl =>
    rw [read] at run
    exact (quiet_pinFromText text (quiet_spend (throws_modifyState _)) w e t run).elim
  case inr.inr =>
    rw [fault] at run
    cases run
  rw [read, Outcome.andThen_done, bind_run] at run
  rcases readWide_cases .bnsProfilePin w with ⟨profilePin, read'⟩ | ⟨-, ⟨text, read'⟩ | fault⟩
  case inr.inl =>
    rw [read'] at run
    exact (quiet_pinFromText text (quiet_spend (throws_modifyState _)) w e t run).elim
  case inr.inr =>
    rw [fault] at run
    cases run
  rw [read', Outcome.andThen_done, bind_run] at run
  rcases readNarrowSecret_cases w with ⟨-, read''⟩ | ⟨-, ⟨text, read''⟩ | fault⟩
  · rw [read''] at run
    exact (quiet_pinFromCommandLine w e t run).elim
  · rw [read''] at run
    obtain ⟨same, refused⟩ := pinFromSecret_throws text w e t run
    exact ⟨same, not_not.mp uncached, pincode, profilePin, text, narrowSecret_read read'', refused⟩
  · rw [fault] at run
    cases run

/-- The text that is read for a variable is no number that an `int` holds. -/
def NumberRefused (p : Process) (name : EnvVar) (e : StdException) : Prop :=
  ∃ text, readVariable (p.environment.value name) (p.staleWide name) 256 = some (some text) ∧
    stoi text = .error e

def ServerRefused (w : World) (e : StdException) (t : World) : Prop :=
  SameButServer w t ∧ ∃ name ∈ numberVariables, NumberRefused w.process name e

private theorem serverRefused_back {s t u : World} {e : StdException} (same : SameButServer s t)
    (thrown : ServerRefused t e u) : ServerRefused s e u := by
  obtain ⟨rest, name, member, refused⟩ := thrown
  rw [same.1] at refused
  exact ⟨sameButServer_frame.trans s t u same rest, name, member, refused⟩

private theorem serverText_quiet (name : EnvVar) (store : WString → LoginHelperData → LoginHelperData) :
    (serverText name store).Quiet := by
  apply quiet_bind (quiet_readWide name)
  intro text
  cases text with
  | none => exact throws_pure false
  | some text => exact quiet_bind (throws_modifyState _) fun _ => throws_pure true

private theorem serverNumber_throws {name : EnvVar} (member : name ∈ numberVariables)
    (store : UInt16 → LoginHelperData → LoginHelperData) :
    (serverNumber name store).Throws ServerRefused := by
  intro w e t run
  rw [serverNumber, readWide, bind_run, bind_run, readState_run, Outcome.andThen_done] at run
  cases read : readVariable (w.process.environment.value name) (w.process.staleWide name) 256 with
  | none =>
    rw [read] at run
    cases run
  | some buffer =>
    cases buffer with
    | none =>
      rw [read] at run
      cases run
    | some text =>
      rw [read] at run
      replace run : (returnedOr (stoi text) >>= fun n => do
        setServer (store (UInt16.ofInt n))
        pure true : Code Bool).run w = .threw e t := run
      cases number : stoi text with
      | ok n =>
        rw [number] at run
        cases run
      | error e' =>
        rw [number] at run
        cases run
        exact ⟨sameButServer_frame.refl w, name, member, text, read, number⟩

private theorem thenServer {α β : Type} {first : Code α} {rest : α → Code β}
    (kept : first.Keeps SameButServer) (here : first.Throws ServerRefused)
    (next : ∀ a, (rest a).Throws ServerRefused) : (first >>= rest).Throws ServerRefused :=
  throws_bind (fun _ _ _ _ => serverRefused_back) kept here next

theorem getServer_throws : getServer.Throws ServerRefused := by
  have reset : resetServer.Keeps SameButServer := fun w => ⟨rfl, _, rfl⟩
  have reset_quiet : resetServer.Quiet := throws_modifyState _
  apply thenServer reset reset_quiet.throws
  intro _
  apply thenServer (serverText_frame _ _) (serverText_quiet _ _).throws
  intro a
  apply thenServer (serverNumber_frame _ _) (serverNumber_throws (by decide) _)
  intro b
  apply thenServer (serverNumber_frame _ _) (serverNumber_throws (by decide) _)
  intro c
  apply thenServer (serverText_frame _ _) (serverText_quiet _ _).throws
  intro d
  apply thenServer (serverText_frame _ _) (serverText_quiet _ _).throws
  intro e
  apply thenServer (serverNumber_frame _ _) (serverNumber_throws (by decide) _)
  intro f
  exact throws_pure _

/-- The two ways in which a stretch of plugin code throws: the lobby hook at a number that
`std::stoi` refuses, with `firstrun` cleared before, and the PIN panel's first refresh at a
secret that the decoder refuses. -/
inductive Thrown (w : World) : Cause → StdException → World → Prop
  | number (args : LobbyLogin UInt16) (e : StdException) (t : World)
      (refused : ServerRefused (w.withGlobals { w.globals with firstrun := false }) e t)
      (panels : t.panels = w.panels) :
      Thrown w (.call (.requestLogin args)) e t
  | secret (panelSrc : Address) (e : StdException) (first : FirstRefresh w panelSrc)
      (refused : SecretRefused w e) :
      Thrown w (.call (.updateVerifyMode panelSrc)) e (refreshed w panelSrc)

private theorem finishUpdate_quiet (panelSrc a : Address) : (finishUpdate panelSrc a).Quiet := by
  intro w e t run
  obtain ⟨w', ended, -⟩ := finishUpdate_run panelSrc a w
  rw [ended] at run
  cases run

private theorem getServer_panels : getServer.Keeps fun w t => t.panels = w.panels := by
  have same (w t : World) (touched : Touches (fun _ _ => False) none w t) : t.panels = w.panels := by
    have otp : t.panels.otp = w.panels.otp := by
      funext a
      rcases touched.otp a with same | ⟨here, -⟩
      · exact same
      · cases here
    calc t.panels = ⟨t.panels.otp, t.panels.titleLogin⟩ := rfl
      _ = w.panels := by rw [otp, touched.titleLogin]
  have touches : getServer.Keeps (Touches (fun _ _ => False) none) := touches_getServer
  exact fun w => (touches w).mono (fun _ t => same w t) (same w)

private theorem enter_thrown {call : GameCall} {w t : World} {e : StdException}
    (run : (enter call).run w = .threw e t) : Thrown w (.call call) e t := by
  cases call with
  | updateVerifyMode panelSrc =>
    rw [enter, updateVerifyMode_run] at run
    split at run
    · cases run
    split at run
    case isFalse => exact (finishUpdate_quiet _ _ _ _ _ run).elim
    case isTrue first =>
      rcases Outcome.andThen_eq_threw run with early | ⟨available, u, -, late⟩
      · obtain ⟨rfl, refused⟩ := getPin_threw early
        exact .secret panelSrc e first
          ⟨refused.uncached, refused.pincode, refused.profilePin, refused.refused⟩
      · split at late
        · cases late
        · exact (finishUpdate_quiet _ _ _ _ _ late).elim
  | processConfirmClick panelSrc => cases run
  | processEvent panelSrc event =>
    rw [enter, processEvent_run] at run
    split at run
    · cases run
    · cases run
  | openLoginPanel panelSrc => cases run
  | requestLogin args =>
    rw [enter, hkLobbyRequestLogin, bind_run, assignGlobals_run, Outcome.andThen_done, bind_run,
      readState_run, Outcome.andThen_done, bind_run] at run
    rcases Outcome.andThen_eq_threw run with early | ⟨any, u, -, late⟩
    · have panels := getServer_panels (w.withGlobals { w.globals with firstrun := false })
      rw [early] at panels
      exact .number args e t (getServer_throws _ _ _ early) panels
    · cases any with
      | true => cases late
      | false => cases late

private theorem resume_quiet (value : Address) (frame : Frame) : (resume value frame).Quiet := by
  cases frame with
  | finishing => exact throws_pure _
  | autoConfirm panelSrc panelOffset => exact finishUpdate_quiet panelSrc panelOffset
  | eventLogin panel event => exact throws_pure _
  | loginPanelOpened panelOffset => exact throws_pure _
  | instanceWanted panelOffset =>
    apply quiet_bind (throws_modifyState _)
    intro _
    apply quiet_bind quiet_getLogin
    intro found
    exact throws_ite _ (quiet_bind throws_readState fun _ => throws_pure _) (throws_pure _)
  | userIdSet panelOffset => exact quiet_bind throws_readState fun _ => throws_pure _

/-- A stretch that throws does so in one of these two ways. -/
def Explained (e : Entry) : Prop :=
  ∀ cause before thrown after, e = .stretch cause before (.threw thrown after) →
    Thrown before cause thrown after

private theorem starts_explained {c : Config} {action : Action} {cause : Cause} {stack : List Frame}
    {code : Code Exit} (starts : Starts c action cause stack code) :
    Explained (.stretch cause c.world (code.run c.world)) := by
  intro cause' before thrown after entry
  obtain ⟨rfl, rfl, run⟩ := Entry.stretch.inj entry
  cases starts with
  | call call running hooked => exact enter_thrown run
  | back frame stack value running waiting => exact (resume_quiet value frame _ _ _ run).elim

private theorem step_explained (c : Config) (action : Action) (inv : ∀ e ∈ c.trace, Explained e) :
    ∀ e ∈ (step c action).trace, Explained e := by
  rcases step_cases c action with
    ⟨cause, stack, code, starts, stepped⟩ | ⟨call, -, -, stepped⟩ | idle
  · rw [stepped, perform_trace]
    exact List.forall_mem_cons.mpr ⟨starts_explained starts, inv⟩
  · have unseen : Explained (.unhooked call) := by
      intro cause before thrown after entry
      cases entry
    rw [stepped]
    exact List.forall_mem_cons.mpr ⟨unseen, inv⟩
  · rw [idle.trace]
    exact inv

/-- In every run, each exception that a hook lets out to the game comes from a refused number
of the server override or from a refused secret. It leaves all but `firstrun` and the override,
or all but the refresh itself, as it was. -/
theorem exceptions_explained (w : World) (actions : List Action) :
    ∀ e ∈ (run step (Config.start w) actions).trace, Explained e := by
  have start : ∀ e ∈ (Config.start w).trace, Explained e := by
    intro e member
    cases member
  exact run_invariant_always step step_explained start actions

private theorem badPort_nulFree : (0 : WChar) ∉ wide "x" := by decide

def badPort : World :=
  hooked { Process.bare with
    environment := Environment.bare.assign .bnsServerNpPort ⟨wide "x", badPort_nulFree⟩ }

theorem exceptions_explained_badPort : ∃ e t,
    (run step (Config.start badPort) [.calls (.requestLogin sampleLogin)]).trace =
      [.stretch (.call (.requestLogin sampleLogin)) badPort (.threw e t)] ∧
    Thrown badPort (.call (.requestLogin sampleLogin)) e t := by
  obtain ⟨e, t, thrown⟩ :
      ∃ e t, (enter (.requestLogin sampleLogin)).run badPort = .threw e t := ⟨_, _, rfl⟩
  have newest : (run step (Config.start badPort) [.calls (.requestLogin sampleLogin)]).trace =
      [.stretch (.call (.requestLogin sampleLogin)) badPort (.threw e t)] := by
    rw [← thrown]
    exact single_trace rfl
  have member : Entry.stretch (.call (.requestLogin sampleLogin)) badPort (.threw e t) ∈
      (run step (Config.start badPort) [.calls (.requestLogin sampleLogin)]).trace := by
    rw [newest]
    exact List.mem_cons_self
  exact ⟨e, t, newest, exceptions_explained badPort _ _ member _ _ _ _ rfl⟩

end LoginHelper.Exceptions
