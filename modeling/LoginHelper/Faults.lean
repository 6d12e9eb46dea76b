/- Unit: LoginHelper/Faults
   source: the hooks of src/loginhelper/LoginOtp.h and src/loginhelper/Lobby.h under any game
   digest: Where the plugin does what the language leaves undefined, and nowhere else. -/

import LoginHelper.Machine
import LoginHelper.ServerOverride

set_option autoImplicit false
set_option relaxedAutoImplicit false

namespace LoginHelper.Faults

open LoginHelper.Foundation.Execution LoginHelper.Foundation.Runs
open LoginHelper.Windows.ProcessEnvironment
open LoginHelper.Windows.Runtime (StdException stoi)
open LoginHelper.CommandLine (pinArgument pinArgument_digits usernameArgument passwordArgument)
open LoginHelper.CppTotp.Otp (readSecret)
open LoginHelper.Data LoginHelper.Calls LoginHelper.LoginOtp LoginHelper.Lobby
open LoginHelper.Hooks LoginHelper.Machine
open LoginHelper.ServerOverride (serverVariables numberVariables)

/-- What a read of a variable finds: nothing, no string, or a text. -/
def found (p : Process) (name : EnvVar) : Option (Option WString) :=
  readVariable (p.environment.value name) (p.staleWide name) 256

def foundSecret (p : Process) : Option (Option NString) :=
  readVariable p.environment.secret p.staleNarrow 2048

/-- A text that is loaded as a PIN is no string, or ends before its fifth character. -/
def TextFault (source : Option (Option WString)) (u : Fault) : Prop :=
  source = some none ∧ u = .unterminatedBuffer ∨
    ∃ text, source = some (some text) ∧ text.length < 5 ∧ u = .outsideString

def PinFault (p : Process) (u : Fault) : Prop :=
  TextFault (found p .bnsPincode) u ∨ found p .bnsPincode = none ∧
    (TextFault (found p .bnsProfilePin) u ∨ found p .bnsProfilePin = none ∧
      foundSecret p = some none ∧ u = .unterminatedBuffer)

def Passed (p : Process) (name : EnvVar) : Prop :=
  found p name ≠ some none ∧
    (name ∈ numberVariables → ∀ text, found p name = some (some text) → ∃ n, stoi text = .ok n)

def ServerFault (p : Process) : List EnvVar → Prop
  | [] => False
  | name :: later => found p name = some none ∨ Passed p name ∧ ServerFault p later

def LoginFault (p : Process) : Prop :=
  found p .bnsProfileUsername = some none ∨
    (∃ text, found p .bnsProfileUsername = some (some text)) ∧
      found p .bnsProfilePassword = some none

/-- The ways in which a stretch of plugin code goes undefined, short of the call it ends in.
Secrets are taken to be ASCII: `std::islower` is not defined for a `char` below zero. -/
inductive FaultOf (w : World) : Cause → Fault → Prop
  | overflow (panelSrc : Address) (full : w.globals.pincount = 2 ^ 31 - 1) :
      FaultOf w (.call (.updateVerifyMode panelSrc)) .signedOverflow
  | pin (panelSrc : Address) (u : Fault) (room : w.globals.pincount ≠ 2 ^ 31 - 1)
      (first : FirstRefresh w panelSrc) (uncached : w.globals.firstDigit = -1)
      (fault : PinFault w.process u) : FaultOf w (.call (.updateVerifyMode panelSrc)) u
  | server (args : LobbyLogin UInt16) (fault : ServerFault w.process serverVariables) :
      FaultOf w (.call (.requestLogin args)) .unterminatedBuffer
  | login (panelOffset value : Address) (unread : w.globals.loggedin = 0)
      (fault : LoginFault w.process) :
      FaultOf w (.back (.instanceWanted panelOffset) value) .unterminatedBuffer

theorem readWide_found (name : EnvVar) (w : World) : (readWide name).run w =
    match found w.process name with
    | none => .done none w
    | some none => .undefined .unterminatedBuffer
    | some (some text) => .done (some text) w := by
  rw [readWide, bind_run, readState_run, Outcome.andThen_done, found]
  cases readVariable (w.process.environment.value name) (w.process.staleWide name) 256 with
  | none => rfl
  | some text => cases text <;> rfl

theorem readNarrowSecret_found (w : World) : readNarrowSecret.run w =
    match foundSecret w.process with
    | none => .done none w
    | some none => .undefined .unterminatedBuffer
    | some (some text) => .done (some text) w := by
  rw [readNarrowSecret, bind_run, readState_run, Outcome.andThen_done, foundSecret]
  cases readVariable w.process.environment.secret w.process.staleNarrow 2048 with
  | none => rfl
  | some text => cases text <;> rfl

private theorem loadPintext_short (w : World) (short : w.globals.pintext.length < 5) :
    loadPintext.run w = .undefined .outsideString := by
  have rounds (l : List (Fin 6)) (behind : ∃ i ∈ l, w.globals.pintext.length < i.val)
      (p : Fin 6 → Int) : (forEach (fun i : Fin 6 => do
        let w ← readState
        let c ← definedOr .outsideString (charAt w.globals.pintext i)
        storeDigit i ((c.toNat : Int) - 48)) l).run (withPincode w p) =
      .undefined .outsideString := by
    induction l generalizing p with
    | nil =>
      obtain ⟨i, member, -⟩ := behind
      cases member
    | cons i l ih =>
      by_cases inside : i.val ≤ w.globals.pintext.length
      · have rest : ∃ i ∈ l, w.globals.pintext.length < i.val := by
          obtain ⟨j, member, later⟩ := behind
          rcases List.mem_cons.mp member with rfl | member
          · omega
          · exact ⟨j, member, later⟩
        have here := ih rest (Function.update p i (textDigits w.globals.pintext i))
        rw [forEach, bind_run]
        simpa [charAt_inside inside, textDigits] using here
      · have outside : charAt w.globals.pintext i.val = none := by
          rw [charAt, if_neg (by omega), List.getElem?_eq_none (by omega)]
        rw [forEach, bind_run]
        simp [outside, definedOr, goUndefined, Outcome.andThen]
  have whole := rounds (List.finRange 6) ⟨5, List.mem_finRange 5, short⟩ w.globals.pincode
  rwa [withPincode_self] at whole

theorem pinFromText_undefined {spend : Code Unit} (leaves : LeavesGlobals spend)
    (text : WString) (w : World) (u : Fault) :
    (pinFromText text spend).run w = .undefined u ↔ text.length < 5 ∧ u = .outsideString := by
  rcases Nat.lt_or_ge text.length 5 with short | long
  · have fault := loadPintext_short (w.withGlobals { w.globals with pintext := text }) short
    have run : (pinFromText text spend).run w = .undefined .outsideString := by
      rw [pinFromText, bind_run, assignGlobals_run, Outcome.andThen_done, bind_run, fault]
      rfl
    rw [run]
    constructor
    · intro same
      cases same
      exact ⟨short, rfl⟩
    · rintro ⟨-, rfl⟩
      rfl
  · obtain ⟨w', run, -⟩ := pinFromText_run long leaves w
    rw [run]
    exact iff_of_false (fun same => by cases same) fun fault =>
      absurd fault.1 (Nat.not_lt_of_ge long)

private theorem textSource_undefined {name : EnvVar} {absent : Code Bool} (w : World) (u : Fault) :
    (readWide name >>= fun text => match text with
      | some text => pinFromText text (spendUnlessKept (clearVariable name))
      | none => absent).run w = .undefined u ↔
    TextFault (found w.process name) u ∨
      found w.process name = none ∧ absent.run w = .undefined u := by
  rw [bind_run, readWide_found, TextFault]
  rcases found w.process name with _ | _ | text
  · simp
  · simp [Outcome.andThen, eq_comm]
  · rw [Outcome.andThen_done, pinFromText_undefined (clearVariable_leaves name)]
    simp

private theorem pinFromSecret_defined (secret : NString) (w : World) (u : Fault) :
    (pinFromSecret secret).run w ≠ .undefined u := by
  cases read : readSecret secret with
  | ok key =>
    obtain ⟨w', run, -⟩ := pinFromSecret_run read w
    rw [run]
    intro same
    cases same
  | error e =>
    rw [pinFromSecret, read, bind_run]
    intro same
    cases same

private theorem pinFromCommandLine_defined (w : World) (u : Fault) :
    pinFromCommandLine.run w ≠ .undefined u := by
  rw [pinFromCommandLine, bind_run, readState_run, Outcome.andThen_done]
  cases argument : pinArgument w.process.commandLine with
  | none => exact nofun
  | some text =>
    have six := (pinArgument_digits argument).1
    obtain ⟨w', run, -⟩ := pinFromText_run (show 5 ≤ text.length by omega) pure_leaves w
    intro fault
    rw [show (pinFromText text (pure ())).run w = _ from run] at fault
    cases fault

private theorem secretSource_undefined (w : World) (u : Fault) :
    (readNarrowSecret >>= fun secret => match secret with
      | some secret => pinFromSecret secret
      | none => pinFromCommandLine).run w = .undefined u ↔
    foundSecret w.process = some none ∧ u = .unterminatedBuffer := by
  rw [bind_run, readNarrowSecret_found]
  rcases foundSecret w.process with _ | _ | secret
  · exact iff_of_false (pinFromCommandLine_defined w u) nofun
  · simp [Outcome.andThen, eq_comm]
  · exact iff_of_false (pinFromSecret_defined secret w u) nofun

private theorem getPin_undefined (w : World) (u : Fault) :
    getPin.run w = .undefined u ↔ w.globals.firstDigit = -1 ∧ PinFault w.process u := by
  rw [getPin, bind_run, readState_run, Outcome.andThen_done, ite_run, ite_run]
  split
  case isTrue none => exact iff_of_false nofun fun fault => by omega
  split
  case isTrue cached => exact iff_of_false nofun fun fault => cached fault.1
  case isFalse uncached =>
    have sources : readPin.run w = .undefined u ↔ PinFault w.process u :=
      (textSource_undefined w u).trans (or_congr_right (and_congr_right fun _ =>
        (textSource_undefined w u).trans (or_congr_right (and_congr_right fun _ =>
          secretSource_undefined w u))))
    rw [sources]
    exact (and_iff_right (not_not.mp uncached)).symm

private theorem updateVerifyMode_undefined (panelSrc : Address) (w : World) (u : Fault) :
    (enter (.updateVerifyMode panelSrc)).run w = .undefined u ↔
      FaultOf w (.call (.updateVerifyMode panelSrc)) u := by
  have finished (a : Address) (t : World) : (finishUpdate panelSrc a).run t ≠ .undefined u := by
    obtain ⟨t', run, -⟩ := finishUpdate_run panelSrc a t
    rw [run]
    exact nofun
  rw [enter, updateVerifyMode_run]
  split
  case isTrue full =>
    constructor
    · intro same
      cases same
      exact .overflow panelSrc full
    · intro fault
      cases fault with
      | overflow => rfl
      | pin _ _ room => exact absurd full room
  case isFalse room =>
    have counted (fault : FaultOf w (.call (.updateVerifyMode panelSrc)) u) :
        FirstRefresh w panelSrc ∧ w.globals.firstDigit = -1 ∧ PinFault w.process u := by
      cases fault with
      | overflow _ full => exact absurd full room
      | pin _ _ _ first uncached fault => exact ⟨first, uncached, fault⟩
    split
    case isFalse later => exact iff_of_false (finished _ _) fun fault => later (counted fault).1
    case isTrue first =>
      rw [Outcome.andThen_eq_undefined, getPin_undefined]
      constructor
      · rintro (⟨uncached, fault⟩ | ⟨available, t, -, fault⟩)
        · exact .pin panelSrc u room first uncached fault
        · cases available with
          | true => cases fault
          | false => exact (finished _ _ fault).elim
      · intro fault
        exact .inl (counted fault).2

/-- The code reads the variable: how it ends on each of the things that can be found. -/
private structure Reads (name : EnvVar) (code : Code Bool) : Prop where
  fault : ∀ w u, code.run w = .undefined u ↔
    found w.process name = some none ∧ u = .unterminatedBuffer
  taken : ∀ w, Passed w.process name → ∃ set t, code.run w = .done set t ∧ t.process = w.process
  passed : ∀ w set t, code.run w = .done set t → Passed w.process name ∧ t.process = w.process

private theorem reads_of_take {name : EnvVar} {code : Code Bool}
    (take : WString → Except StdException (World → World))
    (taken : ∀ s, (∃ store, take s = .ok store) ↔
      (name ∈ numberVariables → ∃ n, stoi s = .ok n))
    (kept : ∀ s store, take s = .ok store → ∀ w, (store w).process = w.process)
    (ends : ∀ w, code.run w = match found w.process name with
      | none => .done false w
      | some none => .undefined .unterminatedBuffer
      | some (some s) => match take s with
        | .ok store => .done true (store w)
        | .error e => .threw e w) : Reads name code := by
  have cases_of (w : World) :
      found w.process name = none ∧ code.run w = .done false w ∨
      found w.process name = some none ∧ code.run w = .undefined .unterminatedBuffer ∨
      ∃ s, found w.process name = some (some s) ∧
        ((∃ store, take s = .ok store ∧ code.run w = .done true (store w)) ∨
          ∃ e, take s = .error e ∧ code.run w = .threw e w) := by
    rw [ends]
    rcases found w.process name with _ | _ | s
    · exact .inl ⟨rfl, rfl⟩
    · exact .inr (.inl ⟨rfl, rfl⟩)
    · refine .inr (.inr ⟨s, rfl, ?_⟩)
      cases value : take s with
      | ok store => exact .inl ⟨store, rfl, by simp only [value]⟩
      | error e => exact .inr ⟨e, rfl, by simp only [value]⟩
  constructor
  · intro w u
    rcases cases_of w with ⟨read, run⟩ | ⟨read, run⟩ | ⟨s, read, ⟨store, -, run⟩ | ⟨e, -, run⟩⟩
    · rw [read, run]
      exact iff_of_false nofun nofun
    · rw [read, run]
      simp [eq_comm]
    · rw [read, run]
      exact iff_of_false nofun nofun
    · rw [read, run]
      exact iff_of_false nofun nofun
  · rintro w ⟨readable, number⟩
    rcases cases_of w with ⟨-, run⟩ | ⟨read, -⟩ | ⟨s, read, ⟨store, ok, run⟩ | ⟨e, refused, -⟩⟩
    · exact ⟨_, _, run, rfl⟩
    · exact absurd read readable
    · exact ⟨_, _, run, kept s store ok w⟩
    · obtain ⟨store, ok⟩ := (taken s).mpr fun member => number member s read
      rw [refused] at ok
      cases ok
  · intro w set t run
    rcases cases_of w with ⟨read, ended⟩ | ⟨-, ended⟩ | ⟨s, read, ⟨store, ok, ended⟩ | ⟨e, -, ended⟩⟩
    · rw [ended] at run
      cases run
      exact ⟨⟨by rw [read]; nofun, by rw [read]; nofun⟩, rfl⟩
    · rw [ended] at run
      cases run
    · rw [ended] at run
      cases run
      refine ⟨⟨by rw [read]; nofun, ?_⟩, kept s store ok w⟩
      intro member s' read'
      obtain rfl := Option.some.inj (Option.some.inj (read.symm.trans read'))
      exact (taken s).mp ⟨store, ok⟩ member
    · rw [ended] at run
      cases run

private theorem serverText_reads {name : EnvVar} (text : name ∉ numberVariables)
    (store : WString → LoginHelperData → LoginHelperData) : Reads name (serverText name store) := by
  apply reads_of_take fun s => .ok fun w => w.withGlobals { w.globals with
    lhdata := store s w.globals.lhdata }
  · exact fun s => iff_of_true ⟨_, rfl⟩ fun number => absurd number text
  · intro s after same w
    cases same
    rfl
  · intro w
    rw [serverText, bind_run, readWide_found]
    rcases found w.process name with _ | _ | s <;> rfl

private theorem serverNumber_reads {name : EnvVar} (number : name ∈ numberVariables)
    (store : UInt16 → LoginHelperData → LoginHelperData) :
    Reads name (serverNumber name store) := by
  apply reads_of_take fun s => (stoi s).map fun n w => w.withGlobals { w.globals with
    lhdata := store (UInt16.ofInt n) w.globals.lhdata }
  · intro s
    cases value : stoi s with
    | ok n => exact iff_of_true ⟨_, rfl⟩ fun _ => ⟨n, rfl⟩
    | error e =>
      refine iff_of_false nofun fun taken => ?_
      obtain ⟨n, ok⟩ := taken number
      cases ok
  · intro s after same w
    cases value : stoi s with
    | ok n =>
      rw [value] at same
      cases same
      rfl
    | error e =>
      rw [value] at same
      cases same
  · intro w
    rw [serverNumber, bind_run, readWide_found]
    rcases found w.process name with _ | _ | s
    · rfl
    · rfl
    · show (returnedOr (stoi s) >>= fun n => do
        setServer (store (UInt16.ofInt n))
        pure true : Code Bool).run w = _
      cases value : stoi s with
      | ok n =>
        simp only [value]
        rfl
      | error e =>
        simp only [value]
        rfl

private theorem Reads.then {name : EnvVar} {code : Code Bool} {α : Type} {rest : Bool → Code α}
    {later : List EnvVar} (reads : Reads name code)
    (next : ∀ set w u, (rest set).run w = .undefined u ↔
      ServerFault w.process later ∧ u = .unterminatedBuffer) (w : World) (u : Fault) :
    (code >>= rest).run w = .undefined u ↔
      ServerFault w.process (name :: later) ∧ u = .unterminatedBuffer := by
  rw [bind_run, Outcome.andThen_eq_undefined, reads.fault, ServerFault]
  constructor
  · rintro (⟨fault, rfl⟩ | ⟨set, t, run, behind⟩)
    · exact ⟨.inl fault, rfl⟩
    · obtain ⟨passed, same⟩ := reads.passed w set t run
      rw [next, same] at behind
      exact ⟨.inr ⟨passed, behind.1⟩, behind.2⟩
  · rintro ⟨fault | ⟨passed, behind⟩, rfl⟩
    · exact .inl ⟨fault, rfl⟩
    · obtain ⟨set, t, run, same⟩ := reads.taken w passed
      exact .inr ⟨set, t, run, (next set t _).mpr ⟨same.symm ▸ behind, rfl⟩⟩

private theorem getServer_undefined (w : World) (u : Fault) :
    getServer.run w = .undefined u ↔
      ServerFault w.process serverVariables ∧ u = .unterminatedBuffer := by
  have none (set : Bool) (w : World) (u : Fault) :
      (pure set : Code Bool).run w = .undefined u ↔
        ServerFault w.process [] ∧ u = .unterminatedBuffer :=
    iff_of_false nofun fun fault => fault.1
  refine Reads.then (serverText_reads (by decide) _) (fun a => ?_)
    (w.withGlobals { w.globals with lhdata := _ }) u
  refine Reads.then (serverNumber_reads (by decide) _) (fun b => ?_)
  refine Reads.then (serverNumber_reads (by decide) _) (fun c => ?_)
  refine Reads.then (serverText_reads (by decide) _) (fun d => ?_)
  refine Reads.then (serverText_reads (by decide) _) (fun e => ?_)
  exact Reads.then (serverNumber_reads (by decide) _) fun f => none _

private theorem requestLogin_undefined (args : LobbyLogin UInt16) (w : World) (u : Fault) :
    (enter (.requestLogin args)).run w = .undefined u ↔ FaultOf w (.call (.requestLogin args)) u := by
  have before : (enter (.requestLogin args)).run w = .undefined u ↔
      getServer.run (w.withGlobals { w.globals with firstrun := false }) = .undefined u := by
    rw [enter, hkLobbyRequestLogin, bind_run, assignGlobals_run, Outcome.andThen_done, bind_run,
      readState_run, Outcome.andThen_done, bind_run, Outcome.andThen_eq_undefined]
    refine or_iff_left ?_
    rintro ⟨any, t, -, fault⟩
    cases any with
    | true => cases fault
    | false => cases fault
  rw [before, getServer_undefined]
  constructor
  · rintro ⟨fault, rfl⟩
    exact .server args fault
  · intro fault
    cases fault with
    | server _ fault => exact ⟨fault, rfl⟩

private theorem noLogin_defined (w : World) (u : Fault) : noLogin.run w ≠ .undefined u := nofun

private theorem passwordFromVariable_undefined (w : World) (u : Fault) :
    passwordFromVariable.run w = .undefined u ↔
      found w.process .bnsProfilePassword = some none ∧ u = .unterminatedBuffer := by
  rw [passwordFromVariable, bind_run, readWide_found]
  rcases found w.process .bnsProfilePassword with _ | _ | text
  · exact iff_of_false (noLogin_defined w u) nofun
  · simp [Outcome.andThen, eq_comm]
  · exact iff_of_false nofun nofun

private theorem loginFromCommandLine_defined (w : World) (u : Fault) :
    loginFromCommandLine.run w ≠ .undefined u := by
  rw [loginFromCommandLine, bind_run, readState_run, Outcome.andThen_done]
  cases usernameArgument w.process.commandLine with
  | none => exact noLogin_defined w u
  | some account =>
    rw [bind_run]
    cases passwordArgument w.process.commandLine with
    | none => exact noLogin_defined _ u
    | some password => exact nofun

/-- The world in which `GetLogin` reads. -/
def begun (w : World) : World := w.withGlobals { w.globals with loggedin := 2 }

def named (w : World) (text : WString) : World :=
  (((begun w).withGlobals { (begun w).globals with mAccount := text }).withEnvironment
    (w.process.environment.clear .bnsProfileUsername))

theorem readLogin_found (w : World) : readLogin.run w =
    match found w.process .bnsProfileUsername with
    | none => loginFromCommandLine.run (begun w)
    | some none => .undefined .unterminatedBuffer
    | some (some text) => passwordFromVariable.run (named w text) := by
  have unread : readLogin.run w =
      ((readWide .bnsProfileUsername).run (begun w)).andThen fun text t =>
        (match text with
          | some mailchar => do
            setAccount mailchar
            clearVariable .bnsProfileUsername
            passwordFromVariable
          | none => loginFromCommandLine : Code Bool).run t := rfl
  have username : (readWide .bnsProfileUsername).run (begun w) =
      match found w.process .bnsProfileUsername with
      | none => .done none (begun w)
      | some none => .undefined .unterminatedBuffer
      | some (some text) => .done (some text) (begun w) := readWide_found _ (begun w)
  rw [unread, username]
  rcases found w.process .bnsProfileUsername with _ | _ | text <;> rfl

theorem found_named (w : World) (text : WString) :
    found (named w text).process .bnsProfilePassword = found w.process .bnsProfilePassword := by
  have different : EnvVar.bnsProfilePassword ≠ .bnsProfileUsername := by decide
  rw [found, named, withEnvironment_environment, Environment.value_clear, if_neg different]
  rfl

private theorem readLogin_undefined (w : World) (u : Fault) :
    readLogin.run w = .undefined u ↔ LoginFault w.process ∧ u = .unterminatedBuffer := by
  rw [readLogin_found, LoginFault]
  rcases found w.process .bnsProfileUsername with _ | _ | text
  · exact iff_of_false (loginFromCommandLine_defined (begun w) u) (by simp)
  · simp [eq_comm]
  · refine (passwordFromVariable_undefined (named w text) u).trans ?_
    rw [found_named]
    simp

private theorem fillLoginPanel_undefined (panelOffset value : Address) (w : World) (u : Fault) :
    (resume value (.instanceWanted panelOffset)).run w = .undefined u ↔
      FaultOf w (.back (.instanceWanted panelOffset) value) u := by
  let known := w.withGlobals { w.globals with uiEngineInterfaceInstance := value }
  have before : (resume value (.instanceWanted panelOffset)).run w = .undefined u ↔
      getLogin.run known = .undefined u := by
    rw [resume, fillLoginPanel, bind_run, assignGlobals_run, Outcome.andThen_done, bind_run,
      Outcome.andThen_eq_undefined]
    refine or_iff_left ?_
    rintro ⟨complete, t, -, fault⟩
    cases complete with
    | true => cases fault
    | false => cases fault
  rw [before, getLogin, bind_run, readState_run, Outcome.andThen_done, ite_run]
  split
  case isTrue read =>
    refine iff_of_false (fun same => by cases same) fun fault => ?_
    cases fault with
    | login _ _ unread => exact read unread
  case isFalse unread =>
    rw [readLogin_undefined]
    constructor
    · rintro ⟨fault, rfl⟩
      exact .login panelOffset value (not_not.mp unread) fault
    · intro fault
      cases fault with
      | login _ _ _ fault => exact ⟨fault, rfl⟩

theorem enter_undefined (call : GameCall) (w : World) (u : Fault) :
    (enter call).run w = .undefined u ↔ FaultOf w (.call call) u := by
  cases call with
  | updateVerifyMode panel => exact updateVerifyMode_undefined panel w u
  | requestLogin args => exact requestLogin_undefined args w u
  | processConfirmClick panel =>
    exact iff_of_false (fun same => by cases same) (fun fault => by cases fault)
  | openLoginPanel panel =>
    exact iff_of_false (fun same => by cases same) (fun fault => by cases fault)
  | processEvent panel event =>
    refine iff_of_false ?_ (fun fault => by cases fault)
    rw [enter, processEvent_run]
    intro same
    split at same
    · cases same
    · cases same

theorem resume_undefined (value : Address) (frame : Frame) (w : World) (u : Fault) :
    (resume value frame).run w = .undefined u ↔ FaultOf w (.back frame value) u := by
  cases frame with
  | instanceWanted panelOffset => exact fillLoginPanel_undefined panelOffset value w u
  | autoConfirm panelSrc panelOffset =>
    obtain ⟨t, run, -⟩ := finishUpdate_run panelSrc panelOffset w
    rw [resume, run]
    exact iff_of_false nofun nofun
  | finishing => exact iff_of_false nofun nofun
  | eventLogin panel event => exact iff_of_false nofun nofun
  | loginPanelOpened panelOffset => exact iff_of_false nofun nofun
  | userIdSet panelOffset => exact iff_of_false nofun nofun

/-- The stretch goes undefined in just the ways that its cause and the world before it allow. -/
def FaultsExactly (e : Entry) : Prop :=
  ∀ cause before ending, e = .stretch cause before ending →
    ∀ u, ending = .undefined u ↔ FaultOf before cause u

private theorem starts_exact {c : Config} {action : Action} {cause : Cause} {stack : List Frame}
    {code : Code Exit} (starts : Starts c action cause stack code) :
    FaultsExactly (.stretch cause c.world (code.run c.world)) := by
  intro cause' before ending entry u
  obtain ⟨rfl, rfl, run⟩ := Entry.stretch.inj entry
  rw [← run]
  cases starts with
  | call call running hooked => exact enter_undefined call c.world u
  | back frame stack value running waiting => exact resume_undefined value frame c.world u

private theorem step_exact (c : Config) (action : Action) (inv : ∀ e ∈ c.trace, FaultsExactly e) :
    ∀ e ∈ (step c action).trace, FaultsExactly e := by
  rcases step_cases c action with
    ⟨cause, stack, code, starts, stepped⟩ | ⟨call, -, -, stepped⟩ | idle
  · rw [stepped, perform_trace]
    exact List.forall_mem_cons.mpr ⟨starts_exact starts, inv⟩
  · have unseen : FaultsExactly (.unhooked call) := by
      intro cause before ending entry
      cases entry
    rw [stepped]
    exact List.forall_mem_cons.mpr ⟨unseen, inv⟩
  · rw [idle.trace]
    exact inv

def full : World :=
  let w := hooked Process.bare
  w.withGlobals { w.globals with pincount := 2 ^ 31 - 1 }

end LoginHelper.Faults
