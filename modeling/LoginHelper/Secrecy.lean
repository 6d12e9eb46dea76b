/- Unit: LoginHelper/Secrecy
   source: the hooks of src/loginhelper/LoginOtp.h and src/loginhelper/Lobby.h under any game
   digest: Login and PIN make no difference to a run but in the two texts filled in and the digits typed. -/

import LoginHelper.Faults
import LoginHelper.Foundation.SideBySide

set_option autoImplicit false
set_option relaxedAutoImplicit false

namespace LoginHelper.Secrecy

open LoginHelper.Foundation LoginHelper.Foundation.Execution
open LoginHelper.Foundation.Runs LoginHelper.Foundation.SideBySide
open LoginHelper.Foundation.HashStandard (codeDigit)
open LoginHelper.Windows.ProcessEnvironment
open LoginHelper.Windows.Runtime (StdException isDigit formatInt sprintfS)
open LoginHelper.CommandLine (pinArgument pinArgument_digits usernameArgument passwordArgument)
open LoginHelper.CppTotp.Otp (totp totp_eq hmacSha1_64 readSecret)
open LoginHelper.Data LoginHelper.Calls LoginHelper.LoginOtp LoginHelper.Lobby LoginHelper.Hooks
open LoginHelper.Machine
open LoginHelper.Faults

/-- Neither of the first digits is one of the two marks unless the other is the same. -/
structure FirstAlike (d d' : Int) : Prop where
  unread : d = -1 ↔ d' = -1
  none : d = -2 ↔ d' = -2

/-- Texts that are too short for a PIN alike, and mark it alike as unread or none. -/
structure PinTextAlike (text text' : WString) : Prop where
  short : text.length < 5 ↔ text'.length < 5
  first : FirstAlike (textDigits text 0) (textDigits text' 0)

/-- What the texts of a variable have in common: nothing for a login, the shape for a PIN. -/
def TextAlike : EnvVar → WString → WString → Prop
  | .bnsProfileUsername, _, _ => True
  | .bnsProfilePassword, _, _ => True
  | .bnsPincode, text, text' => PinTextAlike text text'
  | .bnsProfilePin, text, text' => PinTextAlike text text'
  | _, text, text' => text = text'

def SecretAlike (secret secret' : NString) : Prop :=
  ∀ e, readSecret secret = .error e ↔ readSecret secret' = .error e

abbrev FoundBy {α : Type} (R : α → α → Prop) : Option (Option α) → Option (Option α) → Prop :=
  Option.Rel (Option.Rel R)

/-- Processes that the plugin reads alike, whatever the clock. -/
structure ProcessAlike (p p' : Process) : Prop where
  reads : ∀ name, FoundBy (TextAlike name) (found p name) (found p' name)
  secret : FoundBy SecretAlike (foundSecret p) (foundSecret p')
  usernameOption :
    (usernameArgument p.commandLine).isSome = (usernameArgument p'.commandLine).isSome
  passwordOption :
    (passwordArgument p.commandLine).isSome = (passwordArgument p'.commandLine).isSome
  pinOption : (pinArgument p.commandLine).isSome = (pinArgument p'.commandLine).isSome

def typed (inputs : Address → Fin 8 → OtpInput) (panels : Panels) : Panels :=
  { panels with otp := fun a => { panels.otp a with otpInputList := inputs a } }

def PanelsAlike (panels panels' : Panels) : Prop := ∃ inputs, panels' = typed inputs panels

/-- What the globals keep of login and PIN. -/
structure Stored where
  account : WString
  password : WString
  pincode : Fin 6 → Int
  pintext : WString

def Stored.into (s : Stored) (g : Globals) : Globals :=
  { g with
    mAccount := s.account
    mPassword := s.password
    pincode := s.pincode
    pintext := s.pintext }

def GlobalsAlike (g g' : Globals) : Prop :=
  ∃ s : Stored, FirstAlike g.firstDigit (s.into g).firstDigit ∧ g' = s.into g

/-- The worlds are the same up to login, PIN and clock. -/
structure WorldAlike (w w' : World) : Prop where
  processes : ProcessAlike w.process w'.process
  panels : PanelsAlike w.panels w'.panels
  globals : GlobalsAlike w.globals w'.globals

/-- A world with other secrets in it. -/
private def other (p : Process) (inputs : Address → Fin 8 → OtpInput) (s : Stored) (w : World) :
    World :=
  ⟨p, typed inputs w.panels, s.into w.globals⟩

private theorem WorldAlike.other {w w' : World} (alike : WorldAlike w w') :
    ∃ p inputs s, ProcessAlike w.process p ∧ FirstAlike w.globals.firstDigit (s.into w.globals).firstDigit ∧
      w' = other p inputs s w := by
  obtain ⟨process', panels', globals'⟩ := w'
  obtain ⟨processes, ⟨inputs, rfl⟩, s, first, rfl⟩ := alike
  exact ⟨process', inputs, s, processes, first, rfl⟩

inductive ExitAlike : Exit → Exit → Prop
  | same (exit : Exit) : ExitAlike exit exit
  | filled (interface slot : Address) (editBox : UInt32) (text text' : WString) (rest : Frame) :
      ExitAlike (.calls (.setTextValue interface slot editBox text) rest)
        (.calls (.setTextValue interface slot editBox text') rest)

abbrev Blind {α : Type} (V : α → α → Prop) (code : Code α) : Prop := Both WorldAlike V code code

private theorem both_look {α : Type} {V : α → α → Prop} {f f' : World → Code α}
    (next : ∀ w p inputs s, ProcessAlike w.process p →
      FirstAlike w.globals.firstDigit (s.into w.globals).firstDigit →
      Both WorldAlike V (f w) (f' (other p inputs s w))) :
    Both WorldAlike V (readState >>= f) (readState >>= f') := by
  apply both_readState
  intro w w' alike
  obtain ⟨p, inputs, s, processes, first, rfl⟩ := alike.other
  exact next w p inputs s processes first w _ alike

private theorem blind_look {α : Type} {V : α → α → Prop} {f : World → Code α}
    (same : ∀ w p inputs s, f (other p inputs s w) = f w)
    (each : ∀ w, Blind V (f w)) : Blind V (readState >>= f) := by
  apply both_look
  intro w p inputs s _ _
  rw [same]
  exact each w

private theorem both_assign {f f' : Globals → Globals}
    (kept : ∀ (g : Globals) (s : Stored), FirstAlike g.firstDigit (s.into g).firstDigit →
      GlobalsAlike (f g) (f' (s.into g))) :
    Both WorldAlike Eq (assignGlobals f) (assignGlobals f') := by
  apply both_modifyState
  intro w w' alike
  obtain ⟨s, first, globals⟩ := alike.globals
  refine ⟨alike.processes, alike.panels, ?_⟩
  show GlobalsAlike (f w.globals) (f' w'.globals)
  rw [globals]
  exact kept w.globals s first

private theorem blind_assign {f : Globals → Globals}
    (same : ∀ (g : Globals) (s : Stored), f (s.into g) = s.into (f g))
    (unmarked : ∀ g : Globals, (f g).firstDigit = g.firstDigit) : Blind Eq (assignGlobals f) := by
  apply both_assign
  intro g s first
  exact ⟨s, by rw [unmarked]; exact first, same g s⟩

private theorem both_writePanel (panelOffset : Address) {f f' : LoginOtpPanel → LoginOtpPanel}
    (kept : ∀ (panel : LoginOtpPanel) (inputs : Fin 8 → OtpInput), ∃ inputs',
      f' { panel with otpInputList := inputs } = { f panel with otpInputList := inputs' }) :
    Both WorldAlike Eq (writePanel panelOffset f) (writePanel panelOffset f') := by
  apply both_modifyState
  intro w w' alike
  obtain ⟨p, inputs, s, processes, first, rfl⟩ := alike.other
  obtain ⟨inputs', written⟩ := kept (w.panels.otp panelOffset) (inputs panelOffset)
  refine ⟨processes, ⟨Function.update inputs panelOffset inputs', ?_⟩, s, first, rfl⟩
  have panels : Function.update (typed inputs w.panels).otp panelOffset
      (f' ((typed inputs w.panels).otp panelOffset)) =
      (typed (Function.update inputs panelOffset inputs')
        (w.withOtpPanel panelOffset (f (w.panels.otp panelOffset))).panels).otp := by
    funext a
    by_cases here : a = panelOffset
    · subst here
      simp only [typed, World.withOtpPanel, Function.update_self]
      exact written
    · simp only [typed, World.withOtpPanel, Function.update_of_ne here]
  exact congrArg (fun otp => Panels.mk otp w.panels.titleLogin) panels

private theorem alike_cleared {p p' : Process} (alike : ProcessAlike p p') (name : EnvVar) :
    ProcessAlike { p with environment := p.environment.clear name }
      { p' with environment := p'.environment.clear name } where
  reads name' := by
    show FoundBy (TextAlike name')
      (readVariable ((p.environment.clear name).value name') (p.staleWide name') 256)
      (readVariable ((p'.environment.clear name).value name') (p'.staleWide name') 256)
    rw [Environment.value_clear, Environment.value_clear]
    split
    · rw [readVariable_nil, readVariable_nil]
      exact .none
    · exact alike.reads name'
  secret := alike.secret
  usernameOption := alike.usernameOption
  passwordOption := alike.passwordOption
  pinOption := alike.pinOption

private theorem blind_clear (name : EnvVar) : Blind Eq (clearVariable name) := by
  apply both_modifyState
  intro w w' alike
  exact ⟨alike_cleared alike.processes name, alike.panels, alike.globals⟩

private theorem blind_clearSecret : Blind Eq clearSecret := by
  apply both_modifyState
  intro w w' alike
  have read := alike.processes
  refine ⟨⟨read.reads, ?_, read.usernameOption, read.passwordOption, read.pinOption⟩,
    alike.panels, alike.globals⟩
  show FoundBy SecretAlike (readVariable [] w.process.staleNarrow 2048)
    (readVariable [] w'.process.staleNarrow 2048)
  rw [readVariable_nil, readVariable_nil]
  exact .none

private theorem blind_readWide (name : EnvVar) :
    Blind (Option.Rel (TextAlike name)) (readWide name) := by
  intro w w' alike
  have read := alike.processes.reads name
  rw [readWide_found, readWide_found]
  revert read
  generalize found w.process name = x
  generalize found w'.process name = x'
  intro read
  cases read with
  | none => exact .done .none alike
  | some texts =>
    cases texts with
    | none => exact .undefined _
    | some texts => exact .done (.some texts) alike

private theorem blind_readNarrowSecret : Blind (Option.Rel SecretAlike) readNarrowSecret := by
  intro w w' alike
  have read := alike.processes.secret
  rw [readNarrowSecret_found, readNarrowSecret_found]
  revert read
  generalize foundSecret w.process = x
  generalize foundSecret w'.process = x'
  intro read
  cases read with
  | none => exact .done .none alike
  | some secrets =>
    cases secrets with
    | none => exact .undefined _
    | some secrets => exact .done (.some secrets) alike

private theorem both_setAccount (text text' : WString) :
    Both WorldAlike Eq (setAccount text) (setAccount text') :=
  both_assign fun _ s first => ⟨{ s with account := text' }, first, rfl⟩

private theorem both_setPassword (text text' : WString) :
    Both WorldAlike Eq (setPassword text) (setPassword text') :=
  both_assign fun _ s first => ⟨{ s with password := text' }, first, rfl⟩

private theorem blind_setLoggedin (n : Int) : Blind Eq (setLoggedin n) :=
  blind_assign (fun _ _ => rfl) fun _ => rfl

private theorem blind_noLogin : Blind Eq noLogin :=
  both_bind (blind_setLoggedin (-1)) fun _ _ _ => both_pure rfl

private theorem blind_passwordFromVariable : Blind Eq passwordFromVariable := by
  apply both_bind (blind_readWide .bnsProfilePassword)
  intro text text' found
  cases found with
  | none => exact blind_noLogin
  | @some text text' _ =>
    apply both_bind (both_setPassword text text')
    intro _ _ _
    exact both_bind (blind_clear _) fun _ _ _ => both_pure rfl

private theorem blind_loginFromCommandLine : Blind Eq loginFromCommandLine := by
  apply both_look
  intro w p inputs s processes _
  have user : (usernameArgument w.process.commandLine).isSome =
      (usernameArgument (other p inputs s w).process.commandLine).isSome := processes.usernameOption
  have pass : (passwordArgument w.process.commandLine).isSome =
      (passwordArgument (other p inputs s w).process.commandLine).isSome := processes.passwordOption
  generalize usernameArgument w.process.commandLine = text at user ⊢
  generalize usernameArgument (other p inputs s w).process.commandLine = text' at user ⊢
  generalize passwordArgument w.process.commandLine = second at pass ⊢
  generalize passwordArgument (other p inputs s w).process.commandLine = second' at pass ⊢
  cases text with
  | none =>
    cases text' with
    | none => exact blind_noLogin
    | some text' => cases user
  | some text =>
    cases text' with
    | none => cases user
    | some text' =>
      apply both_bind (both_setAccount text text')
      intro _ _ _
      cases second with
      | none =>
        cases second' with
        | none => exact blind_noLogin
        | some second' => cases pass
      | some second =>
        cases second' with
        | none => cases pass
        | some second' =>
          exact both_bind (both_setPassword second second') fun _ _ _ => both_pure rfl

private theorem blind_readLogin : Blind Eq readLogin := by
  apply both_bind (blind_setLoggedin 2)
  intro _ _ _
  apply both_bind (blind_readWide .bnsProfileUsername)
  intro text text' found
  cases found with
  | none => exact blind_loginFromCommandLine
  | @some text text' _ =>
    apply both_bind (both_setAccount text text')
    intro _ _ _
    exact both_bind (blind_clear _) fun _ _ _ => blind_passwordFromVariable

private theorem blind_getLogin : Blind Eq getLogin :=
  blind_look (fun _ _ _ _ => rfl) fun _ => both_ite _ (both_pure rfl) blind_readLogin

private theorem blind_setServer (f : LoginHelperData → LoginHelperData) : Blind Eq (setServer f) :=
  blind_assign (fun _ _ => rfl) fun _ => rfl

def secretVariables : List EnvVar :=
  [.bnsProfileUsername, .bnsProfilePassword, .bnsPincode, .bnsProfilePin]

private theorem ordinary_alike {name : EnvVar} (ordinary : name ∉ secretVariables)
    {text text' : WString} (alike : TextAlike name text text') : text = text' := by
  cases name with
  | bnsProfileUsername => exact absurd (by decide) ordinary
  | bnsProfilePassword => exact absurd (by decide) ordinary
  | bnsPincode => exact absurd (by decide) ordinary
  | bnsProfilePin => exact absurd (by decide) ordinary
  | _ => exact alike

private theorem blind_serverText {name : EnvVar} (ordinary : name ∉ secretVariables)
    (store : WString → LoginHelperData → LoginHelperData) : Blind Eq (serverText name store) := by
  apply both_bind (blind_readWide name)
  intro text text' found
  cases found with
  | none => exact both_pure rfl
  | some texts =>
    obtain rfl := ordinary_alike ordinary texts
    exact both_bind (blind_setServer _) fun _ _ _ => both_pure rfl

private theorem blind_serverNumber {name : EnvVar} (ordinary : name ∉ secretVariables)
    (store : UInt16 → LoginHelperData → LoginHelperData) :
    Blind Eq (serverNumber name store) := by
  apply both_bind (blind_readWide name)
  intro text text' found
  cases found with
  | none => exact both_pure rfl
  | some texts =>
    obtain rfl := ordinary_alike ordinary texts
    apply both_bind (both_returnedOr _)
    rintro n _ rfl
    exact both_bind (blind_setServer _) fun _ _ _ => both_pure rfl

private theorem blind_getServer : Blind Eq getServer := by
  apply both_bind (blind_setServer _)
  rintro _ _ -
  apply both_bind (blind_serverText (show .bnsServerNpAddress ∉ secretVariables by decide) _)
  rintro a _ rfl
  apply both_bind (blind_serverNumber (show .bnsServerNpPort ∉ secretVariables by decide) _)
  rintro b _ rfl
  apply both_bind (blind_serverNumber (show .bnsServerNpProgramId ∉ secretVariables by decide) _)
  rintro c _ rfl
  apply both_bind (blind_serverText (show .bnsServerNpGameCode ∉ secretVariables by decide) _)
  rintro d _ rfl
  apply both_bind (blind_serverText (show .bnsServerLobbyAddress ∉ secretVariables by decide) _)
  rintro e _ rfl
  apply both_bind (blind_serverNumber (show .bnsServerLobbyPort ∉ secretVariables by decide) _)
  rintro f _ rfl
  exact both_pure rfl

private theorem blind_spend {spend : Code Unit} (blind : Blind Eq spend) :
    Blind Eq (spendUnlessKept spend) :=
  blind_look (fun _ _ _ _ => rfl) fun _ => both_ite _ (both_pure rfl) blind

private theorem other_withPincode {w : World} {p : Process} (processes : ProcessAlike w.process p)
    (inputs : Address → Fin 8 → OtpInput) (s : Stored) {pincode pincode' : Fin 6 → Int}
    (first : FirstAlike (pincode 0) (pincode' 0)) :
    WorldAlike (withPincode w pincode) (withPincode (other p inputs s w) pincode') :=
  ⟨processes, ⟨inputs, rfl⟩, { s with pincode := pincode' }, first, rfl⟩

private theorem pinFromText_long {text : WString} (long : 5 ≤ text.length) (spend : Code Unit)
    (w : World) : (pinFromText text spend).run w =
      (spend.run (withPincode (w.withGlobals { w.globals with pintext := text })
        (textDigits text))).andThen fun _ t => .done true t := by
  rw [pinFromText, bind_run, assignGlobals_run, Outcome.andThen_done, bind_run,
    loadPintext_run _ long, Outcome.andThen_done, bind_run]
  rfl

private theorem both_pinFromText {text text' : WString} (alike : PinTextAlike text text')
    {spend : Code Unit} (leaves : LeavesGlobals spend) (blind : Blind Eq spend) :
    Both WorldAlike Eq (pinFromText text spend) (pinFromText text' spend) := by
  intro w w' worlds
  rcases Nat.lt_or_ge text.length 5 with short | long
  · have fault := (pinFromText_undefined leaves text w _).mpr ⟨short, rfl⟩
    have fault' := (pinFromText_undefined leaves text' w' _).mpr ⟨alike.short.mp short, rfl⟩
    rw [fault, fault']
    exact .undefined _
  · have long' : 5 ≤ text'.length := by
      have short := alike.short
      omega
    obtain ⟨p, inputs, s, processes, -, rfl⟩ := worlds.other
    rw [pinFromText_long long, pinFromText_long long']
    have loaded : WorldAlike
        (withPincode (w.withGlobals { w.globals with pintext := text }) (textDigits text))
        (withPincode ((other p inputs s w).withGlobals
          { (other p inputs s w).globals with pintext := text' }) (textDigits text')) :=
      other_withPincode (w := w.withGlobals { w.globals with pintext := text }) processes inputs
        { s with pintext := text' } alike.first
    exact (blind _ _ loaded).andThen fun _ _ _ _ _ worlds => .done rfl worlds

/-- A buffer that six digits can be loaded from. -/
private structure Printed (buffer : NString) : Prop where
  length : 6 ≤ buffer.length
  first : 48 ≤ (buffer.getD 0 0).toNat

private theorem printed_alike {buffer buffer' : NString} (printed : Printed buffer)
    (printed' : Printed buffer') :
    FirstAlike (((buffer.getD 0 0).toNat : Int) - 48) (((buffer'.getD 0 0).toNat : Int) - 48) := by
  have first := printed.first
  have first' := printed'.first
  constructor
  · omega
  · omega

private theorem both_loadBuffer {buffer buffer' : NString} (printed : Printed buffer)
    (printed' : Printed buffer') :
    Both WorldAlike Eq (loadBuffer buffer) (loadBuffer buffer') := by
  intro w w' worlds
  obtain ⟨p, inputs, s, processes, -, rfl⟩ := worlds.other
  rw [loadBuffer_run buffer w printed.length, loadBuffer_run buffer' _ printed'.length]
  exact .done rfl (other_withPincode processes inputs s (printed_alike printed printed'))

private theorem code_printed (key : CppTotp.Bytes.ByteString) (time : BitVec 64) :
    ∃ p buffer, totp key time 0 30 6 hmacSha1_64 = some p ∧
      sprintfS 7 (formatInt 6 p.toInt) = some buffer ∧ Printed buffer := by
  have small := HashStandard.totp_lt key time.toNat 30 6
  have code : totp key time 0 30 6 hmacSha1_64 =
      some (BitVec.ofNat 32 (HashStandard.totp key time.toNat 30 6)) :=
    totp_eq key time 30 (by decide) (by decide)
  generalize HashStandard.totp key time.toNat 30 6 = c at small code
  have exact : (BitVec.ofNat 32 c).toNat = c := by rw [BitVec.toNat_ofNat]; omega
  have text := formatInt_code (p := BitVec.ofNat 32 c) (by rw [exact]; exact small)
  rw [exact] at text
  refine ⟨_, (List.range 6).map (fun i => UInt8.ofNat (48 + codeDigit 6 c i)) ++ [0], code, ?_, ?_⟩
  · rw [text, sprintfS, if_pos (by simp)]
  · have digit : codeDigit 6 c 0 < 10 := Nat.mod_lt _ (by decide)
    refine ⟨by simp, ?_⟩
    simp only [List.range_succ_eq_map, List.map_cons, List.cons_append, List.getD_cons_zero,
      UInt8.toNat_ofNat']
    omega

private theorem both_pinFromSecret {secret secret' : NString} (alike : SecretAlike secret secret') :
    Both WorldAlike Eq (pinFromSecret secret) (pinFromSecret secret') := by
  have decoded : Both WorldAlike (fun _ _ => True) (returnedOr (readSecret secret) : Code _)
      (returnedOr (readSecret secret')) := by
    cases read : readSecret secret with
    | error e =>
      rw [(alike e).mp read]
      exact fun _ _ worlds => .threw e worlds
    | ok key =>
      cases read' : readSecret secret' with
      | error e =>
        rw [(alike e).mpr read'] at read
        cases read
      | ok key' => exact both_pure trivial
  apply both_bind decoded
  intro key key' _
  apply both_look
  intro w p inputs s _ _
  obtain ⟨c, buffer, code, text, printed⟩ := code_printed key w.process.time
  obtain ⟨c', buffer', code', text', printed'⟩ :=
    code_printed key' (other p inputs s w).process.time
  rw [code, code', definedOr_some, definedOr_some]
  apply both_bind (both_pure (V := fun x x' => x = c ∧ x' = c') ⟨rfl, rfl⟩)
  rintro _ _ ⟨rfl, rfl⟩
  rw [text, text', definedOr_some, definedOr_some]
  apply both_bind (both_pure (V := fun x x' => x = buffer ∧ x' = buffer') ⟨rfl, rfl⟩)
  rintro _ _ ⟨rfl, rfl⟩
  apply both_bind (both_loadBuffer printed printed')
  intro _ _ _
  exact both_bind (blind_spend blind_clearSecret) fun _ _ _ => both_pure rfl

private theorem pinArgument_alike {args args' text text' : WString}
    (found : pinArgument args = some text) (found' : pinArgument args' = some text') :
    PinTextAlike text text' := by
  have digit {args text : WString} (found : pinArgument args = some text) :
      text.length = 6 ∧ 0 ≤ textDigits text 0 := by
    obtain ⟨length, digits⟩ := pinArgument_digits found
    refine ⟨length, ?_⟩
    obtain ⟨c, rest, rfl⟩ := List.exists_cons_of_length_pos (show 0 < text.length by omega)
    have range : 48 ≤ c.toNat := by
      have digit := digits c List.mem_cons_self
      simp only [isDigit, Bool.and_eq_true, decide_eq_true_eq, UInt16.le_iff_toNat_le] at digit
      exact digit.1
    show (0 : Int) ≤ (c.toNat : Int) - 48
    omega
  obtain ⟨length, first⟩ := digit found
  obtain ⟨length', first'⟩ := digit found'
  exact ⟨by omega, ⟨by omega, by omega⟩⟩

private theorem blind_pinFromCommandLine : Blind Eq pinFromCommandLine := by
  apply both_look
  intro w p inputs s processes _
  have same : (pinArgument w.process.commandLine).isSome =
      (pinArgument (other p inputs s w).process.commandLine).isSome := processes.pinOption
  cases found : pinArgument w.process.commandLine with
  | none =>
    cases found' : pinArgument (other p inputs s w).process.commandLine with
    | none => exact both_pure rfl
    | some text' =>
      rw [found, found'] at same
      cases same
  | some text =>
    cases found' : pinArgument (other p inputs s w).process.commandLine with
    | none =>
      rw [found, found'] at same
      cases same
    | some text' =>
      exact both_pinFromText (pinArgument_alike found found') pure_leaves (both_pure rfl)

private theorem blind_readPin : Blind Eq readPin := by
  apply both_bind (blind_readWide .bnsPincode)
  intro text text' found
  cases found with
  | some texts =>
    exact both_pinFromText texts (clearVariable_leaves _) (blind_spend (blind_clear _))
  | none =>
    apply both_bind (blind_readWide .bnsProfilePin)
    intro text text' found
    cases found with
    | some texts =>
      exact both_pinFromText texts (clearVariable_leaves _) (blind_spend (blind_clear _))
    | none =>
      apply both_bind blind_readNarrowSecret
      intro secret secret' found
      cases found with
      | some secrets => exact both_pinFromSecret secrets
      | none => exact blind_pinFromCommandLine

private theorem blind_getPin : Blind Eq getPin := by
  apply both_look
  intro w p inputs s _ first
  have unread : (other p inputs s w).globals.firstDigit = -1 ↔ w.globals.firstDigit = -1 :=
    first.unread.symm
  have none : (other p inputs s w).globals.firstDigit = -2 ↔ w.globals.firstDigit = -2 :=
    first.none.symm
  simp only [ne_eq, unread, none]
  exact both_ite _ (both_pure rfl) (both_ite _ (both_pure rfl) blind_readPin)

private theorem blind_exit (exit : Exit) : Blind ExitAlike (pure exit) :=
  both_pure (.same exit)

private theorem blind_incrementPincount : Blind Eq incrementPincount :=
  blind_look (fun _ _ _ _ => rfl) fun _ => both_ite _ (both_goUndefined _)
    (blind_assign (fun _ _ => rfl) fun _ => rfl)

private theorem blind_finishUpdate (panelSrc panelOffset : Address) :
    Blind ExitAlike (finishUpdate panelSrc panelOffset) :=
  blind_look (fun _ _ _ _ => rfl) fun _ => both_ite _
    (both_bind (both_writePanel panelOffset fun _ inputs => ⟨inputs, rfl⟩) fun _ _ _ =>
      blind_exit _) (blind_exit _)

private theorem blind_processConfirmClick (panel : Address) (rest : Frame) :
    Blind ExitAlike (hkLoginOtpPanelProcessConfirmClick panel rest) :=
  both_bind (blind_assign (fun _ _ => rfl) fun _ => rfl) fun _ _ _ => blind_exit _

private theorem both_enterPin (panelSrc panelOffset : Address) :
    Blind ExitAlike (readState >>= fun w =>
      writePanel panelOffset (enterPin w.globals.pincode) >>= fun _ =>
        hkLoginOtpPanelProcessConfirmClick panelSrc (.autoConfirm panelSrc panelOffset)) := by
  apply both_look
  intro w p inputs s _ _
  have written : Both WorldAlike Eq (writePanel panelOffset (enterPin w.globals.pincode))
      (writePanel panelOffset (enterPin s.pincode)) :=
    both_writePanel panelOffset fun _ _ => ⟨_, rfl⟩
  exact both_bind written fun _ _ _ => blind_processConfirmClick _ _

private theorem blind_updateVerifyMode (panelSrc : Address) :
    Blind ExitAlike (hkLoginOtpPanelUpdateVerifyMode panelSrc) := by
  refine blind_look (fun _ _ _ _ => rfl) fun w => ?_
  apply both_bind (both_writePanel _ fun _ inputs => ⟨inputs, rfl⟩)
  intro _ _ _
  apply both_bind blind_incrementPincount
  intro _ _ _
  refine blind_look (fun _ _ _ _ => rfl) fun t => both_ite _ ?_ (blind_finishUpdate _ _)
  apply both_bind blind_getPin
  rintro available _ rfl
  exact both_ite _ (both_enterPin _ _) (blind_finishUpdate _ _)

private theorem blind_processEvent (thisptr event : Address) :
    Blind ExitAlike (hkTitleLoginPanelProcessEvent thisptr event) :=
  blind_look (fun _ _ _ _ => rfl) fun _ => both_ite _
    (both_bind (blind_assign (fun _ _ => rfl) fun _ => rfl) fun _ _ _ => blind_exit _)
    (blind_exit _)

private theorem blind_requestLogin (args : LobbyLogin UInt16) :
    Blind ExitAlike (hkLobbyRequestLogin args) := by
  refine both_bind (blind_assign (fun _ _ => rfl) fun _ => rfl) fun _ _ _ => ?_
  refine blind_look (fun _ _ _ _ => rfl) fun w => ?_
  apply both_bind blind_getServer
  rintro any _ rfl
  exact both_ite _ (blind_look (fun _ _ _ _ => rfl) fun _ => blind_exit _) (blind_exit _)

private theorem blind_fillLoginPanel (panelOffset interface : Address) :
    Blind ExitAlike (fillLoginPanel panelOffset interface) := by
  refine both_bind (blind_assign (fun _ _ => rfl) fun _ => rfl) fun _ _ _ => ?_
  apply both_bind blind_getLogin
  rintro found _ rfl
  refine both_ite _ (both_look ?_) (blind_exit _)
  intro w p inputs s _ _
  exact both_pure (.filled _ _ _ _ _ _)

private theorem blind_fillPassword (panelOffset : Address) :
    Blind ExitAlike (fillPassword panelOffset) := by
  apply both_look
  intro w p inputs s _ _
  exact both_pure (.filled _ _ _ _ _ _)

private theorem blind_enter (call : GameCall) : Blind ExitAlike (enter call) := by
  cases call with
  | updateVerifyMode panel => exact blind_updateVerifyMode panel
  | processConfirmClick panel => exact blind_processConfirmClick panel _
  | processEvent panel event => exact blind_processEvent panel event
  | openLoginPanel panel => exact blind_look (fun _ _ _ _ => rfl) fun _ => blind_exit _
  | requestLogin args => exact blind_requestLogin args

private theorem blind_resume (value : Address) (frame : Frame) :
    Blind ExitAlike (resume value frame) := by
  cases frame with
  | finishing => exact blind_exit _
  | autoConfirm panelSrc panelOffset => exact blind_finishUpdate panelSrc panelOffset
  | eventLogin panel event => exact blind_exit _
  | loginPanelOpened panelOffset => exact blind_exit _
  | instanceWanted panelOffset => exact blind_fillLoginPanel panelOffset value
  | userIdSet panelOffset => exact blind_fillPassword panelOffset

/-- The game does the same, up to the secrets in the process and the panels that it leaves
behind. -/
inductive ActionAlike : Action → Action → Prop
  | changes {process process' : Process} {panels panels' : Panels}
      (processes : ProcessAlike process process') (typed : PanelsAlike panels panels') :
      ActionAlike (.changes process panels) (.changes process' panels')
  | calls (call : GameCall) : ActionAlike (.calls call) (.calls call)
  | returns (value : Address) : ActionAlike (.returns value) (.returns value)
  | throws : ActionAlike .throws .throws

inductive EntryAlike : Entry → Entry → Prop
  | stretch (cause : Cause) {before before' : World} {ending ending' : Ending Exit}
      (worlds : WorldAlike before before')
      (endings : SameEnding ExitAlike WorldAlike ending ending') :
      EntryAlike (.stretch cause before ending) (.stretch cause before' ending')
  | unhooked (call : GameCall) : EntryAlike (.unhooked call) (.unhooked call)

structure ConfigAlike (c c' : Config) : Prop where
  world : WorldAlike c.world c'.world
  stack : c'.stack = c.stack
  stopped : c'.stopped = c.stopped
  trace : List.Forall₂ EntryAlike c.trace c'.trace

private theorem callsNull_alike {w w' : World} (worlds : WorldAlike w w') (out out' : PluginCall)
    (pointer : out'.original = out.original) (object : out'.interface = out.interface) :
    decide (CallsNull w'.globals out') = decide (CallsNull w.globals out) := by
  obtain ⟨p, inputs, s, -, -, rfl⟩ := worlds.other
  rw [decide_eq_decide, CallsNull, CallsNull, pointer, object]
  rfl

private theorem perform_alike {c c' : Config} (alike : ConfigAlike c c') (cause : Cause)
    (stack : List Frame) {code : Code Exit} (blind : Blind ExitAlike code) :
    ConfigAlike (c.perform cause stack code) (c'.perform cause stack code) := by
  have endings := blind c.world c'.world alike.world
  have trace := List.Forall₂.cons (EntryAlike.stretch cause alike.world endings) alike.trace
  unfold Config.perform
  revert trace
  generalize code.run c.world = ending at endings
  generalize code.run c'.world = ending' at endings
  intro trace
  cases endings with
  | @done exit _ _ _ exits worlds =>
    cases exits with
    | same =>
      cases exit with
      | calls out rest => exact ⟨worlds, rfl, callsNull_alike worlds out out rfl rfl, trace⟩
      | returns value => exact ⟨worlds, rfl, rfl, trace⟩
    | filled interface slot editBox text text' rest =>
      have pointer := callsNull_alike worlds (.setTextValue interface slot editBox text)
        (.setTextValue interface slot editBox text') rfl rfl
      exact ⟨worlds, rfl, pointer, trace⟩
  | threw e worlds => exact ⟨worlds, rfl, rfl, trace⟩
  | undefined u => exact ⟨alike.world, rfl, rfl, trace⟩

private theorem step_alike (c c' : Config) (action action' : Action) (alike : ConfigAlike c c')
    (same : ActionAlike action action') : ConfigAlike (step c action) (step c' action') := by
  have attached : c'.world.globals.attached = c.world.globals.attached := by
    obtain ⟨s, -, globals⟩ := alike.world.globals
    rw [globals]
    rfl
  unfold step
  rw [alike.stopped]
  split
  · exact alike
  · cases same with
    | changes processes typed =>
      exact ⟨⟨processes, typed, alike.world.globals⟩, alike.stack, rfl, alike.trace⟩
    | calls call =>
      simp only [attached, alike.stack]
      split
      · exact perform_alike alike (.call call) c.stack (blind_enter call)
      · exact ⟨alike.world, rfl, rfl, .cons (.unhooked call) alike.trace⟩
    | returns value =>
      simp only [alike.stack]
      split
      · exact alike
      · exact perform_alike alike _ _ (blind_resume value _)
    | throws => exact ⟨alike.world, congrArg List.tail alike.stack, rfl, alike.trace⟩

/-- Two runs of the same game with different logins and PINs do the same, step for step: the
same calls with the same arguments, exceptions, faults, panels and globals, but for what is
stored of login and PIN, the texts that the login panel is filled with and the digits that are
typed into the PIN panel. -/
theorem secrets_unobserved {w w' : World} (alike : WorldAlike w w') {actions actions' : List Action}
    (same : List.Forall₂ ActionAlike actions actions') :
    ConfigAlike (run step (Config.start w) actions) (run step (Config.start w') actions') := by
  have start : ConfigAlike (Config.start w) (Config.start w') := ⟨alike, rfl, rfl, .nil⟩
  exact both_run step_alike start same

def holding (username password pincode : CText WChar) : Process :=
  { Process.bare with
    environment := ((Environment.bare.assign .bnsProfileUsername username).assign
      .bnsProfilePassword password).assign .bnsPincode pincode }

/-- A text that its buffer has room for. -/
private def Fits (text : CText WChar) : Prop := text.chars ≠ [] ∧ text.chars.length < 256

private theorem read_text {text : CText WChar} (fits : Fits text) :
    readVariable text.chars [] 256 = some (some text.chars) :=
  readVariable_fits _ _ 256 fits.1 text.nulFree fits.2

private theorem holding_alike {u p c u' p' c' : CText WChar} (fits : Fits u ∧ Fits p ∧ Fits c)
    (fits' : Fits u' ∧ Fits p' ∧ Fits c') (pins : PinTextAlike c.chars c'.chars) :
    ProcessAlike (holding u p c) (holding u' p' c') where
  reads name := by
    cases name with
    | bnsProfileUsername =>
      show FoundBy _ (readVariable u.chars [] 256) (readVariable u'.chars [] 256)
      rw [read_text fits.1, read_text fits'.1]
      exact .some (.some trivial)
    | bnsProfilePassword =>
      show FoundBy _ (readVariable p.chars [] 256) (readVariable p'.chars [] 256)
      rw [read_text fits.2.1, read_text fits'.2.1]
      exact .some (.some trivial)
    | bnsPincode =>
      show FoundBy _ (readVariable c.chars [] 256) (readVariable c'.chars [] 256)
      rw [read_text fits.2.2, read_text fits'.2.2]
      exact .some (.some pins)
    | _ => exact .none
  secret := .none
  usernameOption := rfl
  passwordOption := rfl
  pinOption := rfl

private theorem texts_noNul : (0 : WChar) ∉ wide "anna" ∧ (0 : WChar) ∉ wide "swordfish" ∧
    (0 : WChar) ∉ wide "246810" ∧ (0 : WChar) ∉ wide "bob" ∧ (0 : WChar) ∉ wide "hunter2" ∧
    (0 : WChar) ∉ wide "987654" := by decide

def annas : Process := holding ⟨wide "anna", texts_noNul.1⟩
  ⟨wide "swordfish", texts_noNul.2.1⟩ ⟨wide "246810", texts_noNul.2.2.1⟩

def bobs : Process := holding ⟨wide "bob", texts_noNul.2.2.2.1⟩
  ⟨wide "hunter2", texts_noNul.2.2.2.2.1⟩ ⟨wide "987654", texts_noNul.2.2.2.2.2⟩

/-- The login panel is filled in, with the interface at 8192, and the PIN panel refreshed. -/
private def bothPanels : List Action :=
  [.calls (.openLoginPanel 4096), .returns 1, .returns 8192, .returns 1, .returns 1,
    .calls (.updateVerifyMode 4096)]

theorem secrets_unobserved_filled :
    ConfigAlike (run step (Config.start (hooked annas)) bothPanels)
      (run step (Config.start (hooked bobs)) bothPanels) := by
  have pins : PinTextAlike (wide "246810") (wide "987654") :=
    ⟨by decide, ⟨by decide, by decide⟩⟩
  have processes : ProcessAlike annas bobs := by
    refine holding_alike ?_ ?_ pins
    · unfold Fits
      decide
    · unfold Fits
      decide
  have worlds : WorldAlike (hooked annas) (hooked bobs) :=
    ⟨processes, ⟨fun _ _ => ⟨0⟩, rfl⟩, ⟨[], [], Globals.initial.pincode, []⟩,
      ⟨Iff.rfl, Iff.rfl⟩, rfl⟩
  exact secrets_unobserved worlds (.cons (.calls _) (.cons (.returns 1) (.cons (.returns 8192)
    (.cons (.returns 1) (.cons (.returns 1) (.cons (.calls _) .nil))))))

end LoginHelper.Secrecy
