/- Unit: LoginHelper/HookClosure
   source: oep_notify in src/loginhelper/dllmain.cpp, against the hooks of Lobby.h and LoginOtp.h
   digest: Which pointers are resolved once the hooks are attached, and when that is enough for every call. -/

import LoginHelper.Dllmain

set_option autoImplicit false
set_option relaxedAutoImplicit false

namespace LoginHelper.HookClosure

open LoginHelper.Foundation.Execution
open LoginHelper.CommandLine (hasSwitch keepPinRegex fixProgramIdRegex)
open LoginHelper.Data LoginHelper.Calls LoginHelper.LoginOtp LoginHelper.Lobby LoginHelper.Hooks
open LoginHelper.Dllmain

theorem rvaTo_ne_zero (m : Module) (address : Address) : m.rvaTo address ≠ 0 := by
  have bounds := m.userMode
  have rva : (((address - m.handle).setWidth 32).setWidth 64).toNat < 2 ^ 32 := by
    rw [BitVec.toNat_setWidth]
    have := ((address - m.handle).setWidth 32).isLt
    omega
  intro null
  have zero := congrArg BitVec.toNat null
  rw [Module.rvaTo, BitVec.toNat_add] at zero
  change (m.handle.toNat + _) % 2 ^ 64 = 0 at zero
  omega

/-- The search that resolves the pointer has found something. -/
def Found (m : Module) : Original → Prop
  | .loginOtpPanelUpdateVerifyMode => (m.find updateVerifyModePattern).isSome
  | .loginOtpPanelProcessConfirmClick => (m.find processConfirmClickPattern).isSome
  | .titleLoginPanelProcessEvent => (m.find processEventPattern).isSome
  | .titleLoginPanelProcessLogin =>
      (m.find processLoginPattern).isSome ∨ (m.find processLoginPattern2).isSome
  | .titleLoginPanelOpenLoginPanel => (m.find openLoginPanelPattern).isSome
  | .uiEngineInterfaceGetInstance => (m.find openLoginPanelPattern).isSome
  | .lobbyRequestLogin => (m.find requestLoginPattern).isSome

def Resolved (g : Globals) (o : Original) : Prop := g.original o ≠ 0

/-- The pointers that a block of `oep_notify` resolves, and the hooks it attaches. -/
structure Installs (block : Globals → Globals) (own : Original → Prop) (hooks : Hook → Prop) :
    Prop where
  original : ∀ g o, Resolved (block g) o ↔ own o ∨ Resolved g o
  attached : ∀ g h, (block g).attached h = true ↔ hooks h ∨ g.attached h = true

private theorem installs_resolve (m : Module) (o : Original) (address : Address) :
    Installs (resolve m o address) (· = o) fun _ => False := by
  refine ⟨fun g o' => ?_, fun g h => by simp [resolve]⟩
  by_cases same : o' = o
  · subst same
    have resolved : (resolve m o' address g).original o' = m.rvaTo address :=
      Function.update_self ..
    exact ⟨fun _ => .inl rfl, fun _ => by rw [Resolved, resolved]; exact rvaTo_ne_zero m address⟩
  · simp [Resolved, resolve, same]

private theorem installs_attach (hook : Hook) :
    Installs (attach hook) (fun _ => False) (· = hook) := by
  refine ⟨fun g o => by simp [Resolved, attach], fun g h => ?_⟩
  by_cases same : h = hook
  · subst same
    simp [attach]
  · simp [attach, same]

private theorem Installs.comp {f k : Globals → Globals} {P Q : Original → Prop} {H J : Hook → Prop}
    (second : Installs k Q J) (first : Installs f P H) :
    Installs (fun g => k (f g)) (fun o => Q o ∨ P o) fun h => J h ∨ H h :=
  ⟨fun g o => by rw [second.original, first.original, or_assoc],
    fun g h => by rw [second.attached, first.attached, or_assoc]⟩

private theorem Installs.onMatch (m : Module) (pattern : String)
    {found : Nat → Globals → Globals} {P : Original → Prop} {H : Hook → Prop}
    (each : ∀ result, Installs (found result) P H) :
    Installs (onMatch m pattern found) (fun o => (m.find pattern).isSome ∧ P o)
      fun h => (m.find pattern).isSome ∧ H h := by
  cases search : m.find pattern with
  | none =>
    have idle (g : Globals) : Dllmain.onMatch m pattern found g = g := by
      rw [Dllmain.onMatch, search]
    exact ⟨fun g o => by simp [idle], fun g h => by simp [idle]⟩
  | some result =>
    have acts (g : Globals) : Dllmain.onMatch m pattern found g = found result g := by
      rw [Dllmain.onMatch, search]
    exact ⟨fun g o => by simp [acts, (each result).original],
      fun g h => by simp [acts, (each result).attached]⟩

private theorem installs_processLogin (m : Module) :
    Installs (resolveProcessLogin m)
      (fun o => Found m .titleLoginPanelProcessLogin ∧ o = .titleLoginPanelProcessLogin)
      fun _ => False := by
  have one := Installs.onMatch m processLoginPattern fun result =>
    installs_resolve m .titleLoginPanelProcessLogin (m.address result)
  have two := Installs.onMatch m processLoginPattern2 fun result =>
    installs_resolve m .titleLoginPanelProcessLogin (m.address result - 0x52)
  constructor
  · intro g o
    unfold resolveProcessLogin
    split
    · rename_i first
      rw [one.original]
      simp [Found, first]
    · rename_i first
      rw [two.original]
      simp [Found, first]
  · intro g h
    unfold resolveProcessLogin
    split
    · rw [one.attached]
      simp
    · rw [two.attached]
      simp

theorem installs_hookModule (m : Module) :
    Installs (hookModule m) (Found m) (fun h => Found m h.own) := by
  have update := Installs.onMatch m updateVerifyModePattern fun result =>
    (installs_attach .loginOtpPanelUpdateVerifyMode).comp
      (installs_resolve m .loginOtpPanelUpdateVerifyMode (m.address result))
  have confirm := Installs.onMatch m processConfirmClickPattern fun result =>
    (installs_attach .loginOtpPanelProcessConfirmClick).comp
      (f := fun g => resolve m .loginOtpPanelProcessConfirmClick (m.address result - 0x8B)
        { g with uiPanelOffset := m.read32 (result + 2) - 0x0298 })
      ⟨fun g o => (installs_resolve m _ _).original _ o, fun g h => (installs_resolve m _ _).attached _ h⟩
  have request := Installs.onMatch m requestLoginPattern fun result =>
    (installs_attach .lobbyRequestLogin).comp
      (installs_resolve m .lobbyRequestLogin (m.address result - 0x5E))
  have openPanel := Installs.onMatch m openLoginPanelPattern fun result =>
    (installs_resolve m .uiEngineInterfaceGetInstance (m.address result + 0x10 +
      (m.read32 (result + 0x10)).signExtend 64 + 4)).comp
        ((installs_attach .titleLoginPanelOpenLoginPanel).comp
          (installs_resolve m .titleLoginPanelOpenLoginPanel (m.address result)))
  have event := Installs.onMatch m processEventPattern fun result =>
    (installs_attach .titleLoginPanelProcessEvent).comp
      (installs_resolve m .titleLoginPanelProcessEvent (m.address result))
  have whole := event.comp ((installs_processLogin m).comp
    (openPanel.comp (request.comp (confirm.comp update))))
  constructor
  · intro g o
    refine (whole.original g o).trans (or_congr_left ?_)
    cases o <;> simp [Found]
  · intro g h
    refine (whole.attached g h).trans (or_congr_left ?_)
    cases h <;> simp [Found, Hook.own]

def OnlyHooks (g g' : Globals) : Prop :=
  ∃ original attached offset, g' = { g with
    original := original, attached := attached, uiPanelOffset := offset }

private theorem OnlyHooks.trans {g g' g'' : Globals} (first : OnlyHooks g g')
    (second : OnlyHooks g' g'') : OnlyHooks g g'' := by
  obtain ⟨o, a, p, first⟩ := first
  obtain ⟨o', a', p', second⟩ := second
  exact ⟨o', a', p', by rw [second, first]⟩

instance : Trans OnlyHooks OnlyHooks OnlyHooks := ⟨OnlyHooks.trans⟩

private theorem onMatch_only (m : Module) (pattern : String) (found : Nat → Globals → Globals)
    (each : ∀ result g, OnlyHooks g (found result g)) (g : Globals) :
    OnlyHooks g (onMatch m pattern found g) := by
  rw [onMatch]
  split
  · exact each _ g
  · exact ⟨g.original, g.attached, g.uiPanelOffset, rfl⟩

private theorem resolveProcessLogin_only (m : Module) (g : Globals) :
    OnlyHooks g (resolveProcessLogin m g) := by
  rw [resolveProcessLogin]
  split
  · exact onMatch_only m _ _ (fun _ g => ⟨_, g.attached, g.uiPanelOffset, rfl⟩) g
  · exact onMatch_only m _ _ (fun _ g => ⟨_, g.attached, g.uiPanelOffset, rfl⟩) g

theorem hookModule_only (m : Module) (g : Globals) : OnlyHooks g (hookModule m g) := by
  have update (g : Globals) : OnlyHooks g (hookUpdateVerifyMode m g) :=
    onMatch_only m _ _ (fun _ g => ⟨_, _, g.uiPanelOffset, rfl⟩) g
  have confirm (g : Globals) : OnlyHooks g (hookProcessConfirmClick m g) :=
    onMatch_only m _ _ (fun _ g => ⟨_, _, _, rfl⟩) g
  have request (g : Globals) : OnlyHooks g (hookRequestLogin m g) :=
    onMatch_only m _ _ (fun _ g => ⟨_, _, g.uiPanelOffset, rfl⟩) g
  have openPanel (g : Globals) : OnlyHooks g (hookOpenLoginPanel m g) :=
    onMatch_only m _ _ (fun _ g => ⟨_, _, g.uiPanelOffset, rfl⟩) g
  have event (g : Globals) : OnlyHooks g (hookProcessEvent m g) :=
    onMatch_only m _ _ (fun _ g => ⟨_, _, g.uiPanelOffset, rfl⟩) g
  calc OnlyHooks g _ := update g
    OnlyHooks _ _ := confirm _
    OnlyHooks _ _ := request _
    OnlyHooks _ _ := openPanel _
    OnlyHooks _ _ := resolveProcessLogin_only m _
    OnlyHooks _ (hookModule m g) := event _

def SameButSwitches (w w' : World) : Prop :=
  ∃ keeppin swap, w'.globals = { w.globals with keeppin := keeppin, swapProgramid := swap }

private theorem sameButSwitches_frame : IsFrame SameButSwitches where
  refl w := ⟨w.globals.keeppin, w.globals.swapProgramid, rfl⟩
  trans := by
    rintro s t u ⟨k, p, first⟩ ⟨k', p', second⟩
    exact ⟨k', p', by rw [second, first]⟩

private theorem readSwitches_keeps : readSwitches.Keeps SameButSwitches := by
  have frame := sameButSwitches_frame
  have nothing : (pure () : Code Unit).Keeps SameButSwitches := keeps_pure frame ()
  have keep : setKeeppin.Keeps SameButSwitches := fun w => ⟨true, w.globals.swapProgramid, rfl⟩
  have swap : setSwapProgramid.Keeps SameButSwitches := fun w => ⟨w.globals.keeppin, true, rfl⟩
  have one : keepPinSwitch.Keeps SameButSwitches :=
    keeps_bind frame (keeps_readState frame) fun w => keeps_ite _ keep nothing
  have two : fixProgramIdVariable.Keeps SameButSwitches := by
    apply keeps_bind frame (keeps_readWide frame _)
    intro text
    cases text with
    | none => exact nothing
    | some text =>
      exact keeps_bind frame (keeps_returnedOr frame _) fun n => keeps_ite _ swap nothing
  have three : fixProgramIdSwitch.Keeps SameButSwitches :=
    keeps_bind frame (keeps_readState frame) fun w =>
      keeps_ite _ (keeps_ite _ swap nothing) nothing
  exact keeps_bind frame one fun _ => keeps_bind frame two fun _ => three

/-- A plugin that has been notified once, whatever its environment was: by a return,
or by an exception out of the switches. -/
def Notified (m : Module) (w : World) : Prop :=
  ∃ start : World, start.globals = Globals.initial ∧ ((oepNotify (some m)).run start).state? = some w

theorem notified_globals {m : Module} {w : World} (notified : Notified m w) :
    ∃ keeppin swap, w.globals = { hookModule m { Globals.initial with initdone := true } with
      keeppin := keeppin, swapProgramid := swap } := by
  obtain ⟨start, fresh, after⟩ := notified
  rw [oepNotify, bind_run, readState_run, Outcome.andThen_done, ite_run,
    if_neg (by rw [fresh]; decide), bind_run, assignGlobals_run, Outcome.andThen_done] at after
  obtain ⟨keeppin, swap, globals⟩ := (readSwitches_keeps _).state after
  rw [withGlobals_globals, fresh] at globals
  exact ⟨keeppin, swap, globals⟩

theorem notified_resolved {m : Module} {w : World} (notified : Notified m w) (o : Original) :
    Resolved w.globals o ↔ Found m o := by
  obtain ⟨keeppin, swap, globals⟩ := notified_globals notified
  have installed := (installs_hookModule m).original { Globals.initial with initdone := true } o
  rw [Resolved, globals]
  exact installed.trans (or_iff_left fun resolved => resolved rfl)

theorem notified_attached {m : Module} {w : World} (notified : Notified m w) (h : Hook) :
    w.globals.attached h = true ↔ Found m h.own := by
  obtain ⟨keeppin, swap, globals⟩ := notified_globals notified
  have installed := (installs_hookModule m).attached { Globals.initial with initdone := true } h
  rw [globals]
  exact installed.trans (or_iff_left fun attached => Bool.noConfusion attached)

theorem notified_fresh {m : Module} {w : World} (notified : Notified m w) : w.globals.Fresh := by
  obtain ⟨keeppin, swap, globals⟩ := notified_globals notified
  obtain ⟨original, attached, offset, hooked⟩ :=
    hookModule_only m { Globals.initial with initdone := true }
  rw [hooked] at globals
  constructor <;> rw [globals] <;> rfl

private theorem readSwitches_bare (w : World) (bare : w.process = Process.bare) :
    readSwitches.run w = .done () w := by
  have line : w.process.commandLine = [] := by rw [bare]; rfl
  have keep : hasSwitch keepPinRegex [] = false := by decide
  have fix : hasSwitch fixProgramIdRegex [] = false := by decide
  have unset : w.process.environment.value .bnsServerFixProgramId = [] := by rw [bare]; rfl
  simp [readSwitches, keepPinSwitch, fixProgramIdVariable, fixProgramIdSwitch, line, keep, fix,
    readWide_unset _ w unset]

theorem notified_exists (m : Module) : ∃ w, Notified m w := by
  let start : World := ⟨Process.bare, Panels.blank, Globals.initial⟩
  refine ⟨start.withGlobals (hookModule m { Globals.initial with initdone := true }), start, rfl, ?_⟩
  rw [oepNotify, bind_run, readState_run, Outcome.andThen_done, ite_run, if_neg (by decide),
    bind_run, assignGlobals_run, Outcome.andThen_done, readSwitches_bare _ rfl]
  rfl

/-- After the notification every pointer an attached hook may call through is resolved. -/
def HooksClosed (m : Module) : Prop :=
  ∀ w, Notified m w → ∀ hook, w.globals.attached hook = true →
    ∀ out rest, MayCall hook out rest → ∀ o, out.original = some o → Resolved w.globals o

private theorem mayCall_processConfirmClick :
    MayCall .loginOtpPanelUpdateVerifyMode (.processConfirmClick 4096) (.autoConfirm 4096 4096) := by
  let w : World := ⟨Process.bare, Panels.blank, { Globals.initial with pincode := fun _ => 0 }⟩
  have available : getPin.run (refreshed w 4096) = .done true (refreshed w 4096) := rfl
  have run := updateVerifyMode_run 4096 w
  rw [if_neg (by decide), if_pos (by decide), available] at run
  exact .first (.updateVerifyMode 4096) rfl w _ _ _ run

private theorem mayCall_processLogin :
    MayCall .titleLoginPanelProcessEvent (.processLogin 4096) (.eventLogin 4096 8192) :=
  .first (.processEvent 4096 8192) rfl ⟨Process.bare, Panels.blank, Globals.initial⟩ _ _ _
    (processEvent_run 4096 8192 _)

/-- The hooks are closed exactly when the two hooks that call through a pointer of
another search are not found without it. -/
theorem hooksClosed_iff (m : Module) :
    HooksClosed m ↔
      (Found m .loginOtpPanelUpdateVerifyMode → Found m .loginOtpPanelProcessConfirmClick) ∧
      (Found m .titleLoginPanelProcessEvent → Found m .titleLoginPanelProcessLogin) := by
  constructor
  · intro closed
    obtain ⟨w, notified⟩ := notified_exists m
    constructor
    · intro found
      have resolved := closed w notified .loginOtpPanelUpdateVerifyMode
        ((notified_attached notified _).mpr found) _ _ mayCall_processConfirmClick _ rfl
      exact (notified_resolved notified _).mp resolved
    · intro found
      have resolved := closed w notified .titleLoginPanelProcessEvent
        ((notified_attached notified _).mpr found) _ _ mayCall_processLogin _ rfl
      exact (notified_resolved notified _).mp resolved
  · rintro ⟨confirm, login⟩ w notified hook attached out rest reached o target
    have found := (notified_attached notified hook).mp attached
    apply (notified_resolved notified o).mpr
    cases mayCall_leaves reached with
    | update panel => cases target; exact found
    | autoConfirm panel panelOffset => cases target; exact confirm found
    | confirm panel => cases target; exact found
    | eventLogin panel event => cases target; exact login found
    | event panel event => cases target; exact found
    | openPanel panel panelOffset => cases target; exact found
    | getInstance panelOffset => cases target; exact found
    | userId interface slot panelOffset editBox text => cases target
    | password interface slot editBox text => cases target
    | requestLogin args => cases target; exact found

def moduleOf (data : List UInt8) : Module where
  handle := 0x140000000
  codeAddress := 0x140001000
  data := data
  userMode := by decide

/-- A section in which an update has left only the event function recognisable. -/
def eventOnly : Module :=
  moduleOf [0x48, 0x89, 0x5C, 0x24, 0x08, 0x57, 0x48, 0x83, 0xEC, 0x20, 0x48, 0x8B, 0xFA, 0x48, 0x8B,
    0xD9, 0xFF, 0x15, 0x10, 0x20, 0x30, 0x00, 0x4C, 0x8B, 0xC8]

/-- There the first event of the login panel calls through a null pointer. -/
theorem eventOnly_not_closed : ¬ HooksClosed eventOnly := by
  intro closed
  obtain ⟨w, notified⟩ := notified_exists eventOnly
  have found : Found eventOnly .titleLoginPanelProcessEvent := by
    unfold Found
    decide +kernel
  have missing : ¬ Found eventOnly .titleLoginPanelProcessLogin := by
    unfold Found
    decide +kernel
  have resolved := closed w notified .titleLoginPanelProcessEvent
    ((notified_attached notified _).mpr found) _ _ mayCall_processLogin _ rfl
  exact missing ((notified_resolved notified _).mp resolved)

end LoginHelper.HookClosure
