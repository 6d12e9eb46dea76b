/- Unit: LoginHelper/Footprint
   source: the hooks of src/loginhelper/LoginOtp.h and src/loginhelper/Lobby.h under any game
   digest: What the plugin may write: five variables of the environment, and some fields of one panel. -/

import LoginHelper.Machine

set_option autoImplicit false
set_option relaxedAutoImplicit false

namespace LoginHelper.Footprint

open LoginHelper.Foundation.Execution LoginHelper.Foundation.Runs
open LoginHelper.Windows.ProcessEnvironment
open LoginHelper.CommandLine (pinArgument usernameArgument passwordArgument)
open LoginHelper.Data LoginHelper.Calls LoginHelper.LoginOtp LoginHelper.Lobby
open LoginHelper.Hooks LoginHelper.Machine

inductive Variable
  | wide (name : EnvVar)
  | otpSecret
  deriving DecidableEq

def Untouched : Variable → Environment → Environment → Prop
  | .wide name, env, env' => env'.value name = env.value name
  | .otpSecret, env, env' => env'.secret = env.secret

def Emptied : Variable → Environment → Prop
  | .wide name, env => env.value name = []
  | .otpSecret, env => env.secret = []

/-- Every variable reads as before, or is one that may be taken and reads as unset. -/
def Scrubs (may : Variable → Prop) (env env' : Environment) : Prop :=
  ∀ v, Untouched v env env' ∨ may v ∧ Emptied v env'

theorem untouched_refl (v : Variable) (env : Environment) : Untouched v env env := by
  cases v with
  | wide name => rfl
  | otpSecret => rfl

theorem scrubs_refl (may : Variable → Prop) (env : Environment) : Scrubs may env env :=
  fun v => .inl (untouched_refl v env)

private theorem Untouched.trans {v : Variable} {env env' env'' : Environment}
    (first : Untouched v env env') (second : Untouched v env' env'') : Untouched v env env'' := by
  cases v with
  | wide name => exact Eq.trans second first
  | otpSecret => exact Eq.trans second first

private theorem Emptied.later {v : Variable} {env env' : Environment} (empty : Emptied v env)
    (same : Untouched v env env') : Emptied v env' := by
  cases v with
  | wide name => exact Eq.trans same empty
  | otpSecret => exact Eq.trans same empty

theorem Scrubs.trans {may : Variable → Prop} {env env' env'' : Environment}
    (first : Scrubs may env env') (second : Scrubs may env' env'') : Scrubs may env env'' := by
  intro v
  rcases second v with same | taken
  · rcases first v with same' | ⟨allowed, empty⟩
    · exact .inl (same'.trans same)
    · exact .inr ⟨allowed, empty.later same⟩
  · exact .inr taken

theorem Scrubs.mono {may may' : Variable → Prop} {env env' : Environment} (h : Scrubs may env env')
    (more : ∀ v, may v → may' v) : Scrubs may' env env' :=
  fun v => (h v).imp_right fun taken => ⟨more v taken.1, taken.2⟩

theorem scrubs_clear {may : Variable → Prop} {name : EnvVar} (allowed : may (.wide name))
    (env : Environment) : Scrubs may env (env.clear name) := by
  intro v
  cases v with
  | wide other =>
    by_cases here : other = name
    · subst here
      exact .inr ⟨allowed, by rw [Emptied, Environment.value_clear, if_pos rfl]⟩
    · exact .inl (by rw [Untouched, Environment.value_clear, if_neg here])
  | otpSecret => exact .inl rfl

theorem scrubs_clearSecret {may : Variable → Prop} (allowed : may .otpSecret) (env : Environment) :
    Scrubs may env env.clearSecret := by
  intro v
  cases v with
  | wide name => exact .inl rfl
  | otpSecret => exact .inr ⟨allowed, rfl⟩

/-- The fields of a PIN panel that the plugin writes, and what it writes there. -/
structure PanelWritten (panel panel' : LoginOtpPanel) : Prop where
  inputs : ∀ i : Fin 8, 6 ≤ i.val → panel'.otpInputList i = panel.otpInputList i
  numpad : ∀ k, panel'.otpNumpadList k = panel.otpNumpadList k ∨
    (panel'.otpNumpadList k).numpadValue = k.val
  fails : panel'.verifyFailCount = panel.verifyFailCount ∨
    4 < panel.verifyFailCount ∧ panel'.verifyFailCount = 1
  count : panel'.curInputCount = panel.curInputCount ∨ panel'.curInputCount = 6
  keyboard : panel'.keyboardEnabled = panel.keyboardEnabled ∨ panel'.keyboardEnabled = true

theorem panelWritten_refl (panel : LoginOtpPanel) : PanelWritten panel panel :=
  ⟨fun _ _ => rfl, fun _ => .inl rfl, .inl rfl, .inl rfl, .inl rfl⟩

theorem PanelWritten.trans {p p' p'' : LoginOtpPanel} (first : PanelWritten p p')
    (second : PanelWritten p' p'') : PanelWritten p p'' where
  inputs i high := (second.inputs i high).trans (first.inputs i high)
  numpad k := by
    rcases second.numpad k with same | written
    · rw [same]
      exact first.numpad k
    · exact .inr written
  fails := by
    rcases second.fails with same | ⟨many, one⟩
    · rw [same]
      exact first.fails
    · rcases first.fails with same | ⟨-, one'⟩
      · exact .inr ⟨same ▸ many, one⟩
      · omega
  count := by
    rcases second.count with same | six
    · rw [same]
      exact first.count
    · exact .inr six
  keyboard := by
    rcases second.keyboard with same | on
    · rw [same]
      exact first.keyboard
    · exact .inr on

/-- Besides the globals only variables that may be taken, and the PIN panel at the target,
differ. What may be taken can depend on `keeppin`, which stays as it is. -/
structure Touches (may : Bool → Variable → Prop) (target : Option Address) (w w' : World) :
    Prop where
  process : w'.process = { w.process with environment := w'.process.environment }
  scrubs : Scrubs (may w.globals.keeppin) w.process.environment w'.process.environment
  keeppin : w'.globals.keeppin = w.globals.keeppin
  titleLogin : w'.panels.titleLogin = w.panels.titleLogin
  otp : ∀ a, w'.panels.otp a = w.panels.otp a ∨
    target = some a ∧ PanelWritten (w.panels.otp a) (w'.panels.otp a)

section Touching

variable (may : Bool → Variable → Prop) (target : Option Address)

theorem touches_frame : IsFrame (Touches may target) where
  refl w := ⟨rfl, scrubs_refl _ _, rfl, rfl, fun _ => .inl rfl⟩
  trans := by
    intro s t u first second
    refine ⟨?_, ?_, second.keeppin.trans first.keeppin,
      second.titleLogin.trans first.titleLogin, ?_⟩
    · rw [second.process, first.process]
    · have later := second.scrubs
      rw [first.keeppin] at later
      exact first.scrubs.trans later
    · intro a
      rcases second.otp a with same | ⟨here, written⟩
      · rw [same]
        exact first.otp a
      · rcases first.otp a with same | ⟨-, written'⟩
        · exact .inr ⟨here, same ▸ written⟩
        · exact .inr ⟨here, written'.trans written⟩

variable {may target}

theorem touches_assign {f : Globals → Globals} (keeppin : ∀ g, (f g).keeppin = g.keeppin) :
    (assignGlobals f).Keeps (Touches may target) :=
  fun w => ⟨rfl, scrubs_refl _ _, keeppin w.globals, rfl, fun _ => .inl rfl⟩

theorem touches_clear {name : EnvVar} (allowed : ∀ keeppin, may keeppin (.wide name)) :
    (clearVariable name).Keeps (Touches may target) :=
  fun w => ⟨rfl, scrubs_clear (allowed w.globals.keeppin) _, rfl, rfl, fun _ => .inl rfl⟩

theorem touches_writePanel {a : Address} {f : LoginOtpPanel → LoginOtpPanel}
    (written : ∀ panel, PanelWritten panel (f panel)) :
    (writePanel a f).Keeps (Touches may (some a)) := by
  intro w
  refine ⟨rfl, scrubs_refl _ _, rfl, rfl, fun b => ?_⟩
  by_cases here : b = a
  · subst here
    exact .inr ⟨rfl, by rw [withOtpPanel_same]; exact written _⟩
  · exact .inl (Function.update_of_ne here _ _)

private theorem touches_spend {spend : Code Unit}
    (taken : ∀ w : World, w.globals.keeppin = false →
      (spend.run w).Yields (fun _ w' => Touches may target w w') (Touches may target w)) :
    (spendUnlessKept spend).Keeps (Touches may target) := by
  intro w
  rw [spendUnlessKept, bind_run, readState_run, Outcome.andThen_done]
  cases kept : w.globals.keeppin with
  | true => exact (touches_frame may target).refl w
  | false => exact taken w kept

private theorem touches_spendVariable {name : EnvVar} (allowed : may false (.wide name)) :
    (spendUnlessKept (clearVariable name)).Keeps (Touches may target) := by
  apply touches_spend
  intro w unkept
  exact ⟨rfl, scrubs_clear (unkept.symm ▸ allowed) _, rfl, rfl, fun _ => .inl rfl⟩

private theorem touches_spendSecret (allowed : may false .otpSecret) :
    (spendUnlessKept clearSecret).Keeps (Touches may target) := by
  apply touches_spend
  intro w unkept
  exact ⟨rfl, scrubs_clearSecret (unkept.symm ▸ allowed) _, rfl, rfl, fun _ => .inl rfl⟩

private theorem touches_store (i : Fin 6) (digit : Int) :
    (storeDigit i digit).Keeps (Touches may target) := touches_assign fun _ => rfl

private theorem touches_loadPintext : loadPintext.Keeps (Touches may target) := by
  have frame := touches_frame may target
  apply keeps_forEach frame
  intro i
  apply keeps_bind frame (keeps_readState frame)
  intro w
  exact keeps_bind frame (keeps_definedOr frame _ _) fun c => touches_store i _

private theorem touches_loadBuffer (buffer : NString) :
    (loadBuffer buffer).Keeps (Touches may target) := by
  have frame := touches_frame may target
  apply keeps_forEach frame
  intro i
  exact keeps_bind frame (keeps_definedOr frame _ _) fun c => touches_store i _

private theorem touches_pinFromText (text : WString) {spend : Code Unit}
    (spends : spend.Keeps (Touches may target)) :
    (pinFromText text spend).Keeps (Touches may target) := by
  have frame := touches_frame may target
  have stored : (assignGlobals fun g => { g with pintext := text }).Keeps (Touches may target) :=
    touches_assign fun _ => rfl
  apply keeps_bind frame stored
  intro _
  apply keeps_bind frame touches_loadPintext
  intro _
  exact keeps_bind frame spends fun _ => keeps_pure frame true

private theorem touches_pinFromSecret (allowed : may false .otpSecret) (secret : NString) :
    (pinFromSecret secret).Keeps (Touches may target) := by
  have frame := touches_frame may target
  apply keeps_bind frame (keeps_returnedOr frame _)
  intro qui
  apply keeps_bind frame (keeps_readState frame)
  intro w
  apply keeps_bind frame (keeps_definedOr frame _ _)
  intro p
  apply keeps_bind frame (keeps_definedOr frame _ _)
  intro buffer
  apply keeps_bind frame (touches_loadBuffer buffer)
  intro _
  exact keeps_bind frame (touches_spendSecret allowed) fun _ => keeps_pure frame true

def pinVariables : List Variable := [.wide .bnsPincode, .wide .bnsProfilePin, .otpSecret]

def loginVariables : List Variable := [.wide .bnsProfileUsername, .wide .bnsProfilePassword]

theorem touches_getPin (allowed : ∀ v ∈ pinVariables, may false v) :
    getPin.Keeps (Touches may target) := by
  have frame := touches_frame may target
  have pincode := allowed (.wide .bnsPincode) (by simp [pinVariables])
  have profilePin := allowed (.wide .bnsProfilePin) (by simp [pinVariables])
  have secret := allowed .otpSecret (by simp [pinVariables])
  have line : pinFromCommandLine.Keeps (Touches may target) := by
    apply keeps_bind frame (keeps_readState frame)
    intro w
    cases pinArgument w.process.commandLine with
    | some text => exact touches_pinFromText text (keeps_pure frame ())
    | none => exact keeps_pure frame false
  have read : readPin.Keeps (Touches may target) := by
    apply keeps_bind frame (keeps_readWide frame _)
    intro text
    cases text with
    | some text => exact touches_pinFromText text (touches_spendVariable pincode)
    | none =>
      apply keeps_bind frame (keeps_readWide frame _)
      intro text
      cases text with
      | some text => exact touches_pinFromText text (touches_spendVariable profilePin)
      | none =>
        apply keeps_bind frame (keeps_readNarrowSecret frame)
        intro text
        cases text with
        | some text => exact touches_pinFromSecret secret text
        | none => exact line
  apply keeps_bind frame (keeps_readState frame)
  intro w
  exact keeps_ite _ (keeps_pure frame false) (keeps_ite _ (keeps_pure frame true) read)

theorem touches_getLogin (allowed : ∀ keeppin, ∀ v ∈ loginVariables, may keeppin v) :
    getLogin.Keeps (Touches may target) := by
  have frame := touches_frame may target
  have loggedin (n : Int) : (setLoggedin n).Keeps (Touches may target) :=
    touches_assign fun _ => rfl
  have account (text : WString) : (setAccount text).Keeps (Touches may target) :=
    touches_assign fun _ => rfl
  have secret (text : WString) : (setPassword text).Keeps (Touches may target) :=
    touches_assign fun _ => rfl
  have username : (clearVariable .bnsProfileUsername).Keeps (Touches may target) :=
    touches_clear fun keeppin => allowed keeppin _ (by simp [loginVariables])
  have profile : (clearVariable .bnsProfilePassword).Keeps (Touches may target) :=
    touches_clear fun keeppin => allowed keeppin _ (by simp [loginVariables])
  have none : noLogin.Keeps (Touches may target) :=
    keeps_bind frame (loggedin (-1)) fun _ => keeps_pure frame false
  have password : passwordFromVariable.Keeps (Touches may target) := by
    apply keeps_bind frame (keeps_readWide frame _)
    intro text
    cases text with
    | none => exact none
    | some passchar =>
      apply keeps_bind frame (secret passchar)
      intro _
      exact keeps_bind frame profile fun _ => keeps_pure frame true
  have line : loginFromCommandLine.Keeps (Touches may target) := by
    apply keeps_bind frame (keeps_readState frame)
    intro w
    cases usernameArgument w.process.commandLine with
    | none => exact none
    | some text =>
      apply keeps_bind frame (account text)
      intro _
      cases passwordArgument w.process.commandLine with
      | none => exact none
      | some text => exact keeps_bind frame (secret text) fun _ => keeps_pure frame true
  have read : readLogin.Keeps (Touches may target) := by
    apply keeps_bind frame (loggedin 2)
    intro _
    apply keeps_bind frame (keeps_readWide frame _)
    intro text
    cases text with
    | none => exact line
    | some mailchar =>
      apply keeps_bind frame (account mailchar)
      intro _
      exact keeps_bind frame username fun _ => password
  apply keeps_bind frame (keeps_readState frame)
  intro w
  exact keeps_ite _ (keeps_pure frame _) read

theorem touches_getServer : getServer.Keeps (Touches may target) := by
  have frame := touches_frame may target
  have set (f : LoginHelperData → LoginHelperData) : (setServer f).Keeps (Touches may target) :=
    touches_assign fun _ => rfl
  have text (name : EnvVar) (store : WString → LoginHelperData → LoginHelperData) :
      (serverText name store).Keeps (Touches may target) := by
    apply keeps_bind frame (keeps_readWide frame name)
    intro text
    cases text with
    | none => exact keeps_pure frame false
    | some text => exact keeps_bind frame (set _) fun _ => keeps_pure frame true
  have number (name : EnvVar) (store : UInt16 → LoginHelperData → LoginHelperData) :
      (serverNumber name store).Keeps (Touches may target) := by
    apply keeps_bind frame (keeps_readWide frame name)
    intro text
    cases text with
    | none => exact keeps_pure frame false
    | some text =>
      apply keeps_bind frame (keeps_returnedOr frame _)
      intro n
      exact keeps_bind frame (set _) fun _ => keeps_pure frame true
  apply keeps_bind frame (set _)
  intro _
  apply keeps_bind frame (text _ _)
  intro _
  apply keeps_bind frame (number _ _)
  intro _
  apply keeps_bind frame (number _ _)
  intro _
  apply keeps_bind frame (text _ _)
  intro _
  apply keeps_bind frame (text _ _)
  intro _
  exact keeps_bind frame (number _ _) fun _ => keeps_pure frame _

end Touching

/-- The variables that a stretch may take, by what set it going and by `keeppin`. -/
def mayTake : Cause → Bool → Variable → Prop
  | .call (.updateVerifyMode _), keeppin, v => keeppin = false ∧ v ∈ pinVariables
  | .back (.instanceWanted _) _, _, v => v ∈ loginVariables
  | _, _, _ => False

def target : Cause → Globals → Option Address
  | .call (.updateVerifyMode panelSrc), g => some (offsetPanel g panelSrc)
  | .back (.autoConfirm _ panelOffset) _, _ => some panelOffset
  | _, _ => none

private theorem written_enableKeyboard (panel : LoginOtpPanel) :
    PanelWritten panel (enableKeyboard panel) :=
  ⟨fun _ _ => rfl, fun k => .inr (enableKeyboard_numpad panel k), .inl rfl, .inl rfl, .inr rfl⟩

private theorem written_enterPin (pincode : Fin 6 → Int) (panel : LoginOtpPanel) :
    PanelWritten panel (enterPin pincode panel) :=
  ⟨enterPin_rest pincode panel, fun _ => .inl rfl, .inl rfl, .inr rfl, .inl rfl⟩

def guarded (panel : LoginOtpPanel) : LoginOtpPanel :=
  if 4 < panel.verifyFailCount then { panel with verifyFailCount := 1 } else panel

private theorem written_guarded (panel : LoginOtpPanel) : PanelWritten panel (guarded panel) := by
  unfold guarded
  split
  case isTrue many => exact ⟨fun _ _ => rfl, fun _ => .inl rfl, .inr ⟨many, rfl⟩, .inl rfl, .inl rfl⟩
  case isFalse => exact panelWritten_refl panel

theorem finishUpdate_guards (panelSrc panelOffset : Address) (w : World) :
    (finishUpdate panelSrc panelOffset).run w =
      .done (.calls (.updateVerifyMode panelSrc) .finishing)
        (w.withOtpPanel panelOffset (guarded (w.panels.otp panelOffset))) := by
  by_cases many : 4 < (w.panels.otp panelOffset).verifyFailCount
  · simp [finishUpdate, many, writePanel, guarded]
  · have same : w.withOtpPanel panelOffset (w.panels.otp panelOffset) = w := by
      simp [World.withOtpPanel]
    simp [finishUpdate, many, guarded, same]

private theorem touches_finishUpdate (may : Bool → Variable → Prop) (panelSrc panelOffset : Address) :
    (finishUpdate panelSrc panelOffset).Keeps (Touches may (some panelOffset)) := by
  intro w
  rw [finishUpdate_guards]
  exact touches_writePanel written_guarded w

private theorem touches_updateVerifyMode (panelSrc : Address) (w : World) :
    ((hkLoginOtpPanelUpdateVerifyMode panelSrc).run w).Yields
      (fun _ w' => Touches (mayTake (.call (.updateVerifyMode panelSrc)))
        (some (offsetPanel w.globals panelSrc)) w w')
      (Touches (mayTake (.call (.updateVerifyMode panelSrc)))
        (some (offsetPanel w.globals panelSrc)) w) := by
  have frame := touches_frame (mayTake (.call (.updateVerifyMode panelSrc)))
    (some (offsetPanel w.globals panelSrc))
  have counted : incrementPincount.Keeps (Touches (mayTake (.call (.updateVerifyMode panelSrc)))
      (some (offsetPanel w.globals panelSrc))) := by
    apply keeps_bind frame (keeps_readState frame)
    intro t
    exact keeps_ite _ (fun _ => trivial) (touches_assign fun _ => rfl)
  have reset : (assignGlobals fun g => { g with pincount := 0 }).Keeps
      (Touches (mayTake (.call (.updateVerifyMode panelSrc)))
        (some (offsetPanel w.globals panelSrc))) := touches_assign fun _ => rfl
  rw [hkLoginOtpPanelUpdateVerifyMode, bind_run, readState_run, Outcome.andThen_done]
  refine keeps_bind frame (touches_writePanel written_enableKeyboard) (fun _ => ?_) w
  apply keeps_bind frame counted
  intro _
  apply keeps_bind frame (keeps_readState frame)
  intro t
  apply keeps_ite _ _ (touches_finishUpdate _ _ _)
  apply keeps_bind frame (touches_getPin fun v member => ⟨rfl, member⟩)
  intro available
  apply keeps_ite _ _ (touches_finishUpdate _ _ _)
  apply keeps_bind frame (keeps_readState frame)
  intro u
  apply keeps_bind frame (touches_writePanel (written_enterPin u.globals.pincode))
  intro _
  exact keeps_bind frame reset fun _ => keeps_pure frame _

theorem enter_touches (call : GameCall) (w : World) :
    ((enter call).run w).Yields
      (fun _ w' => Touches (mayTake (.call call)) (target (.call call) w.globals) w w')
      (Touches (mayTake (.call call)) (target (.call call) w.globals) w) := by
  have frame := touches_frame (mayTake (.call call)) (target (.call call) w.globals)
  cases call with
  | updateVerifyMode panel => exact touches_updateVerifyMode panel w
  | processConfirmClick panel => exact ⟨rfl, scrubs_refl _ _, rfl, rfl, fun _ => .inl rfl⟩
  | processEvent panel event =>
    rw [enter, processEvent_run]
    split
    · exact ⟨rfl, scrubs_refl _ _, rfl, rfl, fun _ => .inl rfl⟩
    · exact frame.refl w
  | openLoginPanel panel => exact frame.refl w
  | requestLogin args =>
    have first : (assignGlobals fun g => { g with firstrun := false }).Keeps
        (Touches (mayTake (.call (.requestLogin args)))
          (target (.call (.requestLogin args)) w.globals)) := touches_assign fun _ => rfl
    refine keeps_bind frame first (fun _ => ?_) w
    apply keeps_bind frame (keeps_readState frame)
    intro t
    apply keeps_bind frame touches_getServer
    intro any
    apply keeps_ite _ _ (keeps_pure frame _)
    exact keeps_bind frame (keeps_readState frame) fun _ => keeps_pure frame _

theorem resume_touches (value : Address) (frame : Frame) (w : World) :
    ((resume value frame).run w).Yields
      (fun _ w' => Touches (mayTake (.back frame value)) (target (.back frame value) w.globals) w w')
      (Touches (mayTake (.back frame value)) (target (.back frame value) w.globals) w) := by
  cases frame with
  | finishing => exact (touches_frame _ _).refl w
  | autoConfirm panelSrc panelOffset => exact touches_finishUpdate _ panelSrc panelOffset w
  | eventLogin panel event => exact (touches_frame _ _).refl w
  | loginPanelOpened panelOffset => exact (touches_frame _ _).refl w
  | instanceWanted panelOffset =>
    have kept := touches_frame (mayTake (.back (.instanceWanted panelOffset) value)) none
    have interface : (assignGlobals fun g => { g with uiEngineInterfaceInstance := value }).Keeps
        (Touches (mayTake (.back (.instanceWanted panelOffset) value)) none) :=
      touches_assign fun _ => rfl
    refine keeps_bind kept interface (fun _ => ?_) w
    apply keeps_bind kept (touches_getLogin fun _ v member => member)
    intro found
    apply keeps_ite _ _ (keeps_pure kept _)
    exact keeps_bind kept (keeps_readState kept) fun _ => keeps_pure kept _
  | userIdSet panelOffset => exact (touches_frame _ _).refl w

/-- A stretch writes only what its cause allows. -/
def Within (e : Entry) : Prop :=
  ∀ cause before ending after, e = .stretch cause before ending → ending.state? = some after →
    Touches (mayTake cause) (target cause before.globals) before after

private theorem starts_touches {c : Config} {action : Action} {cause : Cause} {stack : List Frame}
    {code : Code Exit} (starts : Starts c action cause stack code) {after : World}
    (left : (code.run c.world).state? = some after) :
    Touches (mayTake cause) (target cause c.world.globals) c.world after := by
  cases starts with
  | call call running hooked => exact (enter_touches call c.world).state left
  | back frame stack value running waiting => exact (resume_touches value frame c.world).state left

private theorem within_stretch {c : Config} {action : Action} {cause : Cause} {stack : List Frame}
    {code : Code Exit} (starts : Starts c action cause stack code) :
    Within (.stretch cause c.world (code.run c.world)) := by
  intro cause' before ending after entry left
  obtain ⟨rfl, rfl, rfl⟩ := Entry.stretch.inj entry
  exact starts_touches starts left

private theorem step_within (c : Config) (action : Action) (inv : ∀ e ∈ c.trace, Within e) :
    ∀ e ∈ (step c action).trace, Within e := by
  rcases step_cases c action with
    ⟨cause, stack, code, starts, stepped⟩ | ⟨call, -, -, stepped⟩ | idle
  · rw [stepped, perform_trace]
    exact List.forall_mem_cons.mpr ⟨within_stretch starts, inv⟩
  · have unseen : Within (.unhooked call) := by
      intro cause before ending after entry
      cases entry
    rw [stepped]
    exact List.forall_mem_cons.mpr ⟨unseen, inv⟩
  · rw [idle.trace]
    exact inv

/-- In every run, no stretch of the plugin writes anything else: not the command line or the
clock, no other variable, no field of another panel. -/
theorem stretches_within (w : World) (actions : List Action) :
    ∀ e ∈ (run step (Config.start w) actions).trace, Within e := by
  have start : ∀ e ∈ (Config.start w).trace, Within e := by
    intro e member
    cases member
  exact run_invariant_always step step_within start actions

private theorem typedPin_nulFree : (0 : WChar) ∉ wide "123456" := by decide

def typedPin : World :=
  hooked { Process.bare with
    environment := Environment.bare.assign .bnsPincode ⟨wide "123456", typedPin_nulFree⟩ }

theorem stretches_within_typedPin : ∃ ending,
    (run step (Config.start typedPin) [.calls (.updateVerifyMode 4096)]).trace =
      [.stretch (.call (.updateVerifyMode 4096)) typedPin ending] ∧
    Within (.stretch (.call (.updateVerifyMode 4096)) typedPin ending) := by
  have newest : (run step (Config.start typedPin) [.calls (.updateVerifyMode 4096)]).trace =
      [.stretch (.call (.updateVerifyMode 4096)) typedPin
        ((enter (.updateVerifyMode 4096)).run typedPin)] := single_trace rfl
  refine ⟨_, newest, stretches_within typedPin [.calls (.updateVerifyMode 4096)] _ ?_⟩
  rw [newest]
  exact List.mem_cons_self

/-- The game leaves the environment alone. -/
def Untampered (c : Config) : Action → Prop
  | .changes process _ => process.environment = c.world.process.environment
  | .calls _ | .returns _ | .throws => True

def mayVanish (keeppin : Bool) (v : Variable) : Prop :=
  v ∈ loginVariables ∨ keeppin = false ∧ v ∈ pinVariables

/-- What the environment has in common with the one at the start. -/
structure Worn (w w' : World) : Prop where
  scrubs : Scrubs (mayVanish w.globals.keeppin) w.process.environment w'.process.environment
  keeppin : w'.globals.keeppin = w.globals.keeppin

private theorem mayTake_vanish {cause : Cause} {keeppin : Bool} {v : Variable}
    (taken : mayTake cause keeppin v) : mayVanish keeppin v := by
  unfold mayTake at taken
  split at taken
  · exact .inr taken
  · exact .inl taken
  · exact taken.elim

private theorem Worn.touched {w w' w'' : World} (worn : Worn w w') {cause : Cause}
    (touches : Touches (mayTake cause) (target cause w'.globals) w' w'') : Worn w w'' := by
  have allowed := touches.scrubs.mono fun v => mayTake_vanish
  rw [worn.keeppin] at allowed
  exact ⟨worn.scrubs.trans allowed, touches.keeppin.trans worn.keeppin⟩

private theorem perform_worn {w : World} {c : Config} {action : Action} {cause : Cause}
    {stack : List Frame} {code : Code Exit} (starts : Starts c action cause stack code)
    (worn : Worn w c.world) : Worn w (c.perform cause stack code).world := by
  rw [perform_world]
  cases left : (code.run c.world).state? with
  | none => exact worn
  | some after => exact worn.touched (starts_touches starts left)

private theorem step_worn {w : World} (c : Config) (action : Action) (worn : Worn w c.world)
    (fit : Untampered c action) : Worn w (step c action).world := by
  rcases step_world_cases c action with
    ⟨cause, stack, code, starts, stepped⟩ | ⟨process, panels, rfl, changed⟩ | same
  · rw [stepped]
    exact perform_worn starts worn
  · have environment : process.environment = c.world.process.environment := fit
    rw [changed]
    exact ⟨by rw [environment]; exact worn.scrubs, worn.keeppin⟩
  · rw [same]
    exact worn

/-- In a run in which the game leaves the environment alone, every variable reads as at the
start, or is one of the five the plugin takes and reads as unset. -/
theorem environment_worn (w : World) (actions : List Action)
    (fit : Along step Untampered (Config.start w) actions) :
    Worn w (run step (Config.start w) actions).world :=
  run_invariant step step_worn ⟨scrubs_refl _ _, rfl⟩ fit

private def renamed : List Action :=
  [.changes { typedPin.process with commandLine := wide "BNSR.exe" } Panels.blank,
    .calls (.updateVerifyMode 4096), .returns 1]

theorem environment_worn_typedPin :
    Along step Untampered (Config.start typedPin) renamed ∧
      Worn typedPin (run step (Config.start typedPin) renamed).world ∧
      (run step (Config.start typedPin) renamed).world.process.environment.value .bnsPincode = [] := by
  have fit : Along step Untampered (Config.start typedPin) renamed :=
    ⟨rfl, trivial, trivial, trivial⟩
  exact ⟨fit, environment_worn typedPin renamed fit, rfl⟩

end LoginHelper.Footprint
