/- Unit: LoginHelper/PanelGuard
   source: hkLoginOtpPanel_updateVerifyMode in src/loginhelper/LoginOtp.h under any game
   digest: The PIN panel as a refresh hands it over: keyboard on, numpad in order, at most four failed attempts. -/

import LoginHelper.Footprint
import LoginHelper.PinSubmission

set_option autoImplicit false
set_option relaxedAutoImplicit false

namespace LoginHelper.PanelGuard

open LoginHelper.Foundation.Execution LoginHelper.Foundation.Runs
open LoginHelper.Data LoginHelper.Calls LoginHelper.LoginOtp LoginHelper.Lobby
open LoginHelper.Hooks LoginHelper.Machine LoginHelper.Footprint
open LoginHelper.PinSubmission (starts_no_confirm)

/-- A panel that can be typed into, with every digit where its number says. -/
structure Typable (panel : LoginOtpPanel) : Prop where
  keyboard : panel.keyboardEnabled = true
  numpad : ∀ k, (panel.otpNumpadList k).numpadValue = k.val

def panelAt (w : World) (panelSrc : Address) : LoginOtpPanel :=
  w.panels.otp (offsetPanel w.globals panelSrc)

/-- Two states of a panel with the same keyboard and numpad. -/
structure SameTyping (panel panel' : LoginOtpPanel) : Prop where
  keyboard : panel'.keyboardEnabled = panel.keyboardEnabled
  numpad : ∀ k, (panel'.otpNumpadList k).numpadValue = (panel.otpNumpadList k).numpadValue

/-- The panel is typable when a refresh first hands control over, be it by an exception. Past
the confirmation the refresh takes keyboard and numpad as the game has left them. The original
refresh never sees more than four failed attempts. -/
structure Guards (e : Entry) : Prop where
  typable : ∀ panel before ending after,
    e = .stretch (.call (.updateVerifyMode panel)) before ending → ending.state? = some after →
      Typable (panelAt after panel)
  kept : ∀ panel panelOffset value before exit after,
    e = .stretch (.back (.autoConfirm panel panelOffset) value) before (.done exit after) →
      SameTyping (panelAt before panel) (panelAt after panel)
  few : ∀ cause before panel rest after,
    e = .stretch cause before (.done (.calls (.updateVerifyMode panel) rest) after) →
      (panelAt after panel).verifyFailCount ≤ 4

theorem guarded_few (panel : LoginOtpPanel) : (guarded panel).verifyFailCount ≤ 4 := by
  unfold guarded
  split
  case isTrue => exact (by decide : (1 : Int) ≤ 4)
  case isFalse few => exact Int.not_lt.mp few

private theorem guarded_typing (panel : LoginOtpPanel) : SameTyping panel (guarded panel) := by
  unfold guarded
  split
  case isTrue => exact ⟨rfl, fun _ => rfl⟩
  case isFalse => exact ⟨rfl, fun _ => rfl⟩

private theorem SameTyping.typable {panel panel' : LoginOtpPanel} (same : SameTyping panel panel')
    (typable : Typable panel) : Typable panel' :=
  ⟨same.keyboard.trans typable.keyboard, fun k => (same.numpad k).trans (typable.numpad k)⟩

private theorem Typable.enterPin {panel : LoginOtpPanel} (typable : Typable panel)
    (pincode : Fin 6 → Int) : Typable (enterPin pincode panel) :=
  ⟨typable.keyboard, typable.numpad⟩

private theorem refreshed_typable (w : World) (panelSrc : Address) :
    Typable ((refreshed w panelSrc).panels.otp (offsetPanel w.globals panelSrc)) := by
  have written : (refreshed w panelSrc).panels.otp (offsetPanel w.globals panelSrc) =
      enableKeyboard (w.panels.otp (offsetPanel w.globals panelSrc)) := withOtpPanel_same ..
  rw [written]
  exact ⟨rfl, enableKeyboard_numpad _⟩

private def Refreshed (panelSrc a : Address) (exit : Exit) (w' : World) : Prop :=
  Typable (w'.panels.otp a) ∧
    (∀ rest, exit = .calls (.updateVerifyMode panelSrc) rest → (w'.panels.otp a).verifyFailCount ≤ 4)

private theorem finishUpdate_refreshed {panelSrc a : Address} {w : World}
    (typable : Typable (w.panels.otp a)) :
    ((finishUpdate panelSrc a).run w).Yields (Refreshed panelSrc a)
      fun t => Typable (t.panels.otp a) := by
  rw [finishUpdate_guards, Outcome.Yields, Refreshed, withOtpPanel_same]
  exact ⟨(guarded_typing _).typable typable, fun _ _ => guarded_few _⟩

private theorem updateVerifyMode_refreshed (panelSrc : Address) (w : World) :
    ((hkLoginOtpPanelUpdateVerifyMode panelSrc).run w).Yields
      (Refreshed panelSrc (offsetPanel w.globals panelSrc))
      fun t => Typable (t.panels.otp (offsetPanel w.globals panelSrc)) := by
  have start := refreshed_typable w panelSrc
  rw [updateVerifyMode_run]
  split
  case isTrue => trivial
  split
  case isFalse => exact finishUpdate_refreshed start
  case isTrue =>
    have frame := getPin_frame (refreshed w panelSrc)
    cases read : getPin.run (refreshed w panelSrc) with
    | undefined u => trivial
    | threw e t =>
      -- the secret was refused, with the panel opened already
      rw [read] at frame
      have panels : t.panels = (refreshed w panelSrc).panels := frame.1
      show Typable _
      rw [panels]
      exact start
    | done available t =>
      rw [read] at frame
      have panels : t.panels = (refreshed w panelSrc).panels := frame.1
      rw [← panels] at start
      rw [Outcome.andThen_done]
      split
      · have entered : (confirmed t (offsetPanel w.globals panelSrc)).panels.otp
            (offsetPanel w.globals panelSrc) = enterPin t.globals.pincode
              (t.panels.otp (offsetPanel w.globals panelSrc)) := withOtpPanel_same ..
        refine ⟨?_, nofun⟩
        rw [entered]
        exact start.enterPin _
      · exact finishUpdate_refreshed start

theorem CauseChanges.uiPanelOffset {cause : Cause} {w w' : World} (h : CauseChanges cause w w') :
    w'.globals.uiPanelOffset = w.globals.uiPanelOffset := by
  cases cause with
  | call call =>
    obtain ⟨_, _, _, _, _, globals, -⟩ := EnterChanges.fields h
    rw [globals]
  | back frame value =>
    obtain ⟨_, _, _, _, globals⟩ := h.login
    rw [globals]

/-- Each refresh that waits for its confirmation has the panel of its caller. -/
structure Invariant (offset : BitVec 32) (c : Config) : Prop where
  constant : c.world.globals.uiPanelOffset = offset
  frames : ∀ panelSrc a, .autoConfirm panelSrc a ∈ c.stack → a = panelSrc + offset.signExtend 64
  guards : ∀ e ∈ c.trace, Guards e

private theorem Invariant.here {offset : BitVec 32} {c : Config} (inv : Invariant offset c)
    {panelSrc a : Address} {stack : List Frame} (waiting : c.stack = .autoConfirm panelSrc a :: stack) :
    a = offsetPanel c.world.globals panelSrc := by
  rw [inv.frames panelSrc a (by rw [waiting]; exact List.mem_cons_self), ← inv.constant]
  rfl

private theorem starts_offset {c : Config} {action : Action} {cause : Cause} {stack : List Frame}
    {code : Code Exit} (starts : Starts c action cause stack code) {w : World}
    (known : (code.run c.world).state? = some w) :
    w.globals.uiPanelOffset = c.world.globals.uiPanelOffset :=
  CauseChanges.uiPanelOffset ((starts.changes c.world).state known)

private theorem updates_cause {c : Config} {action : Action} {cause : Cause} {stack : List Frame}
    {code : Code Exit} (starts : Starts c action cause stack code) {panel : Address} {rest : Frame}
    {w : World} (run : code.run c.world = .done (.calls (.updateVerifyMode panel) rest) w) :
    cause = .call (.updateVerifyMode panel) ∨
      ∃ panelOffset value, cause = .back (.autoConfirm panel panelOffset) value := by
  cases starts with
  | call call running hooked =>
    obtain ⟨out, rest', same, leaves⟩ := enter_leaves run
    obtain ⟨rfl, rfl⟩ := Exit.calls.inj same
    cases call with
    | updateVerifyMode panelSrc =>
      rcases updateVerifyMode_leaves run with same | same
      · cases same
        exact .inl rfl
      · cases same
    | processConfirmClick panelSrc => cases leaves
    | processEvent panelSrc event => cases leaves
    | openLoginPanel panelSrc => cases leaves
    | requestLogin args => cases leaves
  | back frame stack value running waiting =>
    cases frame with
    | autoConfirm panelSrc panelOffset =>
      cases finishUpdate_leaves run
      exact .inr ⟨panelOffset, value, rfl⟩
    | finishing => cases (Outcome.done.inj run).1
    | eventLogin panelSrc event => cases (Outcome.done.inj run).1
    | loginPanelOpened panelOffset => cases (Outcome.done.inj run).1
    | instanceWanted panelOffset =>
      rcases fillLoginPanel_leaves run with same | ⟨out, same, leaves⟩
      · cases same
      · cases same
        cases leaves
    | userIdSet panelOffset => cases (Outcome.done.inj run).1

private theorem stretch_guards {offset : BitVec 32} {c : Config} {action : Action} {cause : Cause}
    {stack : List Frame} {code : Code Exit} (starts : Starts c action cause stack code)
    (inv : Invariant offset c) : Guards (.stretch cause c.world (code.run c.world)) := by
  have here {after : World} (known : (code.run c.world).state? = some after)
      (panelSrc : Address) : offsetPanel after.globals panelSrc =
        offsetPanel c.world.globals panelSrc := by
    rw [offsetPanel, offsetPanel, starts_offset starts known]
  have same {exit : Exit} {after : World} (run : code.run c.world = .done exit after)
      (panelSrc : Address) := here (by rw [run]; rfl : _ = some after) panelSrc
  constructor
  · intro panel before ending after entry known
    obtain ⟨rfl, rfl, rfl⟩ := Entry.stretch.inj entry
    rw [panelAt, here known]
    cases starts with
    | call call running hooked =>
      exact ((updateVerifyMode_refreshed panel c.world).mono (fun _ _ left => left.1)
        fun _ typable => typable).state known
  · intro panel panelOffset value before exit after entry
    obtain ⟨rfl, rfl, run⟩ := Entry.stretch.inj entry
    rw [panelAt, panelAt, same run]
    cases starts with
    | back frame stack value running waiting =>
      have ended : (finishUpdate panel panelOffset).run c.world = _ := run
      rw [finishUpdate_guards] at ended
      obtain ⟨-, rfl⟩ := Outcome.done.inj ended
      rw [← inv.here waiting, withOtpPanel_same]
      exact guarded_typing _
  · intro cause' before panel rest after entry
    obtain ⟨rfl, rfl, run⟩ := Entry.stretch.inj entry
    rw [panelAt, same run]
    rcases updates_cause starts run with rfl | ⟨panelOffset, value, rfl⟩
    · cases starts with
      | call call running hooked =>
        have left := updateVerifyMode_refreshed panel c.world
        rw [show (hkLoginOtpPanelUpdateVerifyMode panel).run c.world = _ from run] at left
        exact left.2 rest rfl
    · cases starts with
      | back frame stack value running waiting =>
        have ended : (finishUpdate panel panelOffset).run c.world = _ := run
        rw [finishUpdate_guards] at ended
        obtain ⟨-, rfl⟩ := Outcome.done.inj ended
        rw [← inv.here waiting, withOtpPanel_same]
        exact guarded_few _

private theorem perform_frames {offset : BitVec 32} {c : Config} {action : Action} {cause : Cause}
    {stack : List Frame} {code : Code Exit} (starts : Starts c action cause stack code)
    (inv : Invariant offset c) (panelSrc a : Address)
    (waits : .autoConfirm panelSrc a ∈ (c.perform cause stack code).stack) :
    a = panelSrc + offset.signExtend 64 := by
  rcases perform_stack waits with below | ⟨out, w, run⟩
  · cases starts with
    | call call running hooked => exact inv.frames panelSrc a below
    | back frame stack value running waiting =>
      exact inv.frames panelSrc a (by rw [waiting]; exact List.mem_cons_of_mem _ below)
  · by_cases refresh : ∃ panel, cause = .call (.updateVerifyMode panel)
    · obtain ⟨panel, rfl⟩ := refresh
      cases starts with
      | call call running hooked =>
        rcases updateVerifyMode_leaves run with same | same
        · cases same
        · cases same
          rw [← inv.constant]
          rfl
    · exact absurd run (starts_no_confirm starts (not_exists.mp refresh) out panelSrc a w)

private theorem perform_invariant {offset : BitVec 32} {c : Config} {action : Action} {cause : Cause}
    {stack : List Frame} {code : Code Exit} (starts : Starts c action cause stack code)
    (inv : Invariant offset c) : Invariant offset (c.perform cause stack code) := by
  refine ⟨?_, perform_frames starts inv, ?_⟩
  · rcases starts.world with changes | ⟨same, -⟩
    · exact (CauseChanges.uiPanelOffset changes).trans inv.constant
    · rw [same]
      exact inv.constant
  · rw [perform_trace]
    exact List.forall_mem_cons.mpr ⟨stretch_guards starts inv, inv.guards⟩

private theorem step_invariant {offset : BitVec 32} (c : Config) (action : Action)
    (inv : Invariant offset c) : Invariant offset (step c action) := by
  rcases step_cases c action with
    ⟨cause, stack, code, starts, stepped⟩ | ⟨call, -, -, stepped⟩ | idle
  · rw [stepped]
    exact perform_invariant starts inv
  · have unseen : Guards (.unhooked call) :=
      ⟨fun _ _ _ _ entry _ => (by cases entry), fun _ _ _ _ _ _ entry => (by cases entry),
        fun _ _ _ _ _ entry => (by cases entry)⟩
    rw [stepped]
    exact ⟨inv.constant, inv.frames, List.forall_mem_cons.mpr ⟨unseen, inv.guards⟩⟩
  · refine ⟨by rw [idle.globals]; exact inv.constant, ?_, by rw [idle.trace]; exact inv.guards⟩
    intro panelSrc a waits
    exact inv.frames panelSrc a (idle.stack _ waits)

/-- In every run, also one that calls back into the hooks while they wait, the panel is typable
when a refresh first hands control over, keyboard and numpad are left to the game after that,
and the original refresh is never called with more than four failed attempts on the panel. -/
theorem panel_guarded (w : World) (actions : List Action) :
    ∀ e ∈ (run step (Config.start w) actions).trace, Guards e := by
  have start : Invariant w.globals.uiPanelOffset (Config.start w) :=
    ⟨rfl, fun _ _ waits => (by cases waits), fun _ member => (by cases member)⟩
  exact (run_invariant_always step step_invariant start actions).guards

/-- The panel is refreshed, and the game turns its keyboard off while the confirmation runs. -/
private def turnedOff : List Action :=
  [.calls (.updateVerifyMode 4096), .changes typedPin.process Panels.blank, .returns 1]

theorem panel_guarded_typedPin : ∃ ending before ending',
    (run step (Config.start typedPin) turnedOff).trace =
      [.stretch (.back (.autoConfirm 4096 4096) 1) before ending',
        .stretch (.call (.updateVerifyMode 4096)) typedPin ending] ∧
    Guards (.stretch (.call (.updateVerifyMode 4096)) typedPin ending) ∧
    Guards (.stretch (.back (.autoConfirm 4096 4096) 1) before ending') := by
  refine ⟨_, _, _, rfl, ?_, ?_⟩
  · exact panel_guarded typedPin turnedOff _ (List.mem_cons_of_mem _ List.mem_cons_self)
  · exact panel_guarded typedPin turnedOff _ List.mem_cons_self

end LoginHelper.PanelGuard
