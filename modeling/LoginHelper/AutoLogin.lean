/- Unit: LoginHelper/AutoLogin
   source: firstrun in src/loginhelper/Lobby.h, and the searches of src/loginhelper/dllmain.cpp
   digest: When the first login request ends the automatic login, over every run after the notification. -/

import LoginHelper.HookClosure
import LoginHelper.Machine

set_option autoImplicit false
set_option relaxedAutoImplicit false

namespace LoginHelper.AutoLogin

open LoginHelper.Foundation.Execution LoginHelper.Foundation.Runs
open LoginHelper.Data LoginHelper.Calls LoginHelper.Lobby LoginHelper.Hooks LoginHelper.Dllmain
open LoginHelper.HookClosure LoginHelper.Machine

/-- The game calls `Lobby::RequestLogin`, hooked or not. -/
def IsRequest : Entry → Prop
  | .stretch (.call (.requestLogin _)) _ _ => True
  | .unhooked (.requestLogin _) => True
  | _ => False

def Requested (past : List Entry) : Prop := ∃ e ∈ past, IsRequest e

/-- A stretch calls `processLogin`, or sets `pincount` to another value. -/
def LogsInOrResets (before : World) (ending : Ending Exit) : Prop :=
  ∃ exit w', ending = .done exit w' ∧
    ((∃ panel rest, exit = .calls (.processLogin panel) rest) ∨
      w'.globals.pincount ≠ before.globals.pincount)

def Quiet (e : Entry) (past : List Entry) : Prop :=
  ∀ panel event before ending, e = .stretch (.call (.processEvent panel event)) before ending →
    Requested past → ¬ LogsInOrResets before ending

/-- The automatic login ends with the first login request, in every run after a
notification with this module. -/
def AutoLoginEnds (m : Module) : Prop :=
  ∀ w, Notified m w → ∀ actions, Throughout Quiet (run step (Config.start w) actions).trace

/-- Once a request has been seen, the flag is down, unless the run is over or there
is no hook that would look at it. -/
structure Invariant (attached : Hook → Bool) (c : Config) : Prop where
  hooks : c.world.globals.attached = attached
  flag : Requested c.trace → c.stopped = true ∨ c.world.globals.firstrun = false ∨
    attached .titleLoginPanelProcessEvent = false
  quiet : Throughout Quiet c.trace

private theorem processEvent_quiet {panel event : Address} {w : World}
    (down : w.globals.firstrun = false) :
    ¬ LogsInOrResets w ((enter (.processEvent panel event)).run w) := by
  rw [enter, processEvent_run, if_neg (by rw [down]; decide)]
  rintro ⟨exit, w', ended, login | reset⟩
  · obtain ⟨p, rest, same⟩ := login
    obtain ⟨rfl, -⟩ := Outcome.done.inj ended
    cases same
  · obtain ⟨-, rfl⟩ := Outcome.done.inj ended
    exact reset rfl

private theorem CauseChanges.firstrun {cause : Cause} {w w' : World} (h : CauseChanges cause w w') :
    w'.globals.firstrun = w.globals.firstrun ∨ w'.globals.firstrun = false := by
  cases cause with
  | back frame value =>
    obtain ⟨_, _, _, _, globals⟩ := h.login
    rw [globals]
    exact .inl rfl
  | call call =>
    obtain ⟨_, _, _, _, _, globals, down⟩ := EnterChanges.fields h
    rw [globals]
    exact down

private theorem requested_cons {e : Entry} {past : List Entry} :
    Requested (e :: past) ↔ IsRequest e ∨ Requested past := by
  simp [Requested]

private theorem IsRequest.stretch {cause : Cause} {before : World} {ending : Ending Exit}
    (request : IsRequest (.stretch cause before ending)) :
    ∃ args, cause = .call (.requestLogin args) := by
  cases cause with
  | back frame value => cases request
  | call call =>
    cases call with
    | requestLogin args => exact ⟨args, rfl⟩
    | updateVerifyMode panel => cases request
    | processConfirmClick panel => cases request
    | processEvent panel event => cases request
    | openLoginPanel panel => cases request

private theorem IsRequest.unhooked {call : GameCall} (request : IsRequest (.unhooked call)) :
    ∃ args, call = .requestLogin args := by
  cases call with
  | requestLogin args => exact ⟨args, rfl⟩
  | updateVerifyMode panel => cases request
  | processConfirmClick panel => cases request
  | processEvent panel event => cases request
  | openLoginPanel panel => cases request

private theorem perform_flag {c : Config} {action : Action} {cause : Cause} {stack : List Frame}
    {code : Code Exit} (starts : Starts c action cause stack code)
    (lowered : (∃ args, cause = .call (.requestLogin args)) ∨ c.world.globals.firstrun = false) :
    (c.perform cause stack code).stopped = true ∨
      (c.perform cause stack code).world.globals.firstrun = false := by
  rcases starts.world with changes | ⟨-, fault⟩
  · refine .inr ?_
    rcases lowered with ⟨args, rfl⟩ | down
    · obtain ⟨_, globals⟩ := changes
      rw [globals]
    · rcases CauseChanges.firstrun changes with same | lowered
      · exact same.trans down
      · exact lowered
  · exact .inl fault

private theorem perform_invariant {attached : Hook → Bool} {c : Config} {action : Action}
    {cause : Cause} {stack : List Frame} {code : Code Exit}
    (starts : Starts c action cause stack code) (inv : Invariant attached c)
    (hooks : (c.perform cause stack code).world.globals.attached = attached) :
    Invariant attached (c.perform cause stack code) := by
  have running : ¬ c.stopped = true := by rw [starts.running]; decide
  refine ⟨hooks, ?_, ?_⟩
  · rw [perform_trace, requested_cons]
    rintro (request | before)
    · exact (perform_flag starts (.inl request.stretch)).imp_right .inl
    · rcases inv.flag before with halted | down | loose
      · exact absurd halted running
      · exact (perform_flag starts (.inr down)).imp_right .inl
      · exact .inr (.inr loose)
  · rw [perform_trace]
    refine ⟨?_, inv.quiet⟩
    intro panel event before ending entry seen
    obtain ⟨rfl, rfl, rfl⟩ := Entry.stretch.inj entry
    cases starts with
    | call call running' hooked =>
      rcases inv.flag seen with halted | down | loose
      · exact absurd halted running
      · exact processEvent_quiet down
      · have seen : attached .titleLoginPanelProcessEvent = true := by
          rw [← inv.hooks]
          exact hooked
        rw [loose] at seen
        cases seen

private theorem unhooked_invariant {attached : Hook → Bool}
    (both : attached .titleLoginPanelProcessEvent = true → attached .lobbyRequestLogin = true)
    {c : Config} {call : GameCall} (loose : c.world.globals.attached call.hook = false)
    (inv : Invariant attached c) :
    Invariant attached { c with trace := .unhooked call :: c.trace } := by
  refine ⟨inv.hooks, ?_, fun _ _ _ _ entry => Entry.noConfusion entry, inv.quiet⟩
  rw [requested_cons]
  rintro (request | before)
  · obtain ⟨args, rfl⟩ := request.unhooked
    refine .inr (.inr ?_)
    have missing : attached .lobbyRequestLogin = false := by
      rw [← inv.hooks]
      exact loose
    cases event : attached .titleLoginPanelProcessEvent with
    | false => rfl
    | true =>
      rw [both event] at missing
      cases missing
  · exact inv.flag before

private theorem step_invariant {attached : Hook → Bool}
    (both : attached .titleLoginPanelProcessEvent = true → attached .lobbyRequestLogin = true)
    (c : Config) (action : Action) (inv : Invariant attached c) :
    Invariant attached (step c action) := by
  have hooks := (step_attached c action).trans inv.hooks
  rcases step_cases c action with
    ⟨cause, stack, code, starts, stepped⟩ | ⟨call, rfl, loose, stepped⟩ | idle
  · rw [stepped] at hooks ⊢
    exact perform_invariant starts inv hooks
  · rw [stepped]
    exact unhooked_invariant both loose inv
  · refine ⟨hooks, ?_, by rw [idle.trace]; exact inv.quiet⟩
    rw [idle.trace, idle.stopped, idle.globals]
    exact inv.flag

private theorem event_after_unhooked {w : World} (fresh : w.globals.Fresh)
    (event : w.globals.attached .titleLoginPanelProcessEvent = true)
    (request : w.globals.attached .lobbyRequestLogin = false) (args : LobbyLogin UInt16) :
    ¬ Throughout Quiet
      (run step (Config.start w) [.calls (.requestLogin args), .calls (.processEvent 4096 8192)]).trace := by
  have first : step (Config.start w) (.calls (.requestLogin args)) =
      { Config.start w with trace := [.unhooked (.requestLogin args)] } := by
    have hooked : (Config.start w).world.globals.attached
      (GameCall.hook (.requestLogin args)) = false := request
    simp only [step, hooked]
    rfl
  have second : (run step (Config.start w)
      [.calls (.requestLogin args), .calls (.processEvent 4096 8192)]).trace =
        [.stretch (.call (.processEvent 4096 8192)) w ((enter (.processEvent 4096 8192)).run w),
          .unhooked (.requestLogin args)] := by
    rw [run_cons, first, run_cons, run_nil]
    have hooked : w.globals.attached (GameCall.hook (.processEvent 4096 8192)) = true := event
    simp only [step, Config.start, hooked]
    exact perform_trace _ _ _ _
  rw [second]
  rintro ⟨quiet, -⟩
  apply quiet 4096 8192 _ _ rfl ⟨_, List.mem_singleton_self _, trivial⟩
  rw [enter, processEvent_run, if_pos fresh.firstrun]
  exact ⟨_, _, rfl, .inl ⟨4096, _, rfl⟩⟩

private theorem not_ends {m : Module} (event : Found m .titleLoginPanelProcessEvent)
    (missing : ¬ Found m .lobbyRequestLogin) : ¬ AutoLoginEnds m := by
  intro ends
  obtain ⟨w, notified⟩ := notified_exists m
  have request : w.globals.attached .lobbyRequestLogin = false := by
    rw [← Bool.not_eq_true, notified_attached notified]
    exact missing
  exact event_after_unhooked (notified_fresh notified) ((notified_attached notified _).mpr event)
    request ⟨4096, .ofGame 1, 0, 0, .ofGame 2, .ofGame 3, 0, .ofGame 4, .ofGame 5⟩ (ends w notified _)

/-- The first login request ends the automatic login exactly when the search for the
request has found it, or the one for the event has not. -/
theorem autoLoginEnds_iff (m : Module) :
    AutoLoginEnds m ↔
      (Found m .titleLoginPanelProcessEvent → Found m .lobbyRequestLogin) := by
  constructor
  · intro ends event
    by_contra missing
    exact not_ends event missing ends
  · intro both w notified actions
    have start : Invariant w.globals.attached (Config.start w) :=
      ⟨rfl, fun ⟨_, member, _⟩ => absurd member List.not_mem_nil, trivial⟩
    refine (run_invariant_always step (step_invariant fun event => ?_) start actions).quiet
    exact (notified_attached notified .lobbyRequestLogin).mpr
      (both ((notified_attached notified .titleLoginPanelProcessEvent).mp event))

/-- A section with the login panel's functions in it, and the lobby's changed. -/
def lobbyChanged : Module :=
  moduleOf [0x48, 0x8B, 0xC4, 0x55, 0x57, 0x41, 0x56, 0x48, 0x8D, 0x68, 0xA8, 0x48, 0x81, 0xEC, 0x40,
    0x01, 0x00, 0x00, 0x48, 0xC7, 0x44, 0x24, 0x68, 0xFE, 0xFF, 0xFF, 0xFF,
    0x48, 0x89, 0x5C, 0x24, 0x08, 0x57, 0x48, 0x83, 0xEC, 0x20, 0x48, 0x8B, 0xFA, 0x48, 0x8B,
    0xD9, 0xFF, 0x15, 0x10, 0x20, 0x30, 0x00, 0x4C, 0x8B, 0xC8]

/-- There every event of the title login panel logs in again. -/
theorem lobbyChanged_not_ends : Found lobbyChanged .titleLoginPanelProcessEvent ∧
    Found lobbyChanged .titleLoginPanelProcessLogin ∧ ¬ AutoLoginEnds lobbyChanged := by
  have event : Found lobbyChanged .titleLoginPanelProcessEvent := by
    unfold Found
    decide +kernel
  have login : Found lobbyChanged .titleLoginPanelProcessLogin := by
    unfold Found
    decide +kernel
  have missing : ¬ Found lobbyChanged .lobbyRequestLogin := by
    unfold Found
    decide +kernel
  exact ⟨event, login, not_ends event missing⟩

end LoginHelper.AutoLogin
