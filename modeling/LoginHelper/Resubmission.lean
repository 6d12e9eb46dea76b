/- Unit: LoginHelper/Resubmission
   source: pincount in src/loginhelper/LoginOtp.h and src/loginhelper/Lobby.h
   digest: How often the stored PIN is confirmed between two resets, over every run of the hooks. -/

import LoginHelper.PinSubmission

set_option autoImplicit false
set_option relaxedAutoImplicit false

namespace LoginHelper.Resubmission

open LoginHelper.Foundation.Execution LoginHelper.Foundation.Runs
open LoginHelper.Windows.ProcessEnvironment
open LoginHelper.Data LoginHelper.Calls LoginHelper.LoginOtp LoginHelper.PinSource
open LoginHelper.Hooks LoginHelper.Machine LoginHelper.PinSubmission

def Confirms (e : Entry) : Prop := ∃ panel, AutoConfirms e panel

def Refreshes (e : Entry) : Prop :=
  ∃ panelSrc before ending, e = .stretch (.call (.updateVerifyMode panelSrc)) before ending

/-- The game or the user clicks, or an event of the title login panel resets the counter. -/
def Resets : Entry → Prop
  | .stretch (.call (.processConfirmClick _)) _ _ => True
  | .unhooked (.processConfirmClick _) => True
  | .stretch (.call (.processEvent _ _)) before _ => before.globals.firstrun = true
  | _ => False

def Pending : List Entry → Prop
  | [] => False
  | e :: past => Confirms e ∨ ¬ Resets e ∧ Pending past

def JustConfirmed : List Entry → Prop
  | [] => False
  | e :: past => Confirms e ∨ ¬ Resets e ∧ ¬ Refreshes e ∧ JustConfirmed past

/-- An automatic confirmation is the first since the last reset. -/
def Once (e : Entry) (past : List Entry) : Prop := Confirms e → ¬ Pending past

/-- `GetPin` has no PIN to give: it has the mark for none, or nothing cached and no
source that holds one. -/
def NoPin (w : World) : Prop :=
  w.globals.firstDigit = -2 ∨
    w.globals.firstDigit = -1 ∧ SourceFit w ∧ ∀ pin, ¬ ChosenPin w pin

/-- The refresh next after an automatic confirmation finds a failed attempt, or no PIN. -/
def FitRefresh (c : Config) (action : Action) : Prop :=
  ∀ panelSrc, action = .calls (.updateVerifyMode panelSrc) → c.stopped = false →
    c.world.globals.attached .loginOtpPanelUpdateVerifyMode = true → JustConfirmed c.trace →
    (c.world.panels.otp (offsetPanel c.world.globals panelSrc)).verifyFailCount ≠ 0 ∨ NoPin c.world

theorem getPin_none {w : World} (none : NoPin w) (t : World) : getPin.run w ≠ .done true t := by
  intro run
  rcases none with absent | ⟨uncached, fit, nothing⟩
  · rw [getPin_cached (by rw [absent]; decide), absent] at run
    exact absurd (Outcome.done.inj run).1 (by decide)
  · rw [getPin_uncached uncached] at run
    have read := readPin_run w fit
    rw [run] at read
    cases read with
    | pin t pin chosen stored text => exact nothing pin chosen

/-- The ways a refresh ends, by what it does to the counter. -/
inductive Counted (w : World) (panelSrc : Address) : Ending Exit → Prop
  | fault (u : Fault) : Counted w panelSrc (.undefined u)
  | threw (e : Windows.Runtime.StdException) (t : World)
      (counted : t.globals.pincount = w.globals.pincount + 1) : Counted w panelSrc (.threw e t)
  | passed (t : World) (counted : t.globals.pincount = w.globals.pincount + 1) :
      Counted w panelSrc (.done (.calls (.updateVerifyMode panelSrc) .finishing) t)
  | confirmed (t : World) (panelOffset : Address) (first : FirstRefresh w panelSrc)
      (pin : ¬ NoPin w) (reset : t.globals.pincount = 0) :
      Counted w panelSrc (.done (.calls (.processConfirmClick panelSrc)
        (.autoConfirm panelSrc panelOffset)) t)

private theorem finishUpdate_counted {w t : World}
    (counted : t.globals.pincount = w.globals.pincount + 1) (panelSrc panelOffset : Address) :
    Counted w panelSrc ((finishUpdate panelSrc panelOffset).run t) := by
  obtain ⟨u, run, globals, -⟩ := finishUpdate_run panelSrc panelOffset t
  rw [run]
  exact .passed u (by rw [globals]; exact counted)

theorem updateVerifyMode_counted (panelSrc : Address) (w : World) :
    Counted w panelSrc ((hkLoginOtpPanelUpdateVerifyMode panelSrc).run w) := by
  rw [updateVerifyMode_run]
  split
  · exact .fault _
  split
  case isFalse => exact finishUpdate_counted rfl _ _
  case isTrue first =>
    have frame := getPin_frame (refreshed w panelSrc)
    cases ending : getPin.run (refreshed w panelSrc) with
    | undefined u => exact .fault u
    | threw e t =>
      rw [ending] at frame
      obtain ⟨-, _, _, globals⟩ := frame
      exact .threw e t (by rw [globals]; rfl)
    | done available t =>
      rw [ending] at frame
      obtain ⟨-, _, _, globals⟩ := frame
      rw [Outcome.andThen_done]
      cases available with
      | true =>
        exact .confirmed _ _ first
          (fun none => getPin_none (show NoPin (refreshed w panelSrc) from none) t ending) rfl
      | false => exact finishUpdate_counted (by rw [globals]; rfl) _ _

/-- While a confirmation waits for its answer the counter is past the first refresh,
except right after the confirmation, which has reset it. -/
structure Invariant (c : Config) : Prop where
  count : c.stopped = true ∨ 0 ≤ c.world.globals.pincount ∧
    (Pending c.trace → JustConfirmed c.trace ∨ 1 ≤ c.world.globals.pincount)
  once : Throughout Once c.trace

/-- An entry that neither confirms nor refreshes, and leaves the counter alone unless it
resets it. -/
structure Passive (e : Entry) (before after : Int) : Prop where
  confirms : ¬ Confirms e
  refreshes : ¬ Refreshes e
  count : after = before ∨ Resets e ∧ after = 0

private theorem Invariant.passive {c c' : Config} {e : Entry} (inv : Invariant c)
    (running : c.stopped = false)
    (passive : Passive e c.world.globals.pincount c'.world.globals.pincount)
    (trace : c'.trace = e :: c.trace) : Invariant c' := by
  obtain ⟨positive, waiting⟩ : 0 ≤ c.world.globals.pincount ∧ _ :=
    inv.count.resolve_left (by rw [running]; decide)
  refine ⟨.inr ⟨?_, ?_⟩, ?_⟩
  · rcases passive.count with same | ⟨-, zero⟩ <;> omega
  · rw [trace]
    rintro (confirms | ⟨unreset, before⟩)
    · exact absurd confirms passive.confirms
    · rcases passive.count with same | ⟨reset, -⟩
      · rw [same]
        exact (waiting before).imp_left fun just => .inr ⟨unreset, passive.refreshes, just⟩
      · exact absurd reset unreset
  · rw [trace]
    exact ⟨fun confirms => absurd confirms passive.confirms, inv.once⟩

private theorem not_confirms {cause : Cause} {before : World} {ending : Ending Exit}
    (quiet : ∀ out panelSrc panelOffset t,
      ending ≠ .done (.calls out (.autoConfirm panelSrc panelOffset)) t) :
    ¬ Confirms (.stretch cause before ending) := by
  rintro ⟨panel, _, _, out, panelSrc, panelOffset, t, entry, -⟩
  exact quiet out panelSrc panelOffset t (Entry.stretch.inj entry).2.2

private theorem not_refreshes {cause : Cause} {before : World} {ending : Ending Exit}
    (other : ∀ panelSrc, cause ≠ .call (.updateVerifyMode panelSrc)) :
    ¬ Refreshes (.stretch cause before ending) := by
  rintro ⟨panelSrc, _, _, entry⟩
  exact other panelSrc (Entry.stretch.inj entry).1

private theorem pincount_other {cause : Cause} {w w' : World} (h : CauseChanges cause w w')
    (other : ∀ panelSrc, cause ≠ .call (.updateVerifyMode panelSrc)) (ending : Ending Exit) :
    w'.globals.pincount = w.globals.pincount ∨
      Resets (.stretch cause w ending) ∧ w'.globals.pincount = 0 := by
  cases cause with
  | back frame value =>
    obtain ⟨_, _, _, _, globals⟩ := h.login
    rw [globals]
    exact .inl rfl
  | call call =>
    cases call with
    | updateVerifyMode panel => exact absurd rfl (other panel)
    | processConfirmClick panel => exact .inr ⟨trivial, by rw [show w'.globals = _ from h]⟩
    | processEvent panel event =>
      have globals : w'.globals = _ := h
      cases first : w.globals.firstrun with
      | true => exact .inr ⟨first, by rw [globals]; simp [first]⟩
      | false => exact .inl (by rw [globals]; simp [first])
    | openLoginPanel panel => exact .inl (by rw [show w' = w from h])
    | requestLogin args =>
      obtain ⟨_, globals⟩ := h
      rw [globals]
      exact .inl rfl

private theorem other_invariant {c : Config} {action : Action} {cause : Cause} {stack : List Frame}
    {code : Code Exit} (starts : Starts c action cause stack code) (inv : Invariant c)
    (other : ∀ panelSrc, cause ≠ .call (.updateVerifyMode panelSrc)) :
    Invariant (c.perform cause stack code) := by
  have silent : ¬ Confirms (.stretch cause c.world (code.run c.world)) :=
    not_confirms (starts_no_confirm starts other)
  rcases starts.world with changes | ⟨-, fault⟩
  · exact inv.passive starts.running ⟨silent, not_refreshes other, pincount_other changes other _⟩
      (perform_trace c cause stack code)
  · refine ⟨.inl fault, ?_⟩
    rw [perform_trace]
    exact ⟨fun confirms => absurd confirms silent, inv.once⟩

private theorem counted_invariant {c c' : Config} {e : Entry} (inv : Invariant c)
    (running : c.stopped = false) (silent : ¬ Confirms e)
    (counted : c'.world.globals.pincount = c.world.globals.pincount + 1)
    (trace : c'.trace = e :: c.trace) : Invariant c' := by
  obtain ⟨positive, -⟩ : 0 ≤ c.world.globals.pincount ∧ _ :=
    inv.count.resolve_left (by rw [running]; decide)
  refine ⟨.inr ⟨by omega, fun _ => .inr (by omega)⟩, ?_⟩
  rw [trace]
  exact ⟨fun confirms => absurd confirms silent, inv.once⟩

private theorem refresh_invariant {c : Config} {panelSrc : Address} {stack : List Frame}
    (inv : Invariant c) (running : c.stopped = false)
    (fit : JustConfirmed c.trace →
      (c.world.panels.otp (offsetPanel c.world.globals panelSrc)).verifyFailCount ≠ 0 ∨
        NoPin c.world) :
    Invariant (c.perform (.call (.updateVerifyMode panelSrc)) stack
      (enter (.updateVerifyMode panelSrc))) := by
  have ends : Counted c.world panelSrc ((enter (.updateVerifyMode panelSrc)).run c.world) :=
    updateVerifyMode_counted panelSrc c.world
  have world := perform_world c (.call (.updateVerifyMode panelSrc)) stack
    (enter (.updateVerifyMode panelSrc))
  have trace := perform_trace c (.call (.updateVerifyMode panelSrc)) stack
    (enter (.updateVerifyMode panelSrc))
  cases ending : (enter (.updateVerifyMode panelSrc)).run c.world with
  | undefined u =>
    refine ⟨.inl (by rw [Config.perform, ending]), ?_⟩
    rw [trace, ending]
    exact ⟨fun confirms => absurd confirms (not_confirms fun _ _ _ _ ended => by cases ended),
      inv.once⟩
  | threw e t =>
    rw [ending] at ends world trace
    cases ends with
    | threw e t counted =>
      exact counted_invariant inv running (not_confirms fun _ _ _ _ ended => by cases ended)
        (by rw [world]; exact counted) trace
  | done exit t =>
    rw [ending] at ends world trace
    cases ends with
    | passed t counted =>
      exact counted_invariant inv running (not_confirms fun _ _ _ _ ended => by cases ended)
        (by rw [world]; exact counted) trace
    | confirmed t panelOffset first pin reset =>
      obtain ⟨-, waiting⟩ : 0 ≤ c.world.globals.pincount ∧ _ :=
        inv.count.resolve_left (by rw [running]; decide)
      have confirms : Confirms (.stretch (.call (.updateVerifyMode panelSrc)) c.world
          (.done (.calls (.processConfirmClick panelSrc) (.autoConfirm panelSrc panelOffset)) t)) :=
        ⟨_, _, _, _, _, _, _, rfl, rfl⟩
      have settled : ¬ Pending c.trace := by
        intro pending
        rcases waiting pending with just | counted
        · exact (fit just).elim (fun failed => failed first.1) pin
        · have zero := first.2
          omega
      have count : (c.perform (.call (.updateVerifyMode panelSrc)) stack
          (enter (.updateVerifyMode panelSrc))).world.globals.pincount = 0 := by
        rw [world]
        exact reset
      refine ⟨.inr ⟨count.ge, fun _ => .inl ?_⟩, ?_⟩
      · rw [trace]
        exact .inl confirms
      · rw [trace]
        exact ⟨fun _ => settled, inv.once⟩

private theorem step_invariant (c : Config) (action : Action) (inv : Invariant c)
    (fit : FitRefresh c action) : Invariant (step c action) := by
  rcases step_cases c action with
    ⟨cause, stack, code, starts, stepped⟩ | ⟨call, rfl, loose, stepped⟩ | idle
  · rw [stepped]
    by_cases refresh : ∃ panelSrc, cause = .call (.updateVerifyMode panelSrc)
    · obtain ⟨panelSrc, rfl⟩ := refresh
      cases starts with
      | call call running hooked =>
        exact refresh_invariant inv running (fit panelSrc rfl running hooked)
    · exact other_invariant starts inv (not_exists.mp refresh)
  · have silent : ¬ Confirms (.unhooked call) := by
      rintro ⟨panel, _, _, _, _, _, _, entry, -⟩
      cases entry
    have unseen : ¬ Refreshes (.unhooked call) := by
      rintro ⟨_, _, _, entry⟩
      cases entry
    cases running : c.stopped with
    | false =>
      exact inv.passive running ⟨silent, unseen, .inl (by rw [stepped])⟩ (by rw [stepped])
    | true =>
      rw [stepped]
      exact ⟨.inl running, fun confirms => absurd confirms silent, inv.once⟩
  · refine ⟨?_, by rw [idle.trace]; exact inv.once⟩
    rw [idle.stopped, idle.globals, idle.trace]
    exact inv.count

/-- In every run in which the refresh next after an automatic confirmation does not find
all as before, there is a reset between two of them. -/
theorem confirmed_once (w : World) (fresh : w.globals.Fresh) (actions : List Action)
    (fit : Along step FitRefresh (Config.start w) actions) :
    Throughout Once (run step (Config.start w) actions).trace := by
  have start : Invariant (Config.start w) :=
    ⟨.inr ⟨by show 0 ≤ w.globals.pincount; rw [fresh.pincount], fun pending => pending.elim⟩, trivial⟩
  exact (run_invariant step step_invariant start fit).once

def sixDigits : World := hooked (pinProcess ⟨wide "123456", by decide⟩)

def failedAttempt : List Action :=
  [.calls (.updateVerifyMode 4096), .returns 1, .returns 1,
    .changes Process.bare
      { Panels.blank with otp := fun _ => { Panels.blank.otp 4096 with verifyFailCount := 1 } },
    .calls (.updateVerifyMode 4096)]

theorem confirmed_once_failedAttempt :
    Throughout Once (run step (Config.start sixDigits) failedAttempt).trace ∧
      Pending (run step (Config.start sixDigits) failedAttempt).trace := by
  refine ⟨confirmed_once sixDigits (hooked_fresh _) failedAttempt
    ⟨fun _ _ _ _ just => just.elim, fun _ call => (by cases call), fun _ call => (by cases call),
      fun _ call => (by cases call), fun _ _ _ _ _ => .inl ?_, trivial⟩, ?_⟩
  · exact Int.one_ne_zero
  · refine .inr ⟨id, .inr ⟨id, .inr ⟨id, .inl ?_⟩⟩⟩
    exact ⟨_, _, _, _, _, _, _, rfl, rfl⟩

/-- The PIN is confirmed, and the panel is refreshed while the answer is still out. -/
def pendingAnswer : List Action :=
  [.calls (.updateVerifyMode 4096), .returns 1, .returns 1, .calls (.updateVerifyMode 4096)]

/-- The second refresh counts as the first again, and confirms again. -/
theorem pendingAnswer_not_once :
    ¬ Throughout Once (run step (Config.start sixDigits) pendingAnswer).trace := by
  rintro ⟨once, -⟩
  refine once ⟨_, _, _, _, _, _, _, rfl, rfl⟩ (.inr ⟨id, .inr ⟨id, .inl ?_⟩⟩)
  exact ⟨_, _, _, _, _, _, _, rfl, rfl⟩

end LoginHelper.Resubmission
