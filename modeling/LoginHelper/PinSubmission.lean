/- Unit: LoginHelper/PinSubmission
   source: hkLoginOtpPanel_updateVerifyMode and GetPin in src/loginhelper/LoginOtp.h
   digest: What the PIN panel holds at an automatic confirmation, over every run of the hooks. -/

import LoginHelper.Machine
import LoginHelper.PinSource

set_option autoImplicit false
set_option relaxedAutoImplicit false

namespace LoginHelper.PinSubmission

open LoginHelper.Foundation.Execution LoginHelper.Foundation.Runs
open LoginHelper.Windows.ProcessEnvironment
open LoginHelper.Windows.Runtime (StdException)
open LoginHelper.Data LoginHelper.Calls LoginHelper.LoginOtp LoginHelper.PinSource
open LoginHelper.Hooks LoginHelper.Machine

/-- The panel shows the PIN: six inputs, each of them a key with the digit on it. -/
structure Shows (panel : LoginOtpPanel) (pin : Fin 6 → Nat) : Prop where
  count : panel.curInputCount = 6
  keys : ∀ i : Fin 6, ∃ k : Fin 10,
    (panel.otpInputList (i.castLE (by decide))).inputBtnIndex = k.val ∧
      (panel.otpNumpadList k).numpadValue = pin i

theorem enterPin_shows (panel : LoginOtpPanel) {pincode : Fin 6 → Int} {pin : Fin 6 → Nat}
    (stored : ∀ i, pincode i = pin i) (digits : ∀ i, pin i < 10) :
    Shows (enterPin pincode (enableKeyboard panel)) pin := by
  refine ⟨rfl, fun i => ⟨⟨pin i, digits i⟩, ?_, enableKeyboard_numpad panel ⟨pin i, digits i⟩⟩⟩
  rw [enterPin_input]
  exact stored i

theorem Shows.unique {panel : LoginOtpPanel} {pin pin' : Fin 6 → Nat} (shows : Shows panel pin)
    (shows' : Shows panel pin') : pin = pin' := by
  ext i
  obtain ⟨k, button, digit⟩ := shows.keys i
  obtain ⟨k', button', digit'⟩ := shows'.keys i
  have same : k = k' := Fin.ext (by exact_mod_cast button.symm.trans button')
  rw [same] at digit
  exact_mod_cast digit.symm.trans digit'

def SamePin (w t : World) : Prop :=
  t.globals.pincode = w.globals.pincode ∧ t.globals.pintext = w.globals.pintext

/-- The ways a refresh ends that finds its source fit or a PIN in the cache. -/
inductive Refresh (w : World) (panelSrc : Address) : Ending Exit → Prop
  | overflow : Refresh w panelSrc (.undefined .signedOverflow)
  | rejected (e : StdException) (t : World) (same : SamePin w t) : Refresh w panelSrc (.threw e t)
  | passed (t : World) (same : SamePin w t) :
      Refresh w panelSrc (.done (.calls (.updateVerifyMode panelSrc) .finishing) t)
  | read (t : World) (pin : Fin 6 → Nat) (panelOffset : Address) (first : FirstRefresh w panelSrc)
      (uncached : w.globals.firstDigit = -1) (chosen : ChosenPin w pin)
      (stored : ∀ i, t.globals.pincode i = pin i)
      (text : t.globals.pintext = w.globals.pintext ∨ t.globals.pintext.length = 6)
      (shown : Shows (t.panels.otp panelOffset) pin) :
      Refresh w panelSrc (.done (.calls (.processConfirmClick panelSrc)
        (.autoConfirm panelSrc panelOffset)) t)
  | again (t : World) (panelOffset : Address) (cached : w.globals.firstDigit ≠ -1)
      (same : SamePin w t)
      (shown : ∀ pin : Fin 6 → Nat, (∀ i, w.globals.pincode i = pin i) → (∀ i, pin i < 10) →
        Shows (t.panels.otp panelOffset) pin) :
      Refresh w panelSrc (.done (.calls (.processConfirmClick panelSrc)
        (.autoConfirm panelSrc panelOffset)) t)

private theorem finishUpdate_refresh {w t : World} (same : SamePin w t)
    (panelSrc panelOffset : Address) :
    Refresh w panelSrc ((finishUpdate panelSrc panelOffset).run t) := by
  obtain ⟨u, run, globals, -⟩ := finishUpdate_run panelSrc panelOffset t
  rw [run]
  exact .passed u ⟨by rw [globals]; exact same.1, by rw [globals]; exact same.2⟩

theorem confirmed_shows {w t : World} {panelSrc : Address} {pin : Fin 6 → Nat}
    (panels : t.panels = (refreshed w panelSrc).panels) (stored : ∀ i, t.globals.pincode i = pin i)
    (digits : ∀ i, pin i < 10) :
    Shows ((confirmed t (offsetPanel w.globals panelSrc)).panels.otp
      (offsetPanel w.globals panelSrc)) pin := by
  have typed : (confirmed t (offsetPanel w.globals panelSrc)).panels.otp
      (offsetPanel w.globals panelSrc) =
        enterPin t.globals.pincode
          (enableKeyboard (w.panels.otp (offsetPanel w.globals panelSrc))) := by
    simp [confirmed, panels, refreshed]
  rw [typed]
  exact enterPin_shows _ stored digits

private theorem refreshed_same (w : World) (panelSrc : Address) :
    SamePin w (refreshed w panelSrc) := ⟨rfl, rfl⟩

theorem getPin_uncached {w : World} (uncached : w.globals.firstDigit = -1) :
    getPin.run w = readPin.run w := by
  simp [getPin, uncached]

theorem getPin_cached {w : World} (cached : w.globals.firstDigit ≠ -1) :
    getPin.run w = .done (decide (w.globals.firstDigit ≠ -2)) w := by
  by_cases absent : w.globals.firstDigit = -2
  · simp [getPin, absent]
  · simp [getPin, absent, cached]

theorem updateVerifyMode_refresh (panelSrc : Address) (w : World)
    (fit : FirstRefresh w panelSrc → w.globals.firstDigit = -1 → SourceFit w) :
    Refresh w panelSrc ((hkLoginOtpPanelUpdateVerifyMode panelSrc).run w) := by
  rw [updateVerifyMode_run]
  split
  · exact .overflow
  split
  case isFalse => exact finishUpdate_refresh (refreshed_same w panelSrc) _ _
  case isTrue first =>
    by_cases uncached : w.globals.firstDigit = -1
    · have frame := getPin_frame (refreshed w panelSrc)
      have read := readPin_run (refreshed w panelSrc) (fit first uncached)
      rw [getPin_uncached (show (refreshed w panelSrc).globals.firstDigit = -1 from uncached)]
        at frame ⊢
      cases ending : readPin.run (refreshed w panelSrc) with
      | undefined u => rw [ending] at read; cases read
      | threw e t =>
        rw [ending] at read
        cases read
        exact .rejected e _ ⟨rfl, rfl⟩
      | done available t =>
        rw [ending] at read frame
        rw [Outcome.andThen_done]
        cases read with
        | none => exact finishUpdate_refresh (refreshed_same w panelSrc) _ _
        | pin t pin chosen stored text =>
          exact .read _ pin _ first uncached chosen stored text
            (confirmed_shows frame.1 stored (chosenPin_digit chosen))
    · rw [getPin_cached (show (refreshed w panelSrc).globals.firstDigit ≠ -1 from uncached),
        Outcome.andThen_done]
      split
      · exact .again _ _ uncached ⟨rfl, rfl⟩ fun pin stored digits =>
          confirmed_shows rfl stored digits
      · exact finishUpdate_refresh (refreshed_same w panelSrc) _ _

/-- The stretch is a refresh that reads the sources of the PIN, and does so in this world. -/
def ReadsPin (e : Entry) (w : World) : Prop :=
  ∃ panelSrc ending, e = .stretch (.call (.updateVerifyMode panelSrc)) w ending ∧
    FirstRefresh w panelSrc ∧ w.globals.firstDigit = -1

def LastRead : List Entry → World → Prop
  | [], _ => False
  | e :: past, w => ReadsPin e w ∨ (∀ t, ¬ ReadsPin e t) ∧ LastRead past w

def AutoConfirms (e : Entry) (panel : LoginOtpPanel) : Prop :=
  ∃ cause before out panelSrc panelOffset t,
    e = .stretch cause before (.done (.calls out (.autoConfirm panelSrc panelOffset)) t) ∧
    panel = t.panels.otp panelOffset

/-- A confirmation submits the PIN that the last read has chosen, and no character is read
that its text does not have. -/
structure Honest (e : Entry) (past : List Entry) : Prop where
  submitted : ∀ panel, AutoConfirms e panel →
    ∃ w pin, LastRead (e :: past) w ∧ ChosenPin w pin ∧ Shows panel pin
  inside : ∀ panelSrc before ending,
    e = .stretch (.call (.updateVerifyMode panelSrc)) before ending →
      ending ≠ .undefined .outsideString ∧ ∀ t, ending.state? = some t →
        t.globals.pintext = before.globals.pintext ∨ 6 ≤ t.globals.pintext.length

/-- A refresh that is about to read the sources finds one that is fit. -/
def FitRead (c : Config) (action : Action) : Prop :=
  ∀ panelSrc, action = .calls (.updateVerifyMode panelSrc) → c.stopped = false →
    c.world.globals.attached .loginOtpPanelUpdateVerifyMode = true →
    FirstRefresh c.world panelSrc → c.world.globals.firstDigit = -1 → SourceFit c.world

/-- What is cached is the PIN that was chosen last. -/
structure Invariant (c : Config) : Prop where
  cached : c.world.globals.firstDigit = -1 ∨ ∃ w pin, LastRead c.trace w ∧ ChosenPin w pin ∧
    ∀ i, c.world.globals.pincode i = pin i
  honest : Throughout Honest c.trace

private theorem Invariant.cached_later {c : Config} (inv : Invariant c) {g : Globals} {e : Entry}
    (same : g.pincode = c.world.globals.pincode)
    (idle : c.world.globals.firstDigit ≠ -1 → ∀ w, ¬ ReadsPin e w) :
    g.firstDigit = -1 ∨ ∃ w pin, LastRead (e :: c.trace) w ∧ ChosenPin w pin ∧
      ∀ i, g.pincode i = pin i := by
  have first : g.firstDigit = c.world.globals.firstDigit := congrFun same 0
  rw [first, same]
  by_cases uncached : c.world.globals.firstDigit = -1
  · exact .inl uncached
  · rcases inv.cached with absent | ⟨w, pin, last, rest⟩
    · exact absurd absent uncached
    · exact .inr ⟨w, pin, .inr ⟨idle uncached, last⟩, rest⟩

private theorem honest_other {cause : Cause} {before : World} {ending : Ending Exit}
    {past : List Entry} (other : ∀ panelSrc, cause ≠ .call (.updateVerifyMode panelSrc))
    (quiet : ∀ out panelSrc panelOffset t,
      ending ≠ .done (.calls out (.autoConfirm panelSrc panelOffset)) t) :
    Honest (.stretch cause before ending) past := by
  constructor
  · rintro panel ⟨cause', before', out, panelSrc, panelOffset, t, entry, -⟩
    exact absurd (Entry.stretch.inj entry).2.2 (quiet out panelSrc panelOffset t)
  · intro panelSrc before' ending' entry
    exact absurd (Entry.stretch.inj entry).1 (other panelSrc)

theorem not_reads_other {cause : Cause} {before : World} {ending : Ending Exit}
    (other : ∀ panelSrc, cause ≠ .call (.updateVerifyMode panelSrc)) (w : World) :
    ¬ ReadsPin (.stretch cause before ending) w := by
  rintro ⟨panelSrc, ending', entry, -⟩
  exact other panelSrc (Entry.stretch.inj entry).1

theorem enter_no_confirm {call : GameCall} (other : ∀ panelSrc, call ≠ .updateVerifyMode panelSrc)
    {w t : World} {out : PluginCall} {panelSrc panelOffset : Address} :
    (enter call).run w ≠ .done (.calls out (.autoConfirm panelSrc panelOffset)) t := by
  intro run
  obtain ⟨out', rest, same, leaves⟩ := enter_leaves run
  obtain ⟨rfl, rfl⟩ := Exit.calls.inj same
  cases call with
  | updateVerifyMode panel => exact other panel rfl
  | processConfirmClick panel => cases leaves
  | processEvent panel event => cases leaves
  | openLoginPanel panel => cases leaves
  | requestLogin args => cases leaves

theorem starts_no_confirm {c : Config} {action : Action} {cause : Cause} {stack : List Frame}
    {code : Code Exit} (starts : Starts c action cause stack code)
    (other : ∀ panelSrc, cause ≠ .call (.updateVerifyMode panelSrc)) (out : PluginCall)
    (panelSrc panelOffset : Address) (t : World) :
    code.run c.world ≠ .done (.calls out (.autoConfirm panelSrc panelOffset)) t := by
  cases starts with
  | call call running hooked => exact enter_no_confirm fun panel same => other panel (by rw [same])
  | back frame stack value running waiting => exact resume_no_confirm

theorem pincode_other {cause : Cause} {w w' : World} (h : CauseChanges cause w w')
    (other : ∀ panelSrc, cause ≠ .call (.updateVerifyMode panelSrc)) :
    w'.globals.pincode = w.globals.pincode := by
  cases cause with
  | back frame value =>
    obtain ⟨_, _, _, _, globals⟩ := h.login
    rw [globals]
  | call call =>
    cases call with
    | updateVerifyMode panel => exact absurd rfl (other panel)
    | processConfirmClick panel => rw [show w'.globals = _ from h]
    | processEvent panel event => rw [show w'.globals = _ from h]
    | openLoginPanel panel => rw [show w' = w from h]
    | requestLogin args =>
      obtain ⟨_, globals⟩ := h
      rw [globals]

private theorem other_invariant {c : Config} {action : Action} {cause : Cause} {stack : List Frame}
    {code : Code Exit} (starts : Starts c action cause stack code) (inv : Invariant c)
    (other : ∀ panelSrc, cause ≠ .call (.updateVerifyMode panelSrc)) :
    Invariant (c.perform cause stack code) := by
  have same : (c.perform cause stack code).world.globals.pincode = c.world.globals.pincode := by
    rcases starts.world with changes | ⟨unchanged, -⟩
    · exact pincode_other changes other
    · rw [unchanged]
  refine ⟨?_, ?_⟩
  · rw [perform_trace]
    exact inv.cached_later same fun _ => not_reads_other other
  · rw [perform_trace]
    exact ⟨honest_other other (starts_no_confirm starts other), inv.honest⟩

private theorem honest_passed {w : World} {panelSrc : Address} {ending : Ending Exit}
    {past : List Entry} (quiet : ∀ out panelSrc panelOffset t,
      ending ≠ .done (.calls out (.autoConfirm panelSrc panelOffset)) t)
    (defined : ending ≠ .undefined .outsideString)
    (same : ∀ t, ending.state? = some t → SamePin w t) :
    Honest (.stretch (.call (.updateVerifyMode panelSrc)) w ending) past := by
  constructor
  · rintro panel ⟨cause', before', out, panelSrc', panelOffset, t, entry, -⟩
    exact absurd (Entry.stretch.inj entry).2.2 (quiet out panelSrc' panelOffset t)
  · intro panelSrc' before' ending' entry
    obtain ⟨-, rfl, rfl⟩ := Entry.stretch.inj entry
    exact ⟨defined, fun t known => .inl (same t known).2⟩

private theorem honest_confirmed {w t : World} {panelSrc panelOffset : Address}
    {past : List Entry} {out : PluginCall}
    (submitted : ∃ u pin, LastRead (.stretch (.call (.updateVerifyMode panelSrc)) w
      (.done (.calls out (.autoConfirm panelSrc panelOffset)) t) :: past) u ∧ ChosenPin u pin ∧
        Shows (t.panels.otp panelOffset) pin)
    (text : t.globals.pintext = w.globals.pintext ∨ 6 ≤ t.globals.pintext.length) :
    Honest (.stretch (.call (.updateVerifyMode panelSrc)) w
      (.done (.calls out (.autoConfirm panelSrc panelOffset)) t)) past := by
  constructor
  · rintro panel ⟨cause', before', out', panelSrc', panelOffset', t', entry, rfl⟩
    obtain ⟨-, -, ended⟩ := Entry.stretch.inj entry
    obtain ⟨exits, rfl⟩ := Outcome.done.inj ended
    obtain ⟨-, frames⟩ := Exit.calls.inj exits
    obtain ⟨-, rfl⟩ := Frame.autoConfirm.inj frames
    exact submitted
  · intro panelSrc' before' ending' entry
    obtain ⟨-, rfl, rfl⟩ := Entry.stretch.inj entry
    refine ⟨fun fault => (by cases fault), fun u known => ?_⟩
    obtain rfl := Option.some.inj known
    exact text

private theorem Refresh.quiet {w : World} {panelSrc : Address} {ending : Ending Exit}
    (ends : Refresh w panelSrc ending) (quiet : ∀ out panelSrc' panelOffset t,
      ending ≠ .done (.calls out (.autoConfirm panelSrc' panelOffset)) t) :
    ending ≠ .undefined .outsideString ∧ ∀ t, ending.state? = some t → SamePin w t := by
  cases ends with
  | overflow => exact ⟨fun fault => (by cases fault), fun t known => (by cases known)⟩
  | rejected e t same =>
    refine ⟨fun fault => (by cases fault), fun u known => ?_⟩
    obtain rfl := Option.some.inj known
    exact same
  | passed t same =>
    refine ⟨fun fault => (by cases fault), fun u known => ?_⟩
    obtain rfl := Option.some.inj known
    exact same
  | read t pin panelOffset => exact absurd rfl (quiet _ _ _ _)
  | again t panelOffset => exact absurd rfl (quiet _ _ _ _)

theorem perform_pincode {c : Config} {cause : Cause} {stack : List Frame} {code : Code Exit}
    (same : ∀ t, (code.run c.world).state? = some t →
      t.globals.pincode = c.world.globals.pincode) :
    (c.perform cause stack code).world.globals.pincode = c.world.globals.pincode := by
  rw [perform_world]
  cases known : (code.run c.world).state? with
  | none => rfl
  | some t => exact same t known

private theorem refresh_invariant {c : Config} {panelSrc : Address} {stack : List Frame}
    (inv : Invariant c)
    (fit : FirstRefresh c.world panelSrc → c.world.globals.firstDigit = -1 → SourceFit c.world) :
    Invariant (c.perform (.call (.updateVerifyMode panelSrc)) stack
      (enter (.updateVerifyMode panelSrc))) := by
  have ends : Refresh c.world panelSrc ((enter (.updateVerifyMode panelSrc)).run c.world) :=
    updateVerifyMode_refresh panelSrc c.world fit
  -- with a PIN in the cache the sources are not read
  have idle (ending : Ending Exit) : c.world.globals.firstDigit ≠ -1 →
      ∀ w, ¬ ReadsPin (.stretch (.call (.updateVerifyMode panelSrc)) c.world ending) w := by
    rintro cached w ⟨panelSrc', ending', entry, -, uncached⟩
    obtain ⟨-, rfl, -⟩ := Entry.stretch.inj entry
    exact cached uncached
  have world := perform_world c (.call (.updateVerifyMode panelSrc)) stack
    (enter (.updateVerifyMode panelSrc))
  have trace := perform_trace c (.call (.updateVerifyMode panelSrc)) stack
    (enter (.updateVerifyMode panelSrc))
  by_cases confirms : ∃ out panelSrc' panelOffset t, (enter (.updateVerifyMode panelSrc)).run
      c.world = .done (.calls out (.autoConfirm panelSrc' panelOffset)) t
  · obtain ⟨out, panelSrc', panelOffset, t, ending⟩ := confirms
    rw [ending] at ends world trace
    cases ends with
    | read t pin panelOffset first uncached chosen stored text shown =>
      have last (ending : Ending Exit) : LastRead (.stretch (.call (.updateVerifyMode panelSrc))
          c.world ending :: c.trace) c.world := .inl ⟨panelSrc, ending, rfl, first, uncached⟩
      refine ⟨?_, ?_⟩
      · rw [trace, world]
        exact .inr ⟨c.world, pin, last _, chosen, stored⟩
      · rw [trace]
        exact ⟨honest_confirmed ⟨c.world, pin, last _, chosen, shown⟩ (text.imp_right (·.ge)),
          inv.honest⟩
    | again t panelOffset cached same shown =>
      refine ⟨?_, ?_⟩
      · rw [trace]
        exact inv.cached_later (by rw [world]; exact same.1) (idle _)
      · rw [trace]
        refine ⟨honest_confirmed ?_ (.inl same.2), inv.honest⟩
        rcases inv.cached with uncached | ⟨w, pin, last, chosen, stored⟩
        · exact absurd uncached cached
        · exact ⟨w, pin, .inr ⟨idle _ cached, last⟩, chosen,
            shown pin stored (chosenPin_digit chosen)⟩
  · have quiet : ∀ out panelSrc' panelOffset t, (enter (.updateVerifyMode panelSrc)).run c.world ≠
        .done (.calls out (.autoConfirm panelSrc' panelOffset)) t :=
      fun out panelSrc' panelOffset t ending => confirms ⟨out, panelSrc', panelOffset, t, ending⟩
    obtain ⟨defined, same⟩ := ends.quiet quiet
    refine ⟨?_, ?_⟩
    · rw [trace]
      exact inv.cached_later (perform_pincode fun t known => (same t known).1) (idle _)
    · rw [trace]
      exact ⟨honest_passed quiet defined same, inv.honest⟩

private theorem step_invariant (c : Config) (action : Action) (inv : Invariant c)
    (fit : FitRead c action) : Invariant (step c action) := by
  rcases step_cases c action with
    ⟨cause, stack, code, starts, stepped⟩ | ⟨call, rfl, loose, stepped⟩ | idle
  · rw [stepped]
    by_cases refresh : ∃ panelSrc, cause = .call (.updateVerifyMode panelSrc)
    · obtain ⟨panelSrc, rfl⟩ := refresh
      cases starts with
      | call call running hooked => exact refresh_invariant inv (fit panelSrc rfl running hooked)
    · exact other_invariant starts inv (not_exists.mp refresh)
  · rw [stepped]
    have unread (w : World) : ¬ ReadsPin (.unhooked call) w := by
      rintro ⟨_, _, entry, -⟩
      cases entry
    refine ⟨inv.cached_later rfl fun _ => unread, ⟨?_, ?_⟩, inv.honest⟩
    · rintro panel ⟨_, _, _, _, _, _, entry, -⟩
      cases entry
    · intro _ _ _ entry
      cases entry
  · refine ⟨?_, by rw [idle.trace]; exact inv.honest⟩
    rw [idle.trace, idle.globals]
    exact inv.cached

/-- In every run whose refreshes read fit sources, each automatic confirmation submits
the PIN of the source chosen last. -/
theorem autoConfirm_honest (w : World) (fresh : w.globals.Fresh) (actions : List Action)
    (fit : Along step FitRead (Config.start w) actions) :
    Throughout Honest (run step (Config.start w) actions).trace := by
  have start : Invariant (Config.start w) :=
    ⟨.inl (congrFun fresh.pincode 0), trivial⟩
  exact (run_invariant step step_invariant start fit).honest

/-- A process that is started with this PIN in `BNS_PINCODE`. -/
def pinProcess (pincode : CText WChar) : Process :=
  { Process.bare with environment := Environment.bare.assign .bnsPincode pincode }

def refreshOnce : List Action := [.calls (.updateVerifyMode 4096), .returns 1]

theorem autoConfirm_honest_sixDigits :
    Throughout Honest
      (run step (Config.start (hooked (pinProcess ⟨wide "123456", by decide⟩))) refreshOnce).trace ∧
      ∃ e ∈ (run step (Config.start (hooked (pinProcess ⟨wide "123456", by decide⟩)))
        refreshOnce).trace, ∃ panel, AutoConfirms e panel := by
  have fit : SourceFit (hooked (pinProcess ⟨wide "123456", by decide⟩)) :=
    ⟨fun i => i.val + 1, by decide, by decide⟩
  refine ⟨autoConfirm_honest _ (hooked_fresh _) refreshOnce
    ⟨fun _ _ _ _ _ _ => fit, fun _ call => (by cases call), trivial⟩, ?_⟩
  exact ⟨_, .tail _ (.head _), _, _, _, _, _, _, _, rfl, rfl⟩

/-- A PIN of five digits is submitted too, with a sixth input that no key has. -/
theorem fiveDigits_not_honest :
    ¬ Throughout Honest
      (run step (Config.start (hooked (pinProcess ⟨wide "12345", by decide⟩)))
        [.calls (.updateVerifyMode 4096)]).trace := by
  rintro ⟨honest, -⟩
  obtain ⟨w, pin, last, chosen, -⟩ :=
    honest.submitted _ ⟨_, _, _, _, _, _, rfl, rfl⟩
  rcases last with ⟨_, _, entry, -⟩ | ⟨-, none⟩
  · obtain ⟨-, rfl, -⟩ := Entry.stretch.inj entry
    have six : SixDigits (wide "12345") pin := chosen
    exact absurd six.length (by decide)
  · exact none

end LoginHelper.PinSubmission
