/- Unit: LoginHelper/OtpFreshness
   source: hkLoginOtpPanel_updateVerifyMode and GetPin in src/loginhelper/LoginOtp.h
   digest: Which time step a submitted one-time code belongs to, over every run of the hooks. -/

import LoginHelper.PinSubmission

set_option autoImplicit false
set_option relaxedAutoImplicit false

namespace LoginHelper.OtpFreshness

open LoginHelper.Foundation
open LoginHelper.Foundation.Execution LoginHelper.Foundation.Runs
open LoginHelper.Foundation.HashStandard (codeDigit)
open LoginHelper.Windows.ProcessEnvironment
open LoginHelper.CppTotp
open LoginHelper.CppTotp.Otp (readSecret)
open LoginHelper.Data LoginHelper.Calls LoginHelper.LoginOtp LoginHelper.PinSource
open LoginHelper.Hooks LoginHelper.Machine LoginHelper.PinSubmission

def CodeAt (secret : NString) (time : Nat) (pin : Fin 6 → Nat) : Prop :=
  ∃ key, readSecret secret = .ok key ∧
    ∀ i : Fin 6, pin i = codeDigit 6 (HashStandard.totp key time 30 6) i

theorem CodeAt.digit {secret : NString} {time : Nat} {pin : Fin 6 → Nat}
    (code : CodeAt secret time pin) (i : Fin 6) : pin i < 10 := by
  obtain ⟨key, -, digits⟩ := code
  rw [digits i]
  exact Nat.mod_lt _ (by decide)

theorem CodeAt.sameStep {secret : NString} {time time' : Nat} {pin : Fin 6 → Nat}
    (code : CodeAt secret time pin) (same : time' / 30 = time / 30) : CodeAt secret time' pin := by
  obtain ⟨key, read, digits⟩ := code
  refine ⟨key, read, fun i => ?_⟩
  rw [digits i, HashStandard.totp, HashStandard.totp, same]

theorem refresh_pincode {w t : World} {panelSrc : Address}
    (known : ((hkLoginOtpPanelUpdateVerifyMode panelSrc).run w).state? = some t) :
    (¬ FirstRefresh w panelSrc → t.globals.pincode = w.globals.pincode) ∧
    (FirstRefresh w panelSrc → ∃ u, (getPin.run (refreshed w panelSrc)).state? = some u ∧
      t.globals.pincode = u.globals.pincode) := by
  have tail (u : World) : ∃ u',
      ((finishUpdate panelSrc (offsetPanel w.globals panelSrc)).run u).state? = some u' ∧
        u'.globals.pincode = u.globals.pincode := by
    obtain ⟨u', run, globals, -⟩ := finishUpdate_run panelSrc (offsetPanel w.globals panelSrc) u
    exact ⟨u', by rw [run]; rfl, by rw [globals]⟩
  rw [updateVerifyMode_run] at known
  split at known
  · cases known
  split at known
  · rename_i first
    refine ⟨fun other => absurd first other, fun _ => ?_⟩
    cases read : getPin.run (refreshed w panelSrc) with
    | undefined u => rw [read] at known; cases known
    | threw e u =>
      rw [read] at known
      exact ⟨u, rfl, by rw [Option.some.inj known]⟩
    | done available u =>
      rw [read, Outcome.andThen_done] at known
      refine ⟨u, rfl, ?_⟩
      split at known
      · rw [← Option.some.inj known]
        rfl
      · obtain ⟨u', left, same⟩ := tail u
        rw [left] at known
        rw [← Option.some.inj known, same]
  · rename_i other
    refine ⟨fun _ => ?_, fun first => absurd first other⟩
    obtain ⟨u', left, same⟩ := tail (refreshed w panelSrc)
    rw [left] at known
    rw [← Option.some.inj known, same]
    rfl

theorem refresh_confirms {w t : World} {panelSrc panelSrc' panelOffset : Address} {out : PluginCall}
    (run : (hkLoginOtpPanelUpdateVerifyMode panelSrc).run w =
      .done (.calls out (.autoConfirm panelSrc' panelOffset)) t) :
    FirstRefresh w panelSrc ∧ ∃ u, getPin.run (refreshed w panelSrc) = .done true u ∧
      ∀ pin : Fin 6 → Nat, (∀ i, u.globals.pincode i = pin i) → (∀ i, pin i < 10) →
        Shows (t.panels.otp panelOffset) pin := by
  have quiet (u : World) : (finishUpdate panelSrc (offsetPanel w.globals panelSrc)).run u ≠
      .done (.calls out (.autoConfirm panelSrc' panelOffset)) t := by
    obtain ⟨u', left, -⟩ := finishUpdate_run panelSrc (offsetPanel w.globals panelSrc) u
    rw [left]
    intro same
    cases same
  rw [updateVerifyMode_run] at run
  split at run
  · cases run
  split at run
  · rename_i first
    refine ⟨first, ?_⟩
    have frame := getPin_frame (refreshed w panelSrc)
    obtain ⟨available, u, read, run⟩ := Outcome.andThen_eq_done run
    rw [read] at frame
    split at run
    · rename_i found
      obtain ⟨exits, rfl⟩ := Outcome.done.inj run
      obtain ⟨-, frames⟩ := Exit.calls.inj exits
      obtain ⟨-, rfl⟩ := Frame.autoConfirm.inj frames
      rw [found] at read
      exact ⟨u, read, fun pin stored digits => confirmed_shows frame.1 stored digits⟩
    · exact absurd run (quiet u)
  · exact absurd run (quiet _)

theorem secret_read {w : World} (panelSrc : Address) (first : SecretFirst w)
    (short : w.process.environment.secret.length ≤ 2047) :
    (∃ e, getPin.run (refreshed w panelSrc) = .threw e (refreshed w panelSrc)) ∨
    ∃ u pin, getPin.run (refreshed w panelSrc) = .done true u ∧
      CodeAt w.process.environment.secret w.process.time.toNat pin ∧
      ∀ i, u.globals.pincode i = pin i := by
  have first' : SecretFirst (refreshed w panelSrc) :=
    ⟨first.uncached, first.pincode, first.profilePin, first.secret⟩
  cases read : readSecret w.process.environment.secret with
  | error e => exact .inl ⟨e, getPin_throws first' short read⟩
  | ok key =>
    obtain ⟨u, run, -, stored⟩ := pinFromSecret_run read (refreshed w panelSrc)
    exact .inr ⟨u, _, (getPin_secret first' short).trans run, ⟨key, read, fun _ => rfl⟩, stored⟩

def ConfirmsAt (e : Entry) (time : BitVec 64) (panel : LoginOtpPanel) : Prop :=
  ∃ cause before out panelSrc panelOffset t,
    e = .stretch cause before (.done (.calls out (.autoConfirm panelSrc panelOffset)) t) ∧
    panel = t.panels.otp panelOffset ∧ time = before.process.time

/-- A confirmation of a PIN that was read from the secret submits the code the secret has
at the time of the confirmation. -/
def Fresh (e : Entry) (past : List Entry) : Prop :=
  ∀ time panel, ConfirmsAt e time panel → ∀ w, LastRead (e :: past) w → SecretFirst w →
    ∃ pin, CodeAt w.process.environment.secret time.toNat pin ∧ Shows panel pin

/-- A refresh that is about to read the secret finds one that fits its buffer, and one that
is about to use the code read last does so within the time step of that read. -/
def InStep (c : Config) (action : Action) : Prop :=
  ∀ panelSrc, action = .calls (.updateVerifyMode panelSrc) → c.stopped = false →
    c.world.globals.attached .loginOtpPanelUpdateVerifyMode = true →
    FirstRefresh c.world panelSrc →
    (SecretFirst c.world → c.world.process.environment.secret.length ≤ 2047) ∧
    (c.world.globals.firstDigit ≠ -1 → ∀ w, LastRead c.trace w → SecretFirst w →
      c.world.process.time.toNat / 30 = w.process.time.toNat / 30)

def CodeStored (trace : List Entry) (g : Globals) : Prop :=
  ∀ w, LastRead trace w → SecretFirst w →
    ∃ pin, CodeAt w.process.environment.secret w.process.time.toNat pin ∧ ∀ i, g.pincode i = pin i

structure Invariant (c : Config) : Prop where
  cached : c.world.globals.firstDigit = -1 ∨ CodeStored c.trace c.world.globals
  fresh : Throughout Fresh c.trace

theorem lastRead_reads {e : Entry} {past : List Entry} {w t : World} (reads : ReadsPin e w)
    (last : LastRead (e :: past) t) : t = w := by
  rcases last with now | ⟨none, -⟩
  · obtain ⟨_, _, entry, -⟩ := reads
    obtain ⟨_, _, entry', -⟩ := now
    rw [entry] at entry'
    exact (Entry.stretch.inj entry').2.1.symm
  · exact absurd reads (none w)

theorem lastRead_idle {e : Entry} {past : List Entry} {t : World} (idle : ∀ w, ¬ ReadsPin e w)
    (last : LastRead (e :: past) t) : LastRead past t :=
  (last.resolve_left (idle t)).2

private theorem Invariant.cached_later {c : Config} (inv : Invariant c) {g : Globals} {e : Entry}
    (same : g.pincode = c.world.globals.pincode) (idle : ∀ w, ¬ ReadsPin e w) :
    g.firstDigit = -1 ∨ CodeStored (e :: c.trace) g := by
  have first : g.firstDigit = c.world.globals.firstDigit := congrFun same 0
  rw [first]
  apply inv.cached.imp_right
  intro stored w last secret
  rw [same]
  exact stored w (lastRead_idle idle last) secret

private theorem fresh_quiet {cause : Cause} {before : World} {ending : Ending Exit}
    {past : List Entry} (quiet : ∀ out panelSrc panelOffset t,
      ending ≠ .done (.calls out (.autoConfirm panelSrc panelOffset)) t) :
    Fresh (.stretch cause before ending) past := by
  rintro time panel ⟨_, _, out, panelSrc, panelOffset, t, entry, -⟩
  exact absurd (Entry.stretch.inj entry).2.2 (quiet out panelSrc panelOffset t)

private theorem other_invariant {c : Config} {action : Action} {cause : Cause} {stack : List Frame}
    {code : Code Exit} (starts : Starts c action cause stack code) (inv : Invariant c)
    (other : ∀ panelSrc, cause ≠ .call (.updateVerifyMode panelSrc)) :
    Invariant (c.perform cause stack code) := by
  have same : (c.perform cause stack code).world.globals.pincode = c.world.globals.pincode := by
    rcases starts.world with changes | ⟨unchanged, -⟩
    · exact pincode_other changes other
    · rw [unchanged]
  refine ⟨?_, ?_⟩
  · rw [perform_trace]
    exact inv.cached_later same (not_reads_other other)
  · rw [perform_trace]
    exact ⟨fresh_quiet (starts_no_confirm starts other), inv.fresh⟩

section Refresh

variable {c : Config} {panelSrc : Address} {stack : List Frame}

private theorem read_invariant (inv : Invariant c) (first : FirstRefresh c.world panelSrc)
    (uncached : c.world.globals.firstDigit = -1)
    (short : SecretFirst c.world → c.world.process.environment.secret.length ≤ 2047) :
    Invariant (c.perform (.call (.updateVerifyMode panelSrc)) stack
      (enter (.updateVerifyMode panelSrc))) := by
  have reads (ending : Ending Exit) :
      ReadsPin (.stretch (.call (.updateVerifyMode panelSrc)) c.world ending) c.world :=
    ⟨panelSrc, ending, rfl, first, uncached⟩
  refine ⟨?_, ?_⟩
  · rw [perform_trace, perform_world]
    cases known : ((enter (.updateVerifyMode panelSrc)).run c.world).state? with
    | none => exact .inl uncached
    | some t =>
      obtain ⟨u, read, same⟩ := (refresh_pincode known).2 first
      by_cases secret : SecretFirst c.world
      · have digit : t.globals.firstDigit = u.globals.firstDigit := congrFun same 0
        rcases secret_read panelSrc secret (short secret) with ⟨e, threw⟩ | ⟨u', pin, run, code, stored⟩
        · rw [threw] at read
          refine .inl ?_
          show t.globals.firstDigit = -1
          rw [digit, ← Option.some.inj read]
          exact uncached
        · rw [run] at read
          refine .inr fun w last _ => ?_
          rw [lastRead_reads (reads _) last]
          refine ⟨pin, code, fun i => ?_⟩
          show t.globals.pincode i = pin i
          rw [same, ← Option.some.inj read]
          exact stored i
      · refine .inr fun w last secret' => ?_
        rw [lastRead_reads (reads _) last] at secret'
        exact absurd secret' secret
  · rw [perform_trace]
    refine ⟨?_, inv.fresh⟩
    rintro time panel ⟨_, _, out, panelSrc', panelOffset, t, entry, rfl, rfl⟩ w last secret
    rw [lastRead_reads (reads _) last] at secret ⊢
    obtain ⟨-, rfl, run⟩ := Entry.stretch.inj entry
    obtain ⟨-, u, read, shown⟩ := refresh_confirms run
    rcases secret_read panelSrc secret (short secret) with ⟨e, threw⟩ | ⟨u', pin, found, code, stored⟩
    · rw [threw] at read
      cases read
    · rw [found] at read
      obtain rfl := (Outcome.done.inj read).2
      exact ⟨pin, code, shown pin stored code.digit⟩

private theorem cached_invariant (inv : Invariant c)
    (unread : FirstRefresh c.world panelSrc → c.world.globals.firstDigit ≠ -1)
    (inStep : FirstRefresh c.world panelSrc → ∀ w, LastRead c.trace w → SecretFirst w →
      c.world.process.time.toNat / 30 = w.process.time.toNat / 30) :
    Invariant (c.perform (.call (.updateVerifyMode panelSrc)) stack
      (enter (.updateVerifyMode panelSrc))) := by
  have idle (ending : Ending Exit) (w : World) :
      ¬ ReadsPin (.stretch (.call (.updateVerifyMode panelSrc)) c.world ending) w := by
    rintro ⟨panelSrc', ending', entry, first, uncached⟩
    obtain ⟨cause, rfl, -⟩ := Entry.stretch.inj entry
    cases cause
    exact unread first uncached
  have same {t : World} (known : ((enter (.updateVerifyMode panelSrc)).run c.world).state? = some t) :
      t.globals.pincode = c.world.globals.pincode := by
    obtain ⟨later, now⟩ := refresh_pincode known
    by_cases first : FirstRefresh c.world panelSrc
    · obtain ⟨u, read, same⟩ := now first
      rw [getPin_cached (show (refreshed c.world panelSrc).globals.firstDigit ≠ -1 from
        unread first)] at read
      rw [same, ← Option.some.inj read]
      rfl
    · exact later first
  refine ⟨?_, ?_⟩
  · rw [perform_trace]
    exact inv.cached_later (perform_pincode fun _ => same) (idle _)
  · rw [perform_trace]
    refine ⟨?_, inv.fresh⟩
    rintro time panel ⟨_, _, out, panelSrc', panelOffset, t, entry, rfl, rfl⟩ w last secret
    replace last := lastRead_idle (idle _) last
    obtain ⟨-, rfl, run⟩ := Entry.stretch.inj entry
    obtain ⟨first, u, read, shown⟩ := refresh_confirms run
    rw [getPin_cached (show (refreshed c.world panelSrc).globals.firstDigit ≠ -1 from
      unread first)] at read
    obtain rfl := (Outcome.done.inj read).2
    rcases inv.cached with uncached | stored
    · exact absurd uncached (unread first)
    · obtain ⟨pin, code, digits⟩ := stored w last secret
      exact ⟨pin, code.sameStep (inStep first w last secret), shown pin digits code.digit⟩

end Refresh

private theorem step_invariant (c : Config) (action : Action) (inv : Invariant c)
    (fit : InStep c action) : Invariant (step c action) := by
  rcases step_cases c action with
    ⟨cause, stack, code, starts, stepped⟩ | ⟨call, rfl, loose, stepped⟩ | idle
  · rw [stepped]
    by_cases refresh : ∃ panelSrc, cause = .call (.updateVerifyMode panelSrc)
    · obtain ⟨panelSrc, rfl⟩ := refresh
      cases starts with
      | call call running hooked =>
        have fit' := fit panelSrc rfl running hooked
        by_cases reads : FirstRefresh c.world panelSrc ∧ c.world.globals.firstDigit = -1
        · exact read_invariant inv reads.1 reads.2 (fit' reads.1).1
        · have unread : FirstRefresh c.world panelSrc → c.world.globals.firstDigit ≠ -1 :=
            not_and.mp reads
          exact cached_invariant inv unread fun first => (fit' first).2 (unread first)
    · exact other_invariant starts inv (not_exists.mp refresh)
  · rw [stepped]
    have unread (w : World) : ¬ ReadsPin (.unhooked call) w := by
      rintro ⟨_, _, entry, -⟩
      cases entry
    refine ⟨inv.cached_later rfl unread, ?_, inv.fresh⟩
    rintro time panel ⟨_, _, _, _, _, _, entry, -⟩
    cases entry
  · refine ⟨?_, by rw [idle.trace]; exact inv.fresh⟩
    rw [idle.trace, idle.globals]
    exact inv.cached

/-- In every run whose refreshes use a stored code only within its time step, each code
that is submitted is the one of its own time. -/
theorem submission_fresh (w : World) (fresh : w.globals.Fresh) (actions : List Action)
    (fit : Along step InStep (Config.start w) actions) :
    Throughout Fresh (run step (Config.start w) actions).trace := by
  have start : Invariant (Config.start w) := ⟨.inl (congrFun fresh.pincode 0), trivial⟩
  exact (run_invariant step step_invariant start fit).fresh

/-- A panel opened, confirmed and closed, at some time before the next. -/
def opening (p : Process) (later : BitVec 64) : List Action :=
  [.calls (.updateVerifyMode 4096), .returns 1, .returns 1,
    .changes { p with time := later } Panels.blank]

def openedBy (p : Process) (later : BitVec 64) (count : Nat) : Config :=
  run step (Config.start (hooked p)) ((opening p later).take count)

private theorem opening_last {p : Process} {later : BitVec 64}
    (running : (openedBy p later 4).stopped = false) :
    (openedBy p later 4).trace = (openedBy p later 3).trace ∧
      (openedBy p later 4).world.process = { p with time := later } := by
  have before : ¬ (openedBy p later 3).stopped = true := by
    intro stopped
    have idle : openedBy p later 4 = openedBy p later 3 := if_pos stopped
    rw [idle, stopped] at running
    cases running
  have changed : openedBy p later 4 = { openedBy p later 3 with
      world := { (openedBy p later 3).world with
        process := { p with time := later }, panels := Panels.blank } } := by
    show step (openedBy p later 3) (.changes _ _) = _
    rw [step, if_neg before]
  rw [changed]
  exact ⟨rfl, rfl⟩

theorem lastRead_member {trace : List Entry} {w : World} (last : LastRead trace w) :
    ∃ e ∈ trace, ReadsPin e w := by
  induction trace with
  | nil => exact last.elim
  | cons e past ih =>
    rcases last with now | ⟨-, last⟩
    · exact ⟨e, List.mem_cons_self, now⟩
    · obtain ⟨e', member, reads⟩ := ih last
      exact ⟨e', List.mem_cons_of_mem e member, reads⟩

private theorem returns_reads {c : Config} {value : Address} {e : Entry} {w : World}
    (member : e ∈ (step c (.returns value)).trace) (reads : ReadsPin e w) : e ∈ c.trace := by
  rcases step_cases c (.returns value) with
    ⟨cause, stack, code, starts, stepped⟩ | ⟨call, same, -, -⟩ | idle
  · rw [stepped, perform_trace] at member
    cases starts with
    | back frame stack value running waiting =>
      rcases List.mem_cons.mp member with rfl | older
      · exact absurd reads (not_reads_other (fun _ same => by cases same) w)
      · exact older
  · cases same
  · rwa [idle.trace] at member

private theorem opening_reads {p : Process} {later : BitVec 64} {w : World}
    (running : (openedBy p later 4).stopped = false)
    (last : LastRead (openedBy p later 4).trace w) : w = hooked p := by
  obtain ⟨e, member, reads⟩ := lastRead_member last
  rw [(opening_last running).1] at member
  have second : e ∈ (openedBy p later 2).trace := returns_reads member reads
  have first : e ∈ (openedBy p later 1).trace := returns_reads second reads
  have only : (openedBy p later 1).trace = [.stretch (.call (.updateVerifyMode 4096)) (hooked p) _] :=
    single_trace rfl
  rw [only] at first
  obtain rfl := List.mem_singleton.mp first
  obtain ⟨_, _, entry, -⟩ := reads
  exact (Entry.stretch.inj entry).2.1.symm

/-- A panel opened twice within one time step, by a process with a secret. The process is kept
abstract, as the code would be computed with it otherwise. -/
theorem submission_fresh_twice : ∃ p : Process, p.environment.secret ≠ [] ∧ p.time = 31 ∧
    Throughout Fresh
      (run step (Config.start (hooked p)) (opening p 59 ++ refreshOnce)).trace := by
  obtain ⟨p, same⟩ : ∃ p, p = { testVector.process with time := 31 } := ⟨_, rfl⟩
  have short : p.environment.secret.length ≤ 2047 := by
    rw [same]
    decide
  have time : p.time = 31 := by rw [same]
  have first : InStep (Config.start (hooked p)) (.calls (.updateVerifyMode 4096)) :=
    fun _ _ _ _ _ => ⟨fun _ => short, fun cached => absurd rfl cached⟩
  have again : InStep (openedBy p 59 4) (.calls (.updateVerifyMode 4096)) := by
    intro panelSrc _ running _ _
    have process := (opening_last running).2
    refine ⟨fun _ => by rw [process]; exact short, fun _ w last _ => ?_⟩
    obtain rfl := opening_reads running last
    rw [process]
    show BitVec.toNat 59 / 30 = p.time.toNat / 30
    rw [time]
    rfl
  refine ⟨p, by rw [same]; decide, time, ?_⟩
  exact submission_fresh (hooked p) (hooked_fresh p) (opening p 59 ++ refreshOnce)
    ⟨first, fun _ call => (by cases call), fun _ call => (by cases call),
      fun _ call => (by cases call), again, fun _ call => (by cases call), trivial⟩

theorem stale_not_fresh {c : Config} {panelSrc : Address} (running : c.stopped = false)
    (hooked : c.world.globals.attached .loginOtpPanelUpdateVerifyMode = true)
    (first : FirstRefresh c.world panelSrc) {pin : Fin 6 → Nat}
    (stored : ∀ i, c.world.globals.pincode i = pin i) (digits : ∀ i, pin i < 10) {w : World}
    (last : LastRead c.trace w) (secret : SecretFirst w)
    (stale : ¬ CodeAt w.process.environment.secret c.world.process.time.toNat pin) :
    ¬ Throughout Fresh (step c (.calls (.updateVerifyMode panelSrc))).trace := by
  have cached : c.world.globals.firstDigit ≠ -1 := by
    rw [Globals.firstDigit, stored 0]
    omega
  have present : c.world.globals.firstDigit ≠ -2 := by
    rw [Globals.firstDigit, stored 0]
    omega
  have run : (enter (.updateVerifyMode panelSrc)).run c.world =
      .done (.calls (.processConfirmClick panelSrc)
        (.autoConfirm panelSrc (offsetPanel c.world.globals panelSrc)))
        (confirmed (refreshed c.world panelSrc) (offsetPanel c.world.globals panelSrc)) := by
    apply (updateVerifyMode_run panelSrc c.world).trans
    rw [if_neg (by rw [first.2]; decide), if_pos first,
      getPin_cached (show (refreshed c.world panelSrc).globals.firstDigit ≠ -1 from cached),
      decide_eq_true (show (refreshed c.world panelSrc).globals.firstDigit ≠ -2 from present)]
    rfl
  have shown : Shows ((confirmed (refreshed c.world panelSrc)
      (offsetPanel c.world.globals panelSrc)).panels.otp (offsetPanel c.world.globals panelSrc)) pin :=
    confirmed_shows rfl stored digits
  have stepped : step c (.calls (.updateVerifyMode panelSrc)) =
      c.perform (.call (.updateVerifyMode panelSrc)) c.stack (enter (.updateVerifyMode panelSrc)) :=
    step_calls running hooked
  rw [stepped, perform_trace, run]
  rintro ⟨fresh, -⟩
  have idle (w : World) : ¬ ReadsPin (.stretch (.call (.updateVerifyMode panelSrc)) c.world
      (.done (.calls (.processConfirmClick panelSrc)
        (.autoConfirm panelSrc (offsetPanel c.world.globals panelSrc)))
        (confirmed (refreshed c.world panelSrc) (offsetPanel c.world.globals panelSrc)))) w := by
    rintro ⟨_, _, entry, -, uncached⟩
    obtain ⟨-, rfl, -⟩ := Entry.stretch.inj entry
    exact cached uncached
  obtain ⟨code, current, shown'⟩ :=
    fresh _ _ ⟨_, _, _, _, _, _, rfl, rfl, rfl⟩ w (.inr ⟨idle, last⟩) secret
  rw [shown.unique shown'] at stale
  exact stale current

private theorem testKey_later : HashStandard.totp testKey 119 30 6 = 969429 :=
  totp_of_library testKey (by decide) (by decide) (by decide +kernel)

private theorem opening_facts :
    ((openedBy testVector.process 119 1).stopped = false ∧
      (openedBy testVector.process 119 1).stack = [.autoConfirm 4096 4096]) ∧
    ((openedBy testVector.process 119 2).stopped = false ∧
      (openedBy testVector.process 119 2).stack = [.finishing]) ∧
    (openedBy testVector.process 119 4).stopped = false ∧
    (openedBy testVector.process 119 4).world.globals.attached .loginOtpPanelUpdateVerifyMode = true ∧
    FirstRefresh (openedBy testVector.process 119 4).world 4096 ∧
    ∀ i : Fin 6, (openedBy testVector.process 119 4).world.globals.pincode i = codeDigit 6 287082 i := by
  decide +kernel

private theorem opening_lastRead {p : Process}
    (confirming : (openedBy p 119 1).stopped = false ∧
      (openedBy p 119 1).stack = [.autoConfirm 4096 4096])
    (finishing : (openedBy p 119 2).stopped = false ∧ (openedBy p 119 2).stack = [.finishing])
    (running : (openedBy p 119 4).stopped = false) : LastRead (openedBy p 119 4).trace (hooked p) := by
  have first : (openedBy p 119 1).trace = [.stretch (.call (.updateVerifyMode 4096)) (hooked p) _] :=
    perform_trace (Config.start (hooked p)) (.call (.updateVerifyMode 4096)) []
      (enter (.updateVerifyMode 4096))
  have second : openedBy p 119 2 = (openedBy p 119 1).perform (.back (.autoConfirm 4096 4096) 1) []
      (resume 1 (.autoConfirm 4096 4096)) := step_returns 1 confirming.1 confirming.2
  have third : openedBy p 119 3 = (openedBy p 119 2).perform (.back .finishing 1) []
      (resume 1 .finishing) := step_returns 1 finishing.1 finishing.2
  rw [(opening_last running).1, third, perform_trace, second, perform_trace, first]
  have other (frame : Frame) (value : Address) :
      ∀ panelSrc, Cause.back frame value ≠ .call (.updateVerifyMode panelSrc) :=
    fun _ same => by cases same
  exact .inr ⟨not_reads_other (other _ _), .inr ⟨not_reads_other (other _ _),
    .inl ⟨4096, _, rfl, ⟨rfl, rfl⟩, rfl⟩⟩⟩

/-- A panel opened again later than the time step of its code shows the old one. -/
theorem openedAgain_not_fresh : ∃ p : Process, p.environment.secret ≠ [] ∧ p.time = 59 ∧
    ¬ Throughout Fresh (run step (Config.start (hooked p))
      (opening p 119 ++ [.calls (.updateVerifyMode 4096)])).trace := by
  have facts := opening_facts
  have known := testVector_key
  obtain ⟨p, same⟩ : ∃ p, p = testVector.process := ⟨_, rfl⟩
  have secret : SecretFirst (hooked p) :=
    ⟨rfl, by rw [same]; decide, by rw [same]; decide, by rw [same]; decide⟩
  refine ⟨p, secret.secret, by rw [same]; rfl, ?_⟩
  rw [← same] at facts known
  obtain ⟨confirming, finishing, running, attached, first, stored⟩ := facts
  have appended : run step (Config.start (hooked p))
      (opening p 119 ++ [.calls (.updateVerifyMode 4096)]) =
        step (openedBy p 119 4) (.calls (.updateVerifyMode 4096)) := List.foldl_append
  have last := opening_lastRead confirming finishing running
  rw [appended]
  refine stale_not_fresh running attached first stored (fun i => Nat.mod_lt _ (by decide)) last
    secret ?_
  rintro ⟨key, read, code⟩
  have sameKey : testKey = key := Except.ok.inj (known.symm.trans read)
  have digit := code 0
  rw [(opening_last running).2, ← sameKey, show BitVec.toNat (119 : BitVec 64) = 119 by rfl,
    testKey_later] at digit
  exact absurd digit (by decide)

end LoginHelper.OtpFreshness
