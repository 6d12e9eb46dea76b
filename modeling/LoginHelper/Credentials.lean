/- Unit: LoginHelper/Credentials
   source: GetLogin and hkTitleLoginPanel_OpenLoginPanel in src/loginhelper/Lobby.h
   digest: Where the texts of the login panel come from, over every run of its hook. -/

import LoginHelper.Machine

set_option autoImplicit false
set_option relaxedAutoImplicit false

namespace LoginHelper.Credentials

open LoginHelper.Foundation.Execution LoginHelper.Foundation.Runs
open LoginHelper.Windows.ProcessEnvironment
open LoginHelper.CommandLine (usernameArgument passwordArgument)
open LoginHelper.Data LoginHelper.Calls LoginHelper.Lobby LoginHelper.Hooks LoginHelper.Machine

def CompletePair (w : World) (account password : WString) : Prop :=
  (w.process.environment.IsSet .bnsProfileUsername ∧ w.process.environment.IsSet .bnsProfilePassword ∧
    account = w.process.environment.value .bnsProfileUsername ∧
    password = w.process.environment.value .bnsProfilePassword) ∨
  (usernameArgument w.process.commandLine = some account ∧
    passwordArgument w.process.commandLine = some password)

def PairFits (w : World) : Prop :=
  w.process.environment.IsSet .bnsProfileUsername → w.process.environment.IsSet .bnsProfilePassword →
    (w.process.environment.value .bnsProfileUsername).length < 256 ∧
    (w.process.environment.value .bnsProfilePassword).length < 256

/-- The ways the first call of `GetLogin` ends. -/
inductive LoginRead (w : World) : Ending Bool → Prop
  | pair (t : World) (complete : CompletePair w t.globals.mAccount t.globals.mPassword)
      (stored : t.globals.loggedin = 2) : LoginRead w (.done true t)
  | none (t : World) (stored : t.globals.loggedin = -1) : LoginRead w (.done false t)
  | fault (u : Fault) : LoginRead w (.undefined u)

private theorem noLogin_read (w t : World) : LoginRead w (noLogin.run t) := .none _ rfl

private theorem passwordFromVariable_read {w t : World} (mailchar : WString)
    (username : w.process.environment.IsSet .bnsProfileUsername)
    (password : t.process.environment.value .bnsProfilePassword =
      w.process.environment.value .bnsProfilePassword)
    (loggedin : t.globals.loggedin = 2) (account : t.globals.mAccount = mailchar)
    (fits : w.process.environment.IsSet .bnsProfilePassword →
      (w.process.environment.value .bnsProfilePassword).length < 256 ∧
        mailchar = w.process.environment.value .bnsProfileUsername) :
    LoginRead w (passwordFromVariable.run t) := by
  rw [passwordFromVariable, bind_run]
  by_cases set : w.process.environment.IsSet .bnsProfilePassword
  · obtain ⟨short, same⟩ := fits set
    rw [readWide_fits _ t (by rw [Environment.IsSet, password]; exact set)
      (by rw [password]; exact short), Outcome.andThen_done]
    exact .pair _ (.inl ⟨username, set, account.trans same, password⟩) loggedin
  · rw [readWide_unset _ t (by rw [password]; exact not_not.mp set), Outcome.andThen_done]
    exact noLogin_read w t

private theorem loginFromCommandLine_read {w t : World} (process : t.process = w.process)
    (loggedin : t.globals.loggedin = 2) : LoginRead w (loginFromCommandLine.run t) := by
  rw [loginFromCommandLine, bind_run, readState_run, Outcome.andThen_done, process]
  cases username : usernameArgument w.process.commandLine with
  | none => exact noLogin_read w _
  | some account =>
    cases password : passwordArgument w.process.commandLine with
    | none => exact noLogin_read w _
    | some text => exact .pair _ (.inr ⟨username, password⟩) loggedin

theorem readLogin_run (w : World) (fits : PairFits w) : LoginRead w (readLogin.run w) := by
  let start := w.withGlobals { w.globals with loggedin := 2 }
  have marked : (setLoggedin 2).run w = .done () start := rfl
  rw [readLogin, bind_run, marked, Outcome.andThen_done, bind_run]
  rcases readWide_cases .bnsProfileUsername start with ⟨-, absent⟩ | ⟨set, ⟨mailchar, read⟩ | fault⟩
  · rw [absent, Outcome.andThen_done]
    exact loginFromCommandLine_read rfl rfl
  · rw [read, Outcome.andThen_done]
    refine passwordFromVariable_read mailchar set ?_ rfl rfl fun password => ?_
    · exact (Environment.value_clear _ _ _).trans (if_neg (by decide))
    · have short := fits set password
      have whole := readWide_fits .bnsProfileUsername start set short.1
      rw [read] at whole
      exact ⟨short.2, Option.some.inj (Outcome.done.inj whole).1⟩
  · rw [fault]
    exact .fault _

/-- Any later call reports the stored outcome, whatever it is. -/
theorem getLogin_later (w : World) (later : w.globals.loggedin ≠ 0) :
    getLogin.run w = .done true w := by
  simp [getLogin, later]

theorem getLogin_first (w : World) (first : w.globals.loggedin = 0) :
    getLogin.run w = readLogin.run w := by
  simp [getLogin, first]

/-- The stretch of `hkTitleLoginPanel_OpenLoginPanel` that calls `GetLogin` for the first
time, in the world it reads. -/
def ReadsLogin (e : Entry) (w : World) : Prop :=
  ∃ panelOffset value ending, e = .stretch (.back (.instanceWanted panelOffset) value) w ending ∧
    w.globals.loggedin = 0

def PairRead (trace : List Entry) (account password : WString) : Prop :=
  ∃ e ∈ trace, ∃ w, ReadsLogin e w ∧ CompletePair w account password

/-- A stretch that has `GetLogin` return true, or that writes into an edit box, does so
with a pair that was read. -/
structure Sound (e : Entry) (past : List Entry) : Prop where
  login : ∀ panelOffset interface before ending t,
    e = .stretch (.back (.instanceWanted panelOffset) interface) before ending →
    getLogin.run (before.withGlobals { before.globals with
      uiEngineInterfaceInstance := interface }) = .done true t →
    PairRead (e :: past) t.globals.mAccount t.globals.mPassword
  boxes : ∀ cause before interface slot editBox text rest t,
    e = .stretch cause before (.done (.calls (.setTextValue interface slot editBox text) rest) t) →
    ∃ account password, PairRead (e :: past) account password ∧
      text = (if rest = .finishing then password else account)

/-- No call gets to `GetLogin` after one that found no complete pair, and the pair of
the first call fits its buffers. -/
def LoginFit (c : Config) (action : Action) : Prop :=
  ∀ panelOffset stack value, action = .returns value → c.stopped = false →
    c.stack = .instanceWanted panelOffset :: stack →
    c.world.globals.loggedin ≠ -1 ∧ (c.world.globals.loggedin = 0 → PairFits c.world)

theorem PairRead.later {trace : List Entry} {account password : WString}
    (read : PairRead trace account password) (e : Entry) :
    PairRead (e :: trace) account password := by
  obtain ⟨e', member, rest⟩ := read
  exact ⟨e', List.mem_cons_of_mem e member, rest⟩

/-- What is stored as found has been read, and the password is only asked for then. -/
structure Invariant (c : Config) : Prop where
  stored : c.world.globals.loggedin = 0 ∨ c.world.globals.loggedin = -1 ∨
    c.world.globals.loggedin = 2 ∧
      PairRead c.trace c.world.globals.mAccount c.world.globals.mPassword
  waiting : ∀ panelOffset, .userIdSet panelOffset ∈ c.stack → c.world.globals.loggedin = 2
  sound : Throughout Sound c.trace

private theorem Invariant.read {c : Config} (inv : Invariant c)
    (found : c.world.globals.loggedin = 2) :
    PairRead c.trace c.world.globals.mAccount c.world.globals.mPassword := by
  rcases inv.stored with first | failed | ⟨-, read⟩
  · rw [found] at first
    exact absurd first (by decide)
  · rw [found] at failed
    exact absurd failed (by decide)
  · exact read

/-- The world in which `GetLogin` is called, with the interface stored. -/
def atLogin (w : World) (interface : Address) : World :=
  w.withGlobals { w.globals with uiEngineInterfaceInstance := interface }

/-- A fit call of `GetLogin` and what the hook does with it: a pair read now or earlier is
written, nothing is done without one, or the run is over. -/
inductive Filled (w : World) (panelOffset interface : Address) : Ending Bool → Ending Exit → Prop
  | read (t : World) (first : w.globals.loggedin = 0) (stored : t.globals.loggedin = 2)
      (complete : CompletePair w t.globals.mAccount t.globals.mPassword) :
      Filled w panelOffset interface (.done true t) (.done (.calls (setTextValue t.globals
        (t.panels.titleLogin panelOffset).userIdEditBoxID t.globals.mAccount)
          (.userIdSet panelOffset)) t)
  | again (stored : w.globals.loggedin = 2) :
      Filled w panelOffset interface (.done true (atLogin w interface))
        (.done (.calls (setTextValue (atLogin w interface).globals
          (w.panels.titleLogin panelOffset).userIdEditBoxID w.globals.mAccount)
            (.userIdSet panelOffset)) (atLogin w interface))
  | none (t : World) (first : w.globals.loggedin = 0) (stored : t.globals.loggedin = -1) :
      Filled w panelOffset interface (.done false t) (.done (.returns 0) t)
  | fault (u : Fault) : Filled w panelOffset interface (.undefined u) (.undefined u)

private theorem fillLoginPanel_filled {w : World} (panelOffset interface : Address)
    (fit : w.globals.loggedin ≠ -1 ∧ (w.globals.loggedin = 0 → PairFits w))
    (stored : w.globals.loggedin = 0 ∨ w.globals.loggedin = -1 ∨ w.globals.loggedin = 2) :
    Filled w panelOffset interface (getLogin.run (atLogin w interface))
      ((fillLoginPanel panelOffset interface).run w) := by
  have unfolded : (fillLoginPanel panelOffset interface).run w =
      (getLogin.run (atLogin w interface)).andThen fun found t =>
        (if found = true then do
          let w ← readState
          pure (.calls (setTextValue w.globals (w.panels.titleLogin panelOffset).userIdEditBoxID
            w.globals.mAccount) (.userIdSet panelOffset))
        else pure (.returns 0) : Code Exit).run t := rfl
  rw [unfolded]
  rcases stored with first | failed | found
  · rw [getLogin_first _ (show (atLogin w interface).globals.loggedin = 0 from first)]
    have read := readLogin_run (atLogin w interface) (fit.2 first)
    cases ending : readLogin.run (atLogin w interface) with
    | undefined u => exact .fault u
    | threw e t => rw [ending] at read; cases read
    | done found t =>
      rw [ending] at read
      cases read with
      | pair t complete stored => exact .read t first stored complete
      | none t stored => exact .none t first stored
  · exact absurd failed fit.1
  · rw [getLogin_later _ (show (atLogin w interface).globals.loggedin ≠ 0 by
      show w.globals.loggedin ≠ 0
      rw [found]
      decide)]
    exact .again found

def TouchesBoxes (out : PluginCall) (rest : Frame) : Prop :=
  (∃ interface slot editBox text, out = .setTextValue interface slot editBox text) ∨
    ∃ panelOffset, rest = .userIdSet panelOffset

private theorem leaves_no_boxes {hook : Hook} {out : PluginCall} {rest : Frame}
    (leaves : Leaves hook out rest) (other : hook ≠ .titleLoginPanelOpenLoginPanel) :
    ¬ TouchesBoxes out rest := by
  cases leaves <;> simp_all [TouchesBoxes]

private theorem enter_no_boxes {call : GameCall} {w t : World} {out : PluginCall} {rest : Frame}
    (run : (enter call).run w = .done (.calls out rest) t) : ¬ TouchesBoxes out rest := by
  obtain ⟨out', rest', same, leaves⟩ := enter_leaves run
  obtain ⟨rfl, rfl⟩ := Exit.calls.inj same
  cases call with
  | openLoginPanel panel =>
    obtain ⟨rfl, rfl⟩ := Exit.calls.inj (Outcome.done.inj run).1
    simp [TouchesBoxes]
  | updateVerifyMode panel => exact leaves_no_boxes leaves (by simp [GameCall.hook])
  | processConfirmClick panel => exact leaves_no_boxes leaves (by simp [GameCall.hook])
  | processEvent panel event => exact leaves_no_boxes leaves (by simp [GameCall.hook])
  | requestLogin args => exact leaves_no_boxes leaves (by simp [GameCall.hook])

def SameLogin (g g' : Globals) : Prop :=
  g'.loggedin = g.loggedin ∧ g'.mAccount = g.mAccount ∧ g'.mPassword = g.mPassword

private theorem enter_sameLogin {call : GameCall} {w w' : World}
    (h : CauseChanges (.call call) w w') : SameLogin w.globals w'.globals := by
  obtain ⟨_, _, _, _, _, globals, -⟩ := EnterChanges.fields h
  rw [globals]
  exact ⟨rfl, rfl, rfl⟩

private theorem Invariant.stored_later {c : Config} (inv : Invariant c) {g : Globals} {e : Entry}
    (same : SameLogin c.world.globals g) :
    g.loggedin = 0 ∨ g.loggedin = -1 ∨
      g.loggedin = 2 ∧ PairRead (e :: c.trace) g.mAccount g.mPassword := by
  obtain ⟨loggedin, account, password⟩ := same
  rw [loggedin, account, password]
  exact inv.stored.imp_right (Or.imp_right (And.imp_right fun read => read.later e))

private theorem call_invariant {c : Config} {call : GameCall} {stack : List Frame}
    {code : Code Exit} (starts : Starts c (.calls call) (.call call) stack code)
    (inv : Invariant c) : Invariant (c.perform (.call call) stack code) := by
  have same : SameLogin c.world.globals (c.perform (.call call) stack code).world.globals := by
    rcases starts.world with changes | ⟨unchanged, -⟩
    · exact enter_sameLogin changes
    · rw [unchanged]
      exact ⟨rfl, rfl, rfl⟩
  cases starts with
  | call call running hooked =>
    refine ⟨?_, ?_, ?_⟩
    · rw [perform_trace]
      exact inv.stored_later same
    · intro panelOffset member
      rw [same.1]
      rcases perform_stack member with below | ⟨out, t, run⟩
      · exact inv.waiting panelOffset below
      · exact absurd (.inr ⟨panelOffset, rfl⟩) (enter_no_boxes run)
    · rw [perform_trace]
      refine ⟨⟨fun _ _ _ _ _ entry => (by cases entry), ?_⟩, inv.sound⟩
      intro cause before interface slot editBox text rest t entry
      obtain ⟨-, -, run⟩ := Entry.stretch.inj entry
      exact absurd (.inl ⟨_, _, _, _, rfl⟩) (enter_no_boxes run)

private theorem filled_invariant {c : Config} {panelOffset value : Address} {stack : List Frame}
    {t : World} {call : PluginCall} (inv : Invariant c)
    (login : getLogin.run (atLogin c.world value) = .done true t)
    (run : (fillLoginPanel panelOffset value).run c.world =
      .done (.calls call (.userIdSet panelOffset)) t)
    (written : ∀ interface slot editBox text, call = .setTextValue interface slot editBox text →
      text = t.globals.mAccount)
    (stored : t.globals.loggedin = 2)
    (read : PairRead (.stretch (.back (.instanceWanted panelOffset) value) c.world
      (.done (.calls call (.userIdSet panelOffset)) t) :: c.trace)
        t.globals.mAccount t.globals.mPassword) :
    Invariant (c.perform (.back (.instanceWanted panelOffset) value) stack
      (fillLoginPanel panelOffset value)) := by
  have world : (c.perform (.back (.instanceWanted panelOffset) value) stack
      (fillLoginPanel panelOffset value)).world = t := by
    rw [perform_world, run]
    rfl
  refine ⟨?_, ?_, ?_⟩
  · rw [world, perform_trace, run]
    exact .inr (.inr ⟨stored, read⟩)
  · intro panelOffset' _
    rw [world]
    exact stored
  · rw [perform_trace, run]
    refine ⟨⟨?_, ?_⟩, inv.sound⟩
    · intro panelOffset' value' before ending t' entry login'
      obtain ⟨same, rfl, rfl⟩ := Entry.stretch.inj entry
      cases same
      obtain rfl : t = t' := (Outcome.done.inj (login.symm.trans login')).2
      exact read
    · intro cause before interface slot editBox text rest t' entry
      obtain ⟨-, rfl, same⟩ := Entry.stretch.inj entry
      obtain ⟨exits, rfl⟩ := Outcome.done.inj same
      obtain ⟨wrote, rfl⟩ := Exit.calls.inj exits
      exact ⟨_, _, read, by rw [if_neg (by simp)]; exact written _ _ _ _ wrote⟩

private theorem sound_quiet {w : World} {panelOffset value : Address} {ending : Ending Exit}
    {past : List Entry} (login : ∀ t, getLogin.run (atLogin w value) ≠ .done true t)
    (silent : ∀ out rest t, ending ≠ .done (.calls out rest) t) :
    Sound (.stretch (.back (.instanceWanted panelOffset) value) w ending) past := by
  constructor
  · intro panelOffset' value' before ending' t entry found
    obtain ⟨same, rfl, -⟩ := Entry.stretch.inj entry
    cases same
    exact absurd found (login t)
  · intro cause before interface slot editBox text rest t entry
    obtain ⟨-, -, run⟩ := Entry.stretch.inj entry
    exact absurd run (silent _ _ _)

private theorem fill_invariant {c : Config} {panelOffset value : Address} {stack : List Frame}
    (waiting : c.stack = .instanceWanted panelOffset :: stack) (inv : Invariant c)
    (fit : c.world.globals.loggedin ≠ -1 ∧ (c.world.globals.loggedin = 0 → PairFits c.world)) :
    Invariant (c.perform (.back (.instanceWanted panelOffset) value) stack
      (fillLoginPanel panelOffset value)) := by
  have kinds : c.world.globals.loggedin = 0 ∨ c.world.globals.loggedin = -1 ∨
      c.world.globals.loggedin = 2 := inv.stored.imp_right (Or.imp_right And.left)
  have filled := fillLoginPanel_filled panelOffset value fit kinds
  have below : ∀ frame ∈ stack, frame ∈ c.stack := by
    intro frame member
    rw [waiting]
    exact List.mem_cons_of_mem _ member
  generalize login : getLogin.run (atLogin c.world value) = found at filled
  generalize run : (fillLoginPanel panelOffset value).run c.world = ending at filled
  cases filled with
  | read t first stored complete =>
    refine filled_invariant inv login run (fun _ _ _ _ wrote => ?_) stored
      ⟨_, List.mem_cons_self, c.world, ⟨panelOffset, value, _, rfl, first⟩, complete⟩
    exact (PluginCall.setTextValue.inj wrote).2.2.2.symm
  | again stored =>
    refine filled_invariant inv login run (fun _ _ _ _ wrote => ?_) stored
      ((inv.read stored).later _)
    exact (PluginCall.setTextValue.inj wrote).2.2.2.symm
  | none t first stored =>
    have world : (c.perform (.back (.instanceWanted panelOffset) value) stack
        (fillLoginPanel panelOffset value)).world = t := by
      rw [perform_world, run]
      rfl
    refine ⟨by rw [world]; exact .inr (.inl stored), ?_, ?_⟩
    · intro panelOffset' member
      rcases perform_stack member with waits | ⟨out, u, calls⟩
      · exact absurd (inv.waiting panelOffset' (below _ waits)) (by rw [first]; decide)
      · rw [run] at calls
        cases calls
    · rw [perform_trace, run]
      refine ⟨sound_quiet (fun t' found => ?_) (fun _ _ _ calls => (by cases calls)), inv.sound⟩
      cases login.symm.trans found
  | fault u =>
    have world : (c.perform (.back (.instanceWanted panelOffset) value) stack
        (fillLoginPanel panelOffset value)).world = c.world := by
      rw [perform_world, run]
      rfl
    refine ⟨?_, ?_, ?_⟩
    · rw [world, perform_trace]
      exact inv.stored_later ⟨rfl, rfl, rfl⟩
    · intro panelOffset' member
      rw [world]
      rcases perform_stack member with waits | ⟨out, u, calls⟩
      · exact inv.waiting panelOffset' (below _ waits)
      · rw [run] at calls
        cases calls
    · rw [perform_trace, run]
      refine ⟨sound_quiet (fun t' found => ?_) (fun _ _ _ calls => (by cases calls)), inv.sound⟩
      cases login.symm.trans found

private theorem resume_no_boxes {frame : Frame} {value : Address} {w t : World} {out : PluginCall}
    {rest : Frame} (run : (resume value frame).run w = .done (.calls out rest) t)
    (other : ∀ panelOffset, frame ≠ .instanceWanted panelOffset)
    (another : ∀ panelOffset, frame ≠ .userIdSet panelOffset) : ¬ TouchesBoxes out rest := by
  cases frame with
  | finishing => cases run
  | autoConfirm panelSrc panelOffset =>
    obtain ⟨t', tail, -⟩ := finishUpdate_run panelSrc panelOffset w
    rw [resume, tail] at run
    obtain ⟨rfl, rfl⟩ := Exit.calls.inj (Outcome.done.inj run).1
    simp [TouchesBoxes]
  | eventLogin panel event =>
    obtain ⟨rfl, rfl⟩ := Exit.calls.inj (Outcome.done.inj run).1
    simp [TouchesBoxes]
  | loginPanelOpened panelOffset =>
    obtain ⟨rfl, rfl⟩ := Exit.calls.inj (Outcome.done.inj run).1
    simp [TouchesBoxes]
  | instanceWanted panelOffset => exact absurd rfl (other panelOffset)
  | userIdSet panelOffset => exact absurd rfl (another panelOffset)

private theorem back_invariant {c : Config} {frame : Frame} {value : Address} {stack : List Frame}
    (waiting : c.stack = frame :: stack) (inv : Invariant c)
    (other : ∀ panelOffset, frame ≠ .instanceWanted panelOffset) :
    Invariant (c.perform (.back frame value) stack (resume value frame)) := by
  have globals : (c.perform (.back frame value) stack (resume value frame)).world.globals =
      c.world.globals := by
    rw [perform_world]
    cases known : ((resume value frame).run c.world).state? with
    | none => rfl
    | some w => exact ((resume_changes value frame c.world).state known).other other
  have below : ∀ waits ∈ stack, waits ∈ c.stack := by
    intro waits member
    rw [waiting]
    exact List.mem_cons_of_mem _ member
  by_cases password : ∃ panelOffset, frame = .userIdSet panelOffset
  · obtain ⟨panelOffset, rfl⟩ := password
    have found := inv.waiting panelOffset (by rw [waiting]; exact List.mem_cons_self)
    have read := inv.read found
    refine ⟨?_, ?_, ?_⟩
    · rw [globals, perform_trace]
      exact inv.stored_later ⟨rfl, rfl, rfl⟩
    · intro panelOffset' _
      rw [globals]
      exact found
    · rw [perform_trace]
      refine ⟨⟨fun _ _ _ _ _ entry => (by cases entry), ?_⟩, inv.sound⟩
      intro cause before interface slot editBox text rest t entry
      obtain ⟨-, rfl, run⟩ := Entry.stretch.inj entry
      obtain ⟨wrote, rfl⟩ := Exit.calls.inj (Outcome.done.inj run).1
      refine ⟨_, _, read.later _, ?_⟩
      rw [if_pos rfl]
      exact (PluginCall.setTextValue.inj wrote).2.2.2.symm
  · refine ⟨?_, ?_, ?_⟩
    · rw [globals, perform_trace]
      exact inv.stored_later ⟨rfl, rfl, rfl⟩
    · intro panelOffset member
      rw [globals]
      rcases perform_stack member with waits | ⟨out, t, run⟩
      · exact inv.waiting panelOffset (below _ waits)
      · exact absurd (.inr ⟨panelOffset, rfl⟩)
          (resume_no_boxes run other (not_exists.mp password))
    · rw [perform_trace]
      refine ⟨⟨?_, ?_⟩, inv.sound⟩
      · intro panelOffset value' before ending t entry
        obtain ⟨same, -, -⟩ := Entry.stretch.inj entry
        exact absurd (Cause.back.inj same).1 (other panelOffset)
      · intro cause before interface slot editBox text rest t entry
        obtain ⟨-, rfl, run⟩ := Entry.stretch.inj entry
        exact absurd (.inl ⟨_, _, _, _, rfl⟩)
          (resume_no_boxes run other (not_exists.mp password))

private theorem step_invariant (c : Config) (action : Action) (inv : Invariant c)
    (fit : LoginFit c action) : Invariant (step c action) := by
  rcases step_cases c action with
    ⟨cause, stack, code, starts, stepped⟩ | ⟨call, rfl, loose, stepped⟩ | idle
  · rw [stepped]
    cases starts with
    | call call running hooked => exact call_invariant (.call call running hooked) inv
    | back frame stack value running waiting =>
      by_cases wanted : ∃ panelOffset, frame = .instanceWanted panelOffset
      · obtain ⟨panelOffset, rfl⟩ := wanted
        exact fill_invariant waiting inv (fit panelOffset stack value rfl running waiting)
      · exact back_invariant waiting inv (not_exists.mp wanted)
  · rw [stepped]
    exact ⟨inv.stored_later ⟨rfl, rfl, rfl⟩, inv.waiting,
      ⟨⟨fun _ _ _ _ _ entry => (by cases entry), fun _ _ _ _ _ _ _ _ entry => (by cases entry)⟩,
        inv.sound⟩⟩
  · refine ⟨?_, ?_, by rw [idle.trace]; exact inv.sound⟩
    · rw [idle.trace, idle.globals]
      exact inv.stored
    · intro panelOffset member
      rw [idle.globals]
      exact inv.waiting panelOffset (idle.stack _ member)

/-- In every fit run `GetLogin` returns true, and the edit boxes are written, only with a
pair that one call has read from one source. -/
theorem login_sound (w : World) (fresh : w.globals.Fresh) (actions : List Action)
    (fit : Along step LoginFit (Config.start w) actions) :
    Throughout Sound (run step (Config.start w) actions).trace := by
  have start : Invariant (Config.start w) :=
    ⟨.inl fresh.loggedin, fun _ member => absurd member List.not_mem_nil, trivial⟩
  exact (run_invariant step step_invariant start fit).sound

private theorem fit_first {c : Config} {action : Action} (first : c.world.globals.loggedin = 0)
    (fits : PairFits c.world) : LoginFit c action := by
  intro panelOffset stack value _ _ _
  exact ⟨by rw [first]; decide, fun _ => fits⟩

private theorem fit_found {c : Config} {action : Action} (found : c.world.globals.loggedin = 2) :
    LoginFit c action := by
  intro panelOffset stack value _ _ _
  exact ⟨by rw [found]; decide, fun first => absurd (found.symm.trans first) (by decide)⟩

def openOnce : List Action :=
  [.calls (.openLoginPanel 4096), .returns 1, .returns 8192, .returns 1, .returns 1]

def pairProcess : Process :=
  { Process.bare with commandLine := wide "Client.exe -USERNAME:a -PASSWORD:b" }

theorem login_sound_reopened :
    Throughout Sound (run step (Config.start (hooked pairProcess)) (openOnce ++ openOnce)).trace ∧
      (run step (Config.start (hooked pairProcess)) openOnce).world.globals.loggedin = 2 := by
  have fits : PairFits (hooked pairProcess) := fun set => absurd rfl set
  have fit : Along step LoginFit (Config.start (hooked pairProcess)) (openOnce ++ openOnce) :=
    ⟨fit_first rfl fits, fit_first rfl fits, fit_first rfl fits, fit_found (by decide +kernel),
      fit_found (by decide +kernel), fit_found (by decide +kernel), fit_found (by decide +kernel),
      fit_found (by decide +kernel), fit_found (by decide +kernel), fit_found (by decide +kernel),
      trivial⟩
  exact ⟨login_sound (hooked pairProcess) (hooked_fresh pairProcess) (openOnce ++ openOnce) fit,
    by decide +kernel⟩

/-- The panel opened by a process with no login, and opened again. -/
def openTwice : List Action :=
  [.calls (.openLoginPanel 4096), .returns 1, .returns 8192,
    .calls (.openLoginPanel 4096), .returns 1, .returns 8192]

/-- With nothing to read, the second call of `GetLogin` returns true all the same. -/
theorem openTwice_not_sound :
    ¬ Throughout Sound (run step (Config.start (hooked Process.bare)) openTwice).trace := by
  rintro ⟨sound, -⟩
  obtain ⟨e, member, w, ⟨panelOffset, value, ending, rfl, -⟩, complete⟩ :=
    sound.login 4096 8192 _ _ _ rfl rfl
  have nothing (w : World) (username : w.process.environment.value .bnsProfileUsername = [])
      (line : w.process.commandLine = []) (account password : WString) :
      ¬ CompletePair w account password := by
    rintro (⟨set, -⟩ | ⟨argument, -⟩)
    · exact set username
    · rw [line, show usernameArgument [] = none by decide] at argument
      cases argument
  rcases member with _ | ⟨_, _ | ⟨_, _ | ⟨_, _ | ⟨_, _ | ⟨_, _ | ⟨_, none⟩⟩⟩⟩⟩⟩
  · exact nothing _ rfl rfl _ _ complete
  · exact nothing _ rfl rfl _ _ complete
  · cases none

end LoginHelper.Credentials
