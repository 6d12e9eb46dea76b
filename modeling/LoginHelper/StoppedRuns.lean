/- Unit: LoginHelper/StoppedRuns
   source: oep_notify in src/loginhelper/dllmain.cpp, and the hooks it attaches under any game
   digest: What can bring the game down once the hooks are attached: every run, up to its end. -/

import LoginHelper.Faults
import LoginHelper.HookClosure

set_option autoImplicit false
set_option relaxedAutoImplicit false

namespace LoginHelper.StoppedRuns

open LoginHelper.Foundation.Execution LoginHelper.Foundation.Runs
open LoginHelper.CommandLine (usernameArgument passwordArgument)
open LoginHelper.Data LoginHelper.Calls LoginHelper.LoginOtp LoginHelper.Lobby
open LoginHelper.Hooks LoginHelper.Machine LoginHelper.Faults
open LoginHelper.Dllmain (Module)
open LoginHelper.HookClosure

/-- `GetLogin` returns true: it has been called before, or finds both texts in one source. -/
def LoginAvailable (w : World) : Prop :=
  w.globals.loggedin ≠ 0 ∨
    (∃ account password, found w.process .bnsProfileUsername = some (some account) ∧
      found w.process .bnsProfilePassword = some (some password)) ∨
    found w.process .bnsProfileUsername = none ∧
      ∃ account password, usernameArgument w.process.commandLine = some account ∧
        passwordArgument w.process.commandLine = some password

/-- A hook makes a call that leads nowhere. In the first two cases it calls a function that its
own search does not look for, and the search that does has found nothing. In the others the
game has handed over a null interface: the one asked for, or one asked for while the first text
was being set. -/
inductive Astray (m : Module) (w : World) : Cause → Prop
  | confirm (panelSrc : Address) (room : w.globals.pincount ≠ 2 ^ 31 - 1)
      (first : FirstRefresh w panelSrc)
      (available : ∃ t, getPin.run (refreshed w panelSrc) = .done true t)
      (missing : ¬ Found m .loginOtpPanelProcessConfirmClick) :
      Astray m w (.call (.updateVerifyMode panelSrc))
  | login (panel event : Address) (first : w.globals.firstrun = true)
      (missing : ¬ Found m .titleLoginPanelProcessLogin) :
      Astray m w (.call (.processEvent panel event))
  | account (panelOffset interface : Address) (available : LoginAvailable w)
      (null : interface = 0) :
      Astray m w (.back (.instanceWanted panelOffset) interface)
  | password (panelOffset value : Address) (null : w.globals.uiEngineInterfaceInstance = 0) :
      Astray m w (.back (.userIdSet panelOffset) value)

/-- The stretch does what the language leaves undefined, or makes a call that leads nowhere. -/
def Stops (m : Module) (e : Entry) : Prop :=
  ∃ cause before ending, e = .stretch cause before ending ∧
    ((∃ u, FaultOf before cause u) ∨ Astray m before cause)

/-- The hooks and pointers are those of the searches, and what waits is left of a hook that
was attached. -/
structure Linked (m : Module) (c : Config) : Prop where
  attached : ∀ hook, c.world.globals.attached hook = true ↔ Found m hook.own
  resolved : ∀ o, Resolved c.world.globals o ↔ Found m o
  waiting : ∀ frame ∈ c.stack, ∃ hook before, Found m hook.own ∧ Leaves hook before frame

/-- A hook waits for a call through the pointer of another search, or of a null interface. -/
def Abroad (m : Module) (out : PluginCall) (rest : Frame) : Prop :=
  (∃ panel offset, rest = .autoConfirm panel offset) ∧ ¬ Found m .loginOtpPanelProcessConfirmClick ∨
    (∃ panel event, rest = .eventLogin panel event) ∧ ¬ Found m .titleLoginPanelProcessLogin ∨
      out.interface = some 0

private theorem abroad_iff_interface {m : Module} {out : PluginCall} {rest : Frame}
    (one : ∀ panel offset, rest ≠ .autoConfirm panel offset)
    (two : ∀ panel event, rest ≠ .eventLogin panel event) :
    Abroad m out rest ↔ out.interface = some 0 := by
  constructor
  · rintro (⟨⟨panel, offset, same⟩, -⟩ | ⟨⟨panel, event, same⟩, -⟩ | null)
    · exact absurd same (one panel offset)
    · exact absurd same (two panel event)
    · exact null
  · exact fun null => .inr (.inr null)

private theorem not_abroad {m : Module} {out : PluginCall} {rest : Frame}
    (one : ∀ panel offset, rest ≠ .autoConfirm panel offset)
    (two : ∀ panel event, rest ≠ .eventLogin panel event) (three : out.interface ≠ some 0) :
    ¬ Abroad m out rest :=
  (abroad_iff_interface one two).not.mpr three

private theorem callsNull_iff_unresolved {g : Globals} {out : PluginCall} {o : Original}
    (target : out.original = some o) (own : out.interface = none) :
    CallsNull g out ↔ ¬ Resolved g o := by
  rw [CallsNull, target, own, Option.map_some, Resolved, not_not]
  simp

private theorem callsNull_iff_slot {g : Globals} {out : PluginCall} (slot : out.original = none) :
    CallsNull g out ↔ out.interface = some 0 := by
  rw [CallsNull, slot]
  exact or_iff_right nofun

private theorem callsNull_iff {m : Module} {g : Globals} (resolved : ∀ o, Resolved g o ↔ Found m o)
    {hook : Hook} (own : Found m hook.own) {out : PluginCall} {rest : Frame}
    (leaves : Leaves hook out rest) : CallsNull g out ↔ Abroad m out rest := by
  have home (o : Original) (found : Found m o) (target : out.original = some o)
      (plugins : out.interface = none) (stays : ¬ Abroad m out rest) :
      CallsNull g out ↔ Abroad m out rest := by
    rw [callsNull_iff_unresolved target plugins, resolved]
    exact iff_of_false (not_not.mpr found) stays
  cases leaves with
  | update panel => exact home _ own rfl rfl (not_abroad nofun nofun nofun)
  | confirm panel => exact home _ own rfl rfl (not_abroad nofun nofun nofun)
  | event panel event => exact home _ own rfl rfl (not_abroad nofun nofun nofun)
  | openPanel panel offset => exact home _ own rfl rfl (not_abroad nofun nofun nofun)
  | getInstance offset =>
    exact home .uiEngineInterfaceGetInstance own rfl rfl (not_abroad nofun nofun nofun)
  | requestLogin args => exact home _ own rfl rfl (not_abroad nofun nofun nofun)
  | userId interface slot offset editBox text =>
    rw [callsNull_iff_slot rfl, abroad_iff_interface]
    · exact nofun
    · exact nofun
  | password interface slot editBox text =>
    rw [callsNull_iff_slot rfl, abroad_iff_interface]
    · exact nofun
    · exact nofun
  | autoConfirm panel offset =>
    rw [callsNull_iff_unresolved rfl rfl, resolved]
    constructor
    · exact fun missing => .inl ⟨⟨panel, offset, rfl⟩, missing⟩
    · rintro (⟨-, missing⟩ | ⟨⟨_, _, same⟩, -⟩ | null)
      · exact missing
      · cases same
      · cases null
  | eventLogin panel event =>
    rw [callsNull_iff_unresolved rfl rfl, resolved]
    constructor
    · exact fun missing => .inr (.inl ⟨⟨panel, event, rfl⟩, missing⟩)
    · rintro (⟨⟨_, _, same⟩, -⟩ | ⟨-, missing⟩ | null)
      · cases same
      · exact missing
      · cases null

private theorem passwordFromVariable_true (w : World) :
    (∃ t, passwordFromVariable.run w = .done true t) ↔
      ∃ password, found w.process .bnsProfilePassword = some (some password) := by
  rw [passwordFromVariable, bind_run, readWide_found]
  rcases found w.process .bnsProfilePassword with _ | _ | text
  · refine iff_of_false ?_ (by simp)
    rintro ⟨t, same⟩
    cases same
  · refine iff_of_false ?_ (by simp)
    rintro ⟨t, same⟩
    cases same
  · exact iff_of_true ⟨_, rfl⟩ ⟨text, rfl⟩

private theorem loginFromCommandLine_true (w : World) :
    (∃ t, loginFromCommandLine.run w = .done true t) ↔
      ∃ account password, usernameArgument w.process.commandLine = some account ∧
        passwordArgument w.process.commandLine = some password := by
  rw [loginFromCommandLine, bind_run, readState_run, Outcome.andThen_done]
  cases usernameArgument w.process.commandLine with
  | none =>
    refine iff_of_false ?_ (by simp)
    rintro ⟨t, same⟩
    cases same
  | some account =>
    cases passwordArgument w.process.commandLine with
    | none =>
      refine iff_of_false ?_ (by simp)
      rintro ⟨t, same⟩
      cases same
    | some password => exact iff_of_true ⟨_, rfl⟩ ⟨account, password, rfl, rfl⟩

private theorem readLogin_true (w : World) : (∃ t, readLogin.run w = .done true t) ↔
    (∃ account password, found w.process .bnsProfileUsername = some (some account) ∧
      found w.process .bnsProfilePassword = some (some password)) ∨
    found w.process .bnsProfileUsername = none ∧
      ∃ account password, usernameArgument w.process.commandLine = some account ∧
        passwordArgument w.process.commandLine = some password := by
  rw [readLogin_found]
  rcases found w.process .bnsProfileUsername with _ | _ | account
  · refine (loginFromCommandLine_true (begun w)).trans ?_
    simp [begun]
  · simp
  · refine (passwordFromVariable_true (named w account)).trans ?_
    rw [found_named]
    simp

theorem getLogin_true (w : World) :
    (∃ t, getLogin.run w = .done true t) ↔ LoginAvailable w := by
  rw [getLogin, bind_run, readState_run, Outcome.andThen_done, ite_run, LoginAvailable,
    ← readLogin_true]
  split
  case isTrue later =>
    refine iff_of_true ⟨w, ?_⟩ (.inl later)
    rw [decide_eq_true later]
    rfl
  case isFalse first => exact (or_iff_right first).symm

private theorem fillLoginPanel_calls (panelOffset interface : Address) (w : World) :
    (∃ out rest t, (fillLoginPanel panelOffset interface).run w = .done (.calls out rest) t) ↔
      LoginAvailable w := by
  let known := w.withGlobals { w.globals with uiEngineInterfaceInstance := interface }
  have available : LoginAvailable w ↔ ∃ t, getLogin.run known = .done true t :=
    (getLogin_true known).symm
  rw [available, fillLoginPanel, bind_run, assignGlobals_run, Outcome.andThen_done, bind_run]
  constructor
  · rintro ⟨out, rest, t, run⟩
    obtain ⟨complete, t', read, run⟩ := Outcome.andThen_eq_done run
    cases complete with
    | true => exact ⟨t', read⟩
    | false => cases run
  · rintro ⟨t, read⟩
    rw [show getLogin.run _ = .done true t from read]
    exact ⟨_, _, _, rfl⟩

private theorem fillLoginPanel_interface {panelOffset interface : Address} {w w' : World}
    {out : PluginCall} {rest : Frame}
    (run : (fillLoginPanel panelOffset interface).run w = .done (.calls out rest) w') :
    out.interface = some interface := by
  rw [fillLoginPanel, bind_run, assignGlobals_run, Outcome.andThen_done, bind_run] at run
  obtain ⟨complete, t, read, run⟩ := Outcome.andThen_eq_done run
  cases complete with
  | false => cases run
  | true =>
    have frame := getLogin_frame
      (w.withGlobals { w.globals with uiEngineInterfaceInstance := interface })
    rw [read] at frame
    obtain ⟨loggedin, account, password, globals⟩ := frame
    have same : out.interface = some t.globals.uiEngineInterfaceInstance := by
      cases run
      rfl
    rw [same, globals]
    rfl

private theorem resume_no_login {hook : Hook} {before : PluginCall} {frame : Frame}
    (reached : Leaves hook before frame) {value : Address} {w w' : World} {out : PluginCall}
    {panel event : Address} :
    (resume value frame).run w ≠ .done (.calls out (.eventLogin panel event)) w' := by
  intro run
  cases reached with
  | autoConfirm panelSrc panelOffset => cases finishUpdate_leaves run
  | getInstance panelOffset =>
    rcases fillLoginPanel_leaves run with same | ⟨_, same, -⟩
    · cases same
    · cases same
  | eventLogin _ _ => cases run
  | openPanel _ _ => cases run
  | userId _ _ _ _ _ => cases run
  | update _ => cases run
  | confirm _ => cases run
  | event _ _ => cases run
  | password _ _ _ _ => cases run
  | requestLogin _ => cases run

private theorem updateVerifyMode_astray {m : Module} {panelSrc : Address} {w w' : World}
    {out : PluginCall} {rest : Frame}
    (run : (hkLoginOtpPanelUpdateVerifyMode panelSrc).run w = .done (.calls out rest) w') :
    Abroad m out rest ↔ Astray m w (.call (.updateVerifyMode panelSrc)) := by
  have passedOn {t : World}
      (tail : (finishUpdate panelSrc (offsetPanel w.globals panelSrc)).run t =
        .done (.calls out rest) w')
      (no : ¬ Astray m w (.call (.updateVerifyMode panelSrc))) :
      Abroad m out rest ↔ Astray m w (.call (.updateVerifyMode panelSrc)) := by
    cases finishUpdate_leaves tail
    exact iff_of_false (not_abroad nofun nofun nofun) no
  rw [updateVerifyMode_run] at run
  split at run
  case isTrue full => cases run
  case isFalse room =>
    split at run
    case isFalse later =>
      apply passedOn run
      intro astray
      cases astray with
      | confirm _ _ first _ _ => exact later first
    case isTrue first =>
      obtain ⟨available, t, read, run⟩ := Outcome.andThen_eq_done run
      cases available with
      | true =>
        cases run
        constructor
        · rintro (⟨-, missing⟩ | ⟨⟨_, _, same⟩, -⟩ | null)
          · exact .confirm panelSrc room first ⟨t, read⟩ missing
          · cases same
          · cases null
        · intro astray
          cases astray with
          | confirm _ _ _ _ missing => exact .inl ⟨⟨_, _, rfl⟩, missing⟩
      | false =>
        apply passedOn run
        intro astray
        cases astray with
        | confirm _ _ _ typed _ =>
          obtain ⟨t', typed⟩ := typed
          rw [read] at typed
          cases typed

private theorem processEvent_astray {m : Module} {panel event : Address} {w w' : World}
    {out : PluginCall} {rest : Frame}
    (run : (hkTitleLoginPanelProcessEvent panel event).run w = .done (.calls out rest) w') :
    Abroad m out rest ↔ Astray m w (.call (.processEvent panel event)) := by
  rw [processEvent_run] at run
  split at run
  case isTrue first =>
    cases run
    constructor
    · rintro (⟨⟨_, _, same⟩, -⟩ | ⟨-, missing⟩ | null)
      · cases same
      · exact .login panel event first missing
      · cases null
    · intro astray
      cases astray with
      | login _ _ _ missing => exact .inr (.inl ⟨⟨_, _, rfl⟩, missing⟩)
  case isFalse later =>
    cases run
    refine iff_of_false (not_abroad nofun nofun nofun) fun astray => ?_
    cases astray with
    | login _ _ first _ => exact later first

/-- The first refresh with a PIN at hand, and the event before the first request, are the
stretches that end abroad. -/
private theorem enter_astray {m : Module} {call : GameCall} {w w' : World} {out : PluginCall}
    {rest : Frame} (run : (enter call).run w = .done (.calls out rest) w') :
    Abroad m out rest ↔ Astray m w (.call call) := by
  cases call with
  | updateVerifyMode panelSrc => exact updateVerifyMode_astray run
  | processEvent panel event => exact processEvent_astray run
  | processConfirmClick panel =>
    cases run
    exact iff_of_false (not_abroad nofun nofun nofun) nofun
  | openLoginPanel panel =>
    cases run
    exact iff_of_false (not_abroad nofun nofun nofun) nofun
  | requestLogin args =>
    obtain ⟨out', rest', same, leaves⟩ := enter_leaves run
    cases same
    cases leaves
    exact iff_of_false (not_abroad nofun nofun nofun) nofun

private theorem resume_astray {m : Module} {hook : Hook} {before : PluginCall} {frame : Frame}
    (reached : Leaves hook before frame) {value : Address} {w w' : World} {out : PluginCall}
    {rest : Frame} (run : (resume value frame).run w = .done (.calls out rest) w') :
    Abroad m out rest ↔ Astray m w (.back frame value) := by
  have interface : Abroad m out rest ↔ out.interface = some 0 := by
    apply abroad_iff_interface
    · rintro panel offset rfl
      exact resume_no_confirm run
    · rintro panel event rfl
      exact resume_no_login reached run
  rw [interface]
  cases frame with
  | instanceWanted panelOffset =>
    rw [fillLoginPanel_interface run, Option.some_inj]
    have available := (fillLoginPanel_calls panelOffset value w).mp ⟨_, _, _, run⟩
    constructor
    · exact .account panelOffset value available
    · intro astray
      cases astray with
      | account _ _ _ null => exact null
  | userIdSet panelOffset =>
    cases run
    constructor
    · exact fun null => .password panelOffset value (Option.some.inj null)
    · intro astray
      cases astray with
      | password _ _ null => exact congrArg some null
  | autoConfirm panelSrc panelOffset =>
    cases finishUpdate_leaves run
    exact iff_of_false nofun nofun
  | eventLogin panel event =>
    cases run
    exact iff_of_false nofun nofun
  | loginPanelOpened panelOffset =>
    cases run
    exact iff_of_false nofun nofun
  | finishing => cases run

private theorem starts_calls {m : Module} {c : Config} {action : Action} {cause : Cause}
    {stack : List Frame} {code : Code Exit} (starts : Starts c action cause stack code)
    (linked : Linked m c) {out : PluginCall} {rest : Frame} {w : World}
    (run : code.run c.world = .done (.calls out rest) w) :
    (∃ hook, Found m hook.own ∧ Leaves hook out rest) ∧
      (Abroad m out rest ↔ Astray m c.world cause) := by
  cases starts with
  | call call running hooked =>
    obtain ⟨out', rest', same, leaves⟩ := enter_leaves run
    cases same
    exact ⟨⟨call.hook, (linked.attached _).mp hooked, leaves⟩, enter_astray run⟩
  | back frame stack value running waiting =>
    obtain ⟨hook, before, found, reached⟩ :=
      linked.waiting frame (by rw [waiting]; exact List.mem_cons_self)
    rcases resume_leaves reached run with ⟨v, same⟩ | ⟨out', rest', same, leaves⟩
    · cases same
    · cases same
      exact ⟨⟨hook, found, leaves⟩, resume_astray reached run⟩

private theorem astray_calls {m : Module} {c : Config} {action : Action} {cause : Cause}
    {stack : List Frame} {code : Code Exit} (starts : Starts c action cause stack code)
    (astray : Astray m c.world cause) :
    ∃ out rest w, code.run c.world = .done (.calls out rest) w := by
  cases astray with
  | confirm panelSrc room first available missing =>
    obtain ⟨t, read⟩ := available
    cases starts with
    | call call running hooked =>
      refine ⟨.processConfirmClick panelSrc,
        .autoConfirm panelSrc (offsetPanel c.world.globals panelSrc),
        confirmed t (offsetPanel c.world.globals panelSrc), ?_⟩
      rw [enter, updateVerifyMode_run, if_neg room, if_pos first, read]
      rfl
  | login panel event first missing =>
    cases starts with
    | call call running hooked =>
      exact ⟨_, _, _, (processEvent_run panel event c.world).trans (if_pos first)⟩
  | account panelOffset interface available null =>
    cases starts with
    | back frame stack value running waiting =>
      exact (fillLoginPanel_calls panelOffset interface c.world).mpr available
  | password panelOffset value null =>
    cases starts with
    | back frame stack value running waiting => exact ⟨_, _, _, rfl⟩

private theorem perform_stopped {m : Module} {c : Config} {action : Action} {cause : Cause}
    {stack : List Frame} {code : Code Exit} (starts : Starts c action cause stack code)
    (linked : Linked m c) :
    (c.perform cause stack code).stopped = true ↔
      Stops m (.stretch cause c.world (code.run c.world)) := by
  have faults (u : Fault) : code.run c.world = .undefined u ↔ FaultOf c.world cause u := by
    cases starts with
    | call call running hooked => exact enter_undefined call c.world u
    | back frame stack value running waiting => exact resume_undefined value frame c.world u
  have stops : Stops m (.stretch cause c.world (code.run c.world)) ↔
      (∃ u, code.run c.world = .undefined u) ∨ Astray m c.world cause := by
    constructor
    · rintro ⟨cause', before, ending, entry, stop⟩
      obtain ⟨rfl, rfl, -⟩ := Entry.stretch.inj entry
      exact stop.imp_left fun ⟨u, fault⟩ => ⟨u, (faults u).mpr fault⟩
    · intro stop
      exact ⟨_, _, _, rfl, stop.imp_left fun ⟨u, fault⟩ => ⟨u, (faults u).mp fault⟩⟩
  have kept := starts.changes c.world
  rw [stops, Config.perform]
  cases run : code.run c.world with
  | undefined u => exact iff_of_true rfl (.inl ⟨u, rfl⟩)
  | threw e w =>
    refine iff_of_false Bool.false_ne_true ?_
    rintro (⟨u, fault⟩ | astray)
    · cases fault
    · obtain ⟨out, rest, t, called⟩ := astray_calls starts astray
      rw [run] at called
      cases called
  | done exit w =>
    cases exit with
    | returns value =>
      refine iff_of_false Bool.false_ne_true ?_
      rintro (⟨u, fault⟩ | astray)
      · cases fault
      · obtain ⟨out, rest, t, called⟩ := astray_calls starts astray
        rw [run] at called
        cases called
    | calls out rest =>
      rw [run] at kept
      have pointers : w.globals.original = c.world.globals.original := kept.hooks.2
      have resolved (o : Original) : Resolved w.globals o ↔ Found m o := by
        rw [Resolved, pointers]
        exact linked.resolved o
      obtain ⟨⟨hook, found, leaves⟩, astray⟩ := starts_calls starts linked run
      have null := (callsNull_iff resolved found leaves).trans astray
      refine decide_eq_true_iff.trans (null.trans (or_iff_right ?_).symm)
      rintro ⟨u, fault⟩
      cases fault

/-- What has happened so far: nothing has stopped the run but, at most, its newest entry. -/
structure Standing (m : Module) (c : Config) : Prop where
  linked : Linked m c
  before : ∀ e ∈ c.trace.tail, ¬ Stops m e
  now : c.stopped = true ↔ ∃ e ∈ c.trace.head?, Stops m e

private theorem perform_linked {m : Module} {c : Config} {action : Action} {cause : Cause}
    {stack : List Frame} {code : Code Exit} (starts : Starts c action cause stack code)
    (linked : Linked m c) : Linked m (c.perform cause stack code) := by
  have hooks : (c.perform cause stack code).world.globals.attached = c.world.globals.attached ∧
      (c.perform cause stack code).world.globals.original = c.world.globals.original := by
    rcases starts.world with changes | ⟨same, -⟩
    · exact changes.hooks
    · rw [same]
      exact ⟨rfl, rfl⟩
  refine ⟨?_, ?_, ?_⟩
  · rw [hooks.1]
    exact linked.attached
  · intro o
    rw [Resolved, hooks.2]
    exact linked.resolved o
  · intro frame waits
    rcases perform_stack waits with below | ⟨out, w, run⟩
    · cases starts with
      | call call running hooked => exact linked.waiting frame below
      | back first stack value running waiting =>
        exact linked.waiting frame (by rw [waiting]; exact List.mem_cons_of_mem _ below)
    · obtain ⟨⟨hook, found, leaves⟩, -⟩ := starts_calls starts linked run
      exact ⟨hook, out, found, leaves⟩

private theorem Standing.none {m : Module} {c : Config} (standing : Standing m c)
    (running : c.stopped = false) : ∀ e ∈ c.trace, ¬ Stops m e := by
  have newest := standing.now.not.mp (by rw [running]; decide)
  cases trace : c.trace with
  | nil =>
    intro e member
    cases member
  | cons e older =>
    rw [trace] at newest
    refine List.forall_mem_cons.mpr ⟨fun stops => newest ⟨e, rfl, stops⟩, ?_⟩
    have before := standing.before
    rwa [trace] at before

private theorem step_standing {m : Module} (c : Config) (action : Action)
    (standing : Standing m c) : Standing m (step c action) := by
  rcases step_cases c action with
    ⟨cause, stack, code, starts, stepped⟩ | ⟨call, same, detached, stepped⟩ | idle
  · have stopped := perform_stopped starts standing.linked
    rw [stepped]
    refine ⟨perform_linked starts standing.linked, ?_, ?_⟩
    · rw [perform_trace]
      exact standing.none starts.running
    · rw [stopped, perform_trace]
      simp
  · have running : c.stopped = false := by
      cases running : c.stopped with
      | false => rfl
      | true =>
        -- a stopped run has no further entries
        have idle : step c action = c := if_pos running
        rw [idle] at stepped
        exact absurd (congrArg Config.trace stepped).symm (List.cons_ne_self _ _)
    have passes : ¬ Stops m (.unhooked call) := by
      rintro ⟨cause, before, ending, entry, -⟩
      cases entry
    rw [stepped]
    refine ⟨⟨standing.linked.attached, standing.linked.resolved, standing.linked.waiting⟩,
      standing.none running, ?_⟩
    rw [running]
    refine iff_of_false nofun ?_
    rintro ⟨e, newest, stops⟩
    cases newest
    exact passes stops
  · have linked := standing.linked
    refine ⟨⟨?_, ?_, fun frame waits => linked.waiting frame (idle.stack frame waits)⟩, ?_, ?_⟩
    · rw [idle.globals]
      exact linked.attached
    · rw [idle.globals]
      exact linked.resolved
    · rw [idle.trace]
      exact standing.before
    · rw [idle.trace, idle.stopped]
      exact standing.now

end LoginHelper.StoppedRuns
