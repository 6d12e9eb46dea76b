/- Unit: LoginHelper/Machine
   source: the hooks of src/loginhelper/LoginOtp.h and src/loginhelper/Lobby.h under any game
   digest: Every interleaving of the game with the plugin, calls back into the hooks included. -/

import LoginHelper.Foundation.Runs
import LoginHelper.Hooks

set_option autoImplicit false
set_option relaxedAutoImplicit false

namespace LoginHelper.Machine

open LoginHelper.Foundation.Execution LoginHelper.Foundation.Runs
open LoginHelper.Data LoginHelper.Calls LoginHelper.LoginOtp LoginHelper.Lobby LoginHelper.Hooks

/-- What set the plugin's code going: a call of the game, or the return of one of its own. -/
inductive Cause
  | call (call : GameCall)
  | back (frame : Frame) (value : Address)

/-- One entry of the history: a stretch of plugin code with the world before it and
its ending, or a call of the game that no hook is attached to. -/
inductive Entry
  | stretch (cause : Cause) (before : World) (ending : Ending Exit)
  | unhooked (call : GameCall)

/-- The hooks that wait, innermost first, and everything that happened, newest first.
After a fault or a call that leads nowhere nothing more happens. -/
structure Config where
  world : World
  stack : List Frame
  stopped : Bool
  trace : List Entry

def Config.start (w : World) : Config := ⟨w, [], false, []⟩

/-- What the game may do while control is its own: change the process and its panels,
call one of its functions, or end the call that the plugin waits for. -/
inductive Action
  | changes (process : Process) (panels : Panels)
  | calls (call : GameCall)
  | returns (value : Address)
  | throws

/-- A call leads nowhere when the pointer it goes through is null, or the interface from
whose slot `SetTextValue` is read. -/
def CallsNull (g : Globals) (call : PluginCall) : Prop :=
  call.original.map g.original = some 0 ∨ call.interface = some 0

instance (g : Globals) (call : PluginCall) : Decidable (CallsNull g call) :=
  inferInstanceAs (Decidable (_ ∨ _))

/-- Run a stretch of plugin code, with `stack` waiting below it. -/
def Config.perform (c : Config) (cause : Cause) (stack : List Frame) (code : Code Exit) : Config :=
  let ending := code.run c.world
  let trace := .stretch cause c.world ending :: c.trace
  match ending with
  | .done (.calls call rest) w => ⟨w, rest :: stack, decide (CallsNull w.globals call), trace⟩
  | .done (.returns _) w => ⟨w, stack, false, trace⟩
  | .threw _ w => ⟨w, stack, false, trace⟩
  | .undefined _ => ⟨c.world, stack, true, trace⟩

/-- One action of the game. One that is not possible is skipped. -/
def step (c : Config) (action : Action) : Config :=
  if c.stopped then c
  else
    match action with
    | .changes process panels => { c with world := { c.world with process, panels } }
    | .calls call =>
      if c.world.globals.attached call.hook then c.perform (.call call) c.stack (enter call)
      else { c with trace := .unhooked call :: c.trace }
    | .returns value =>
      match c.stack with
      | [] => c
      | frame :: stack => c.perform (.back frame value) stack (resume value frame)
    | .throws => { c with stack := c.stack.tail }

/-- A plugin with every hook attached and every pointer resolved, before the first call. -/
def hooked (process : Process) : World :=
  ⟨process, Panels.blank,
    { Globals.initial with original := fun _ => 1, attached := fun _ => true }⟩

theorem hooked_fresh (process : Process) : (hooked process).globals.Fresh :=
  ⟨rfl, rfl, rfl, rfl, rfl, rfl⟩

/-- The action sets a stretch of plugin code going. -/
inductive Starts (c : Config) : Action → Cause → List Frame → Code Exit → Prop
  | call (call : GameCall) (running : c.stopped = false)
      (hooked : c.world.globals.attached call.hook = true) :
      Starts c (.calls call) (.call call) c.stack (enter call)
  | back (frame : Frame) (stack : List Frame) (value : Address) (running : c.stopped = false)
      (waiting : c.stack = frame :: stack) :
      Starts c (.returns value) (.back frame value) stack (resume value frame)

/-- Nothing the plugin would notice has happened. -/
structure Idle (c c' : Config) : Prop where
  trace : c'.trace = c.trace
  stopped : c'.stopped = c.stopped
  globals : c'.world.globals = c.world.globals
  stack : ∀ frame ∈ c'.stack, frame ∈ c.stack

theorem step_calls {c : Config} {call : GameCall} (running : c.stopped = false)
    (hooked : c.world.globals.attached call.hook = true) :
    step c (.calls call) = c.perform (.call call) c.stack (enter call) := by
  rw [step, if_neg (by rw [running]; decide)]
  simp only [hooked, if_true]

theorem step_returns {c : Config} {frame : Frame} {stack : List Frame} (value : Address)
    (running : c.stopped = false) (waiting : c.stack = frame :: stack) :
    step c (.returns value) = c.perform (.back frame value) stack (resume value frame) := by
  rw [step, if_neg (by rw [running]; decide)]
  simp only [waiting]

/-- An action runs plugin code, is a call no hook sees, or leaves globals and history alone. -/
theorem step_cases (c : Config) (action : Action) :
    (∃ cause stack code, Starts c action cause stack code ∧
      step c action = c.perform cause stack code) ∨
    (∃ call, action = .calls call ∧ c.world.globals.attached call.hook = false ∧
      step c action = { c with trace := .unhooked call :: c.trace }) ∨
    Idle c (step c action) := by
  cases running : c.stopped with
  | true =>
    have idle : step c action = c := if_pos running
    exact .inr (.inr (by rw [idle]; exact ⟨rfl, rfl, rfl, fun _ h => h⟩))
  | false =>
    have going : ¬ c.stopped = true := by rw [running]; decide
    cases action with
    | changes process panels =>
      rw [step, if_neg going]
      exact .inr (.inr ⟨rfl, rfl, rfl, fun _ h => h⟩)
    | calls call =>
      cases hooked : c.world.globals.attached call.hook with
      | true => exact .inl ⟨_, _, _, .call call running hooked, step_calls running hooked⟩
      | false =>
        refine .inr (.inl ⟨call, rfl, hooked, ?_⟩)
        rw [step, if_neg going]
        simp only [hooked, Bool.false_eq_true, if_false]
        rw [running]
    | returns value =>
      cases waiting : c.stack with
      | nil =>
        have idle : step c (.returns value) = c := by
          rw [step, if_neg going]
          simp only [waiting]
        rw [idle]
        exact .inr (.inr ⟨rfl, rfl, rfl, fun _ h => h⟩)
      | cons frame stack =>
        exact .inl ⟨_, _, _, .back frame stack value running waiting,
          step_returns value running waiting⟩
    | throws =>
      rw [step, if_neg going]
      exact .inr (.inr ⟨rfl, rfl, rfl, fun _ h => List.mem_of_mem_tail h⟩)

theorem step_world_cases (c : Config) (action : Action) :
    (∃ cause stack code, Starts c action cause stack code ∧
      step c action = c.perform cause stack code) ∨
    (∃ process panels, action = .changes process panels ∧
      (step c action).world = { c.world with process, panels }) ∨
    (step c action).world = c.world := by
  cases running : c.stopped with
  | true =>
    have idle : step c action = c := if_pos running
    exact .inr (.inr (by rw [idle]))
  | false =>
    have going : ¬ c.stopped = true := by rw [running]; decide
    cases action with
    | changes process panels =>
      exact .inr (.inl ⟨process, panels, rfl, by rw [step, if_neg going]⟩)
    | calls call =>
      cases hooked : c.world.globals.attached call.hook with
      | true => exact .inl ⟨_, _, _, .call call running hooked, step_calls running hooked⟩
      | false =>
        refine .inr (.inr ?_)
        rw [step, if_neg going]
        simp only [hooked, Bool.false_eq_true, if_false]
    | returns value =>
      cases waiting : c.stack with
      | nil =>
        refine .inr (.inr ?_)
        rw [step, if_neg going]
        simp only [waiting]
      | cons frame stack =>
        exact .inl ⟨_, _, _, .back frame stack value running waiting,
          step_returns value running waiting⟩
    | throws =>
      rw [step, if_neg going]
      exact .inr (.inr rfl)

@[simp] theorem perform_trace (c : Config) (cause : Cause) (stack : List Frame) (code : Code Exit) :
    (c.perform cause stack code).trace =
      .stretch cause c.world (code.run c.world) :: c.trace := by
  unfold Config.perform
  cases code.run c.world with
  | done exit w => cases exit <;> rfl
  | threw e w => rfl
  | undefined u => rfl

theorem single_trace {w : World} {call : GameCall}
    (hooked : w.globals.attached call.hook = true) :
    (run step (Config.start w) [.calls call]).trace =
      [.stretch (.call call) w ((enter call).run w)] := by
  rw [run_cons, run_nil, step_calls rfl hooked, perform_trace]
  rfl

theorem perform_world (c : Config) (cause : Cause) (stack : List Frame) (code : Code Exit) :
    (c.perform cause stack code).world = ((code.run c.world).state?).getD c.world := by
  unfold Config.perform
  cases code.run c.world with
  | done exit w => cases exit <;> rfl
  | threw e w => rfl
  | undefined u => rfl

theorem perform_stack {c : Config} {cause : Cause} {stack : List Frame} {code : Code Exit}
    {frame : Frame} (member : frame ∈ (c.perform cause stack code).stack) :
    frame ∈ stack ∨ ∃ out w, code.run c.world = .done (.calls out frame) w := by
  unfold Config.perform at member
  cases ending : code.run c.world with
  | done exit w =>
    rw [ending] at member
    cases exit with
    | calls out rest =>
      rcases List.mem_cons.mp member with rfl | below
      · exact .inr ⟨out, w, rfl⟩
      · exact .inl below
    | returns value => exact .inl member
  | threw e w => rw [ending] at member; exact .inl member
  | undefined u => rw [ending] at member; exact .inl member

def CauseChanges : Cause → World → World → Prop
  | .call call => EnterChanges call
  | .back frame _ => ResumeChanges frame

theorem Starts.changes {c : Config} {action : Action} {cause : Cause} {stack : List Frame}
    {code : Code Exit} (starts : Starts c action cause stack code) :
    code.Keeps (CauseChanges cause) := by
  cases starts with
  | call call running hooked => exact enter_changes call
  | back frame stack value running waiting => exact resume_changes value frame

theorem Starts.running {c : Config} {action : Action} {cause : Cause} {stack : List Frame}
    {code : Code Exit} (starts : Starts c action cause stack code) : c.stopped = false := by
  cases starts with
  | call call running hooked => exact running
  | back frame stack value running waiting => exact running

/-- A stretch changes the world as its cause allows, unless it faults and stops the run. -/
theorem Starts.world {c : Config} {action : Action} {cause : Cause} {stack : List Frame}
    {code : Code Exit} (starts : Starts c action cause stack code) :
    CauseChanges cause c.world (c.perform cause stack code).world ∨
      (c.perform cause stack code).world = c.world ∧
        (c.perform cause stack code).stopped = true := by
  have kept := starts.changes c.world
  unfold Config.perform
  cases ending : code.run c.world with
  | done exit w =>
    rw [ending] at kept
    cases exit with
    | calls call rest => exact .inl kept
    | returns value => exact .inl kept
  | threw e w =>
    rw [ending] at kept
    exact .inl kept
  | undefined u => exact .inr ⟨rfl, rfl⟩

theorem CauseChanges.hooks {cause : Cause} {w w' : World} (h : CauseChanges cause w w') :
    w'.globals.attached = w.globals.attached ∧ w'.globals.original = w.globals.original := by
  cases cause with
  | call call =>
    obtain ⟨_, _, _, _, _, globals, -⟩ := EnterChanges.fields h
    rw [globals]
    exact ⟨rfl, rfl⟩
  | back frame value =>
    obtain ⟨_, _, _, _, globals⟩ := h.login
    rw [globals]
    exact ⟨rfl, rfl⟩

theorem step_attached (c : Config) (action : Action) :
    (step c action).world.globals.attached = c.world.globals.attached := by
  rcases step_cases c action with
    ⟨cause, stack, code, starts, stepped⟩ | ⟨call, -, -, stepped⟩ | idle
  · rw [stepped]
    rcases starts.world with changes | ⟨same, -⟩
    · exact changes.hooks.1
    · rw [same]
  · rw [stepped]
  · rw [idle.globals]

end LoginHelper.Machine
