/- Unit: LoginHelper/WriteOnce
   source: the globals of src/loginhelper/LoginOtp.h, Lobby.h and dllmain.cpp under any game
   digest: What is cached once stays cached, what is switched off stays off, and the rest never changes. -/

import LoginHelper.Machine

set_option autoImplicit false
set_option relaxedAutoImplicit false

namespace LoginHelper.WriteOnce

open LoginHelper.Foundation.Execution LoginHelper.Foundation.Runs
open LoginHelper.Data LoginHelper.Calls LoginHelper.LoginOtp LoginHelper.Lobby
open LoginHelper.Hooks LoginHelper.Machine

def pinCache (g : Globals) : (Fin 6 → Int) × List UInt16 := (g.pincode, g.pintext)

def loginCache (g : Globals) : Int × List UInt16 × List UInt16 :=
  (g.loggedin, g.mAccount, g.mPassword)

/-- What the notification has set up: the switches, the offset, the pointers and the hooks. -/
def setup (g : Globals) : (Bool × Bool × Bool) × BitVec 32 × (Original → Address) × (Hook → Bool) :=
  ((g.keeppin, g.swapProgramid, g.initdone), g.uiPanelOffset, g.original, g.attached)

/-- The globals of one moment seen from an earlier one. The mark of an empty PIN cache is -1
in the place of the first digit, that of an empty login cache is 0. -/
structure Settles (g g' : Globals) : Prop where
  pin : g.firstDigit ≠ -1 → pinCache g' = pinCache g
  login : g.loggedin ≠ 0 → loginCache g' = loginCache g
  firstrun : g.firstrun = false → g'.firstrun = false
  setup : setup g' = setup g

theorem settles_refl (g : Globals) : Settles g g := ⟨fun _ => rfl, fun _ => rfl, id, rfl⟩

theorem Settles.trans {g g' g'' : Globals} (first : Settles g g') (second : Settles g' g'') :
    Settles g g'' where
  pin cached := by
    have same := first.pin cached
    have digit : g'.firstDigit = g.firstDigit := congrFun (congrArg Prod.fst same) 0
    exact (second.pin (by rw [digit]; exact cached)).trans same
  login cached := by
    have same := first.login cached
    have mark : g'.loggedin = g.loggedin := congrArg Prod.fst same
    exact (second.login (by rw [mark]; exact cached)).trans same
  firstrun down := second.firstrun (first.firstrun down)
  setup := second.setup.trans first.setup

private theorem refresh_pinCache {panelSrc : Address} {w t : World}
    (cached : w.globals.firstDigit ≠ -1)
    (left : ((hkLoginOtpPanelUpdateVerifyMode panelSrc).run w).state? = some t) :
    pinCache t.globals = pinCache w.globals := by
  have tail (u : World) (same : pinCache u.globals = pinCache w.globals)
      (ended : ((finishUpdate panelSrc (offsetPanel w.globals panelSrc)).run u).state? = some t) :
      pinCache t.globals = pinCache w.globals := by
    obtain ⟨u', run, globals, -⟩ := finishUpdate_run panelSrc (offsetPanel w.globals panelSrc) u
    rw [run] at ended
    obtain rfl := Option.some.inj ended
    rw [globals]
    exact same
  have held : getPin.run (refreshed w panelSrc) =
      .done (decide (w.globals.firstDigit ≠ -2)) (refreshed w panelSrc) := by
    have cached' : (refreshed w panelSrc).globals.firstDigit = w.globals.firstDigit := rfl
    by_cases none : w.globals.firstDigit = -2
    · simp [getPin, cached', none]
    · simp [getPin, cached', none, cached]
  rw [updateVerifyMode_run] at left
  split at left
  · cases left
  split at left
  · rw [held, Outcome.andThen_done] at left
    split at left
    · obtain rfl := Option.some.inj left
      rfl
    · exact tail (refreshed w panelSrc) rfl left
  · exact tail (refreshed w panelSrc) rfl left

private theorem enter_settles {call : GameCall} {w t : World}
    (left : ((enter call).run w).state? = some t) : Settles w.globals t.globals := by
  have changes : EnterChanges call w t := (enter_changes call w).state left
  have cache : w.globals.firstDigit ≠ -1 → pinCache t.globals = pinCache w.globals := by
    intro cached
    cases call with
    | updateVerifyMode panel => exact refresh_pinCache cached left
    | processConfirmClick panel => rw [show t.globals = _ from changes]; rfl
    | processEvent panel event => rw [show t.globals = _ from changes]; rfl
    | openLoginPanel panel => rw [show t = w from changes]
    | requestLogin args =>
      obtain ⟨lhdata, globals⟩ := changes
      rw [globals]
      rfl
  obtain ⟨_, _, _, firstrun, _, globals, lowered⟩ := EnterChanges.fields changes
  refine ⟨cache, fun _ => by rw [globals]; rfl, ?_, by rw [globals]; rfl⟩
  intro down
  rw [globals]
  exact lowered.elim (fun same => same.trans down) id

private theorem fill_loginCache {panelOffset interface : Address} {w t : World}
    (cached : w.globals.loggedin ≠ 0)
    (left : ((fillLoginPanel panelOffset interface).run w).state? = some t) :
    loginCache t.globals = loginCache w.globals := by
  let opened := w.withGlobals { w.globals with uiEngineInterfaceInstance := interface }
  have held : getLogin.run opened = .done true opened := by
    have cached' : opened.globals.loggedin ≠ 0 := cached
    simp [getLogin, cached']
  rw [fillLoginPanel, bind_run, assignGlobals_run, Outcome.andThen_done, bind_run, held] at left
  obtain rfl := Option.some.inj left
  rfl

private theorem resume_settles {frame : Frame} {value : Address} {w t : World}
    (left : ((resume value frame).run w).state? = some t) : Settles w.globals t.globals := by
  have changes : ResumeChanges frame w t := (resume_changes value frame w).state left
  by_cases fills : ∃ panelOffset, frame = .instanceWanted panelOffset
  · obtain ⟨panelOffset, rfl⟩ := fills
    obtain ⟨_, _, _, _, globals⟩ := changes.login
    refine ⟨fun _ => by rw [globals]; rfl, fun cached => fill_loginCache cached left,
      fun down => by rw [globals]; exact down, by rw [globals]; rfl⟩
  · rw [changes.other (not_exists.mp fills)]
    exact settles_refl _

theorem step_settles (c : Config) (action : Action) :
    Settles c.world.globals (step c action).world.globals := by
  rcases step_cases c action with
    ⟨cause, stack, code, starts, stepped⟩ | ⟨call, -, -, stepped⟩ | idle
  · rw [stepped, perform_world]
    cases left : (code.run c.world).state? with
    | none => exact settles_refl _
    | some t =>
      cases starts with
      | call call running hooked => exact enter_settles left
      | back frame stack value running waiting => exact resume_settles left
  · rw [stepped]
    exact settles_refl _
  · rw [idle.globals]
    exact settles_refl _

/-- From any moment of a run to any later one, a cached PIN and a cached login stay what they
are, a login request once made is never forgotten, and what was set up stays as it is. -/
theorem run_settles (c : Config) (actions : List Action) :
    Settles c.world.globals (run step c actions).world.globals := by
  have preserved (d : Config) (action : Action)
      (settled : Settles c.world.globals d.world.globals) :
      Settles c.world.globals (step d action).world.globals := settled.trans (step_settles d action)
  exact run_invariant_always step preserved (settles_refl _) actions

end LoginHelper.WriteOnce
