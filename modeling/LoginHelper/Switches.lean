/- Unit: LoginHelper/Switches
   source: the end of oep_notify in src/loginhelper/dllmain.cpp
   digest: Which switches are on after the notification, and how reading them can fail. -/

import LoginHelper.CommandLineArguments
import LoginHelper.Faults
import LoginHelper.HookClosure

set_option autoImplicit false
set_option relaxedAutoImplicit false

namespace LoginHelper.Switches

open LoginHelper.Foundation.Execution
open LoginHelper.Windows.ProcessEnvironment
open LoginHelper.Windows.Runtime (StdException stoi)
open LoginHelper.CommandLine (hasSwitch keepPinRegex fixProgramIdRegex)
open LoginHelper.CommandLineArguments (HasWord hasSwitch_iff)
open LoginHelper.Data LoginHelper.Dllmain
open LoginHelper.HookClosure (hookModule_only eventOnly)
open LoginHelper.LoginOptions (ends_nil)
open LoginHelper.Faults (found readWide_found)

def withSwitches (w : World) (keep swap : Bool) : World :=
  w.withGlobals { w.globals with keeppin := keep, swapProgramid := swap }

section Read

variable (w : World)

private theorem keepPinSwitch_run (swap : Bool) : keepPinSwitch.run (withSwitches w false swap) =
    .done () (withSwitches w (hasSwitch keepPinRegex w.process.commandLine) swap) := by
  rw [keepPinSwitch, bind_run, readState_run, Outcome.andThen_done, ite_run]
  cases on : hasSwitch keepPinRegex w.process.commandLine with
  | true => exact if_pos on
  | false => exact if_neg (ne_true_of_eq_false on)

private theorem fixProgramIdSwitch_run (keep swap : Bool) :
    fixProgramIdSwitch.run (withSwitches w keep swap) = .done ()
      (withSwitches w keep (swap || hasSwitch fixProgramIdRegex w.process.commandLine)) := by
  rw [fixProgramIdSwitch, bind_run, readState_run, Outcome.andThen_done, ite_run]
  cases swap with
  | true => rfl
  | false =>
    rw [if_pos (show (withSwitches w keep false).globals.swapProgramid = false from rfl), ite_run]
    cases on : hasSwitch fixProgramIdRegex w.process.commandLine with
    | true => exact if_pos on
    | false => exact if_neg (ne_true_of_eq_false on)

private theorem fixProgramIdVariable_run (keep : Bool) :
    fixProgramIdVariable.run (withSwitches w keep false) =
      match found w.process .bnsServerFixProgramId with
      | none => .done () (withSwitches w keep false)
      | some none => .undefined .unterminatedBuffer
      | some (some text) => match stoi text with
        | .ok n => .done () (withSwitches w keep (decide (n = 1)))
        | .error e => .threw e (withSwitches w keep false) := by
  have read : (readWide .bnsServerFixProgramId).run (withSwitches w keep false) =
      match found w.process .bnsServerFixProgramId with
      | none => .done none (withSwitches w keep false)
      | some none => .undefined .unterminatedBuffer
      | some (some text) => .done (some text) (withSwitches w keep false) :=
    readWide_found _ (withSwitches w keep false)
  rw [fixProgramIdVariable, bind_run, read]
  rcases found w.process .bnsServerFixProgramId with _ | _ | text
  · rfl
  · rfl
  · show (returnedOr (stoi text) >>= fun n =>
      if n = 1 then setSwapProgramid else pure () : Code Unit).run _ = _
    cases value : stoi text with
    | error e =>
      simp only [value]
      rfl
    | ok n =>
      simp only [value]
      show (if n = 1 then setSwapProgramid else pure () : Code Unit).run _ = _
      rw [ite_run]
      by_cases one : n = 1
      · rw [if_pos one, decide_eq_true one]
        rfl
      · rw [if_neg one, decide_eq_false one]
        rfl

/-- How the three reads end, given what the variable holds and which words the line has. -/
def switchesEnd (held : Option (Option WString)) (keep swap : Bool) :
    Outcome StdException Fault World Unit :=
  match held with
  | none => .done () (withSwitches w keep swap)
  | some none => .undefined .unterminatedBuffer
  | some (some text) => match stoi text with
    | .ok n => .done () (withSwitches w keep (decide (n = 1) || swap))
    | .error e => .threw e (withSwitches w keep false)

private theorem readSwitches_run : readSwitches.run (withSwitches w false false) =
    switchesEnd w (found w.process .bnsServerFixProgramId)
      (hasSwitch keepPinRegex w.process.commandLine)
      (hasSwitch fixProgramIdRegex w.process.commandLine) := by
  rw [readSwitches, bind_run, keepPinSwitch_run, Outcome.andThen_done, bind_run,
    fixProgramIdVariable_run]
  rcases found w.process .bnsServerFixProgramId with _ | _ | text
  · exact fixProgramIdSwitch_run w _ false
  · rfl
  · unfold switchesEnd
    cases value : stoi text with
    | error e =>
      simp only [value]
      rfl
    | ok n =>
      simp only [value]
      exact fixProgramIdSwitch_run w _ _

variable {w} {held : Option (Option WString)} {keep swap : Bool}

private theorem switchesEnd_undefined :
    (∃ u, switchesEnd w held keep swap = .undefined u) ↔ held = some none := by
  unfold switchesEnd
  rcases held with _ | _ | text
  · simp
  · simp
  · cases value : stoi text with
    | error e => simp [value]
    | ok n => simp [value]

private theorem switchesEnd_threw {e : StdException} :
    (∃ t, switchesEnd w held keep swap = .threw e t) ↔
      ∃ text, held = some (some text) ∧ stoi text = .error e := by
  unfold switchesEnd
  rcases held with _ | _ | text
  · simp
  · simp
  · cases value : stoi text with
    | error e' => simp [value]
    | ok n => simp [value]

private theorem switchesEnd_state {t : World}
    (after : (switchesEnd w held keep swap).state? = some t) :
    (t.globals.keeppin = true ↔ keep = true) ∧
    (t.globals.swapProgramid = true ↔
      (∀ text, held = some (some text) → ∃ n, stoi text = .ok n) ∧
      ((∃ text, held = some (some text) ∧ stoi text = .ok 1) ∨ swap = true)) := by
  unfold switchesEnd at after
  rcases held with _ | _ | text
  · cases after
    simp [withSwitches]
  · cases after
  · cases value : stoi text with
    | error e =>
      simp only [value] at after
      cases after
      simp [withSwitches, value]
    | ok n =>
      simp only [value] at after
      cases after
      simp [withSwitches, value]

end Read

/-- After a notification the PIN is kept if the line has `-KEEPPIN` as a word, and program ids
are swapped if the variable holds the number one or the line has `-FIXPROGRAMID` as a word. A
variable that holds no number throws, and the word for the program id is not looked for then; a
variable that is too long faults. -/
theorem notified_switches (m : Module) (start : World) (fresh : start.globals = Globals.initial) :
    ((∃ u, (oepNotify (some m)).run start = .undefined u) ↔
      found start.process .bnsServerFixProgramId = some none) ∧
    (∀ e, (∃ w, (oepNotify (some m)).run start = .threw e w) ↔
      ∃ text, found start.process .bnsServerFixProgramId = some (some text) ∧
        stoi text = .error e) ∧
    ∀ w, ((oepNotify (some m)).run start).state? = some w →
      (w.globals.keeppin = true ↔ HasWord " -KEEPPIN" start.process.commandLine) ∧
      (w.globals.swapProgramid = true ↔
        (∀ text, found start.process .bnsServerFixProgramId = some (some text) →
          ∃ n, stoi text = .ok n) ∧
        ((∃ text, found start.process .bnsServerFixProgramId = some (some text) ∧
          stoi text = .ok 1) ∨ HasWord " -FIXPROGRAMID" start.process.commandLine)) := by
  let begun := start.withGlobals (hookModule m { Globals.initial with initdone := true })
  obtain ⟨original, attached, offset, hooked⟩ :=
    hookModule_only m { Globals.initial with initdone := true }
  have off : begun = withSwitches begun false false := by
    simp only [begun, hooked]
    rfl
  have whole : (oepNotify (some m)).run start =
      readSwitches.run (withSwitches begun false false) := by
    rw [oepNotify, bind_run, readState_run, Outcome.andThen_done, ite_run,
      if_neg (by rw [fresh]; decide), bind_run, assignGlobals_run, Outcome.andThen_done, fresh]
    exact congrArg readSwitches.run off
  have same : begun.process = start.process := rfl
  rw [whole, readSwitches_run, same, ← hasSwitch_iff, ← hasSwitch_iff]
  exact ⟨switchesEnd_undefined, fun e => switchesEnd_threw, fun t => switchesEnd_state⟩

def keeping : World :=
  ⟨{ Process.bare with commandLine := wide "BNSR.exe -keeppin" }, Panels.blank, Globals.initial⟩

theorem notified_switches_keeping : ∃ w,
    ((oepNotify (some eventOnly)).run keeping).state? = some w ∧ w.globals.keeppin = true := by
  obtain ⟨faults, throws, ends⟩ := notified_switches eventOnly keeping rfl
  have unset : found keeping.process .bnsServerFixProgramId = none := rfl
  have ending : ∃ w, ((oepNotify (some eventOnly)).run keeping).state? = some w := by
    cases run : (oepNotify (some eventOnly)).run keeping with
    | done exit w => exact ⟨w, rfl⟩
    | threw e w => exact ⟨w, rfl⟩
    | undefined u =>
      have unterminated := faults.mp ⟨u, run⟩
      rw [unset] at unterminated
      cases unterminated
  obtain ⟨w, after⟩ := ending
  refine ⟨w, after, (ends w after).1.mpr ?_⟩
  exact ⟨wide "BNSR.exe", wide " -keeppin", [], rfl, by decide, ends_nil⟩

end LoginHelper.Switches
