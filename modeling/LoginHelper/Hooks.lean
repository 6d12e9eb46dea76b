/- Unit: LoginHelper/Hooks
   source: src/loginhelper/LoginOtp.h and src/loginhelper/Lobby.h, taken together
   digest: The plugin as the game sees it: hooks entered, originals returned from. -/

import LoginHelper.Lobby
import LoginHelper.LoginOtp

set_option autoImplicit false
set_option relaxedAutoImplicit false

namespace LoginHelper.Hooks

open LoginHelper.Foundation.Execution
open LoginHelper.Data LoginHelper.Calls LoginHelper.LoginOtp LoginHelper.Lobby

def enter : GameCall → Code Exit
  | .updateVerifyMode panel => hkLoginOtpPanelUpdateVerifyMode panel
  | .processConfirmClick panel => hkLoginOtpPanelProcessConfirmClick panel .finishing
  | .processEvent panel event => hkTitleLoginPanelProcessEvent panel event
  | .openLoginPanel panel => hkTitleLoginPanelOpenLoginPanel panel
  | .requestLogin args => hkLobbyRequestLogin args

def resume (value : Address) : Frame → Code Exit
  | .finishing => pure (.returns value)
  | .autoConfirm panelSrc panelOffset => finishUpdate panelSrc panelOffset
  | .eventLogin panel event => pure (.calls (.processEvent panel event) .finishing)
  | .loginPanelOpened panelOffset => pure (.calls .getInstance (.instanceWanted panelOffset))
  | .instanceWanted panelOffset => fillLoginPanel panelOffset value
  | .userIdSet panelOffset => fillPassword panelOffset

/-- A hook can make the call, some stretch of it after the other: the worlds it finds
itself in are arbitrary each time. -/
inductive MayCall (hook : Hook) : PluginCall → Frame → Prop
  | first (call : GameCall) (own : call.hook = hook) (w w' : World) (out : PluginCall) (rest : Frame)
      (run : (enter call).run w = .done (.calls out rest) w') : MayCall hook out rest
  | later (before : PluginCall) (frame : Frame) (reached : MayCall hook before frame)
      (value : Address) (w w' : World) (out : PluginCall) (rest : Frame)
      (run : (resume value frame).run w = .done (.calls out rest) w') : MayCall hook out rest

theorem finishUpdate_run (panelSrc panelOffset : Address) (w : World) :
    ∃ w', (finishUpdate panelSrc panelOffset).run w =
        .done (.calls (.updateVerifyMode panelSrc) .finishing) w' ∧
      w'.globals = w.globals ∧ w'.process = w.process := by
  by_cases many : 4 < (w.panels.otp panelOffset).verifyFailCount
  · refine ⟨w.withOtpPanel panelOffset { w.panels.otp panelOffset with verifyFailCount := 1 },
      ?_, rfl, rfl⟩
    simp [finishUpdate, many, writePanel]
  · exact ⟨w, by simp [finishUpdate, many], rfl, rfl⟩

/-- The world in which `hkLoginOtpPanel_updateVerifyMode` decides. -/
def refreshed (w : World) (panelSrc : Address) : World :=
  let panelOffset := offsetPanel w.globals panelSrc
  (w.withOtpPanel panelOffset (enableKeyboard (w.panels.otp panelOffset))).withGlobals
    { w.globals with pincount := w.globals.pincount + 1 }

def FirstRefresh (w : World) (panelSrc : Address) : Prop :=
  (w.panels.otp (offsetPanel w.globals panelSrc)).verifyFailCount = 0 ∧ w.globals.pincount = 0

instance (w : World) (panelSrc : Address) : Decidable (FirstRefresh w panelSrc) :=
  inferInstanceAs (Decidable (_ ∧ _))

/-- The PIN panel once the PIN is typed in, with `pincount` reset by the hook itself. -/
def confirmed (w : World) (panelOffset : Address) : World :=
  (w.withOtpPanel panelOffset (enterPin w.globals.pincode (w.panels.otp panelOffset))).withGlobals
    { w.globals with pincount := 0 }

theorem refreshed_fails (w : World) (panelSrc : Address) :
    ((refreshed w panelSrc).panels.otp (offsetPanel w.globals panelSrc)).verifyFailCount =
      (w.panels.otp (offsetPanel w.globals panelSrc)).verifyFailCount := by
  simp [refreshed, enableKeyboard]

private theorem incrementPincount_run (w : World) : incrementPincount.run w =
    if w.globals.pincount = 2 ^ 31 - 1 then .undefined .signedOverflow
    else .done () (w.withGlobals { w.globals with pincount := w.globals.pincount + 1 }) := by
  rw [incrementPincount, bind_run, readState_run, Outcome.andThen_done, ite_run]
  rfl

/-- The hook of the refresh: it counts, decides, and either confirms or passes on. -/
theorem updateVerifyMode_run (panelSrc : Address) (w : World) :
    (hkLoginOtpPanelUpdateVerifyMode panelSrc).run w =
      if w.globals.pincount = 2 ^ 31 - 1 then .undefined .signedOverflow
      else if FirstRefresh w panelSrc then
        (getPin.run (refreshed w panelSrc)).andThen fun available t =>
          if available then
            .done (.calls (.processConfirmClick panelSrc)
              (.autoConfirm panelSrc (offsetPanel w.globals panelSrc)))
              (confirmed t (offsetPanel w.globals panelSrc))
          else (finishUpdate panelSrc (offsetPanel w.globals panelSrc)).run t
      else (finishUpdate panelSrc (offsetPanel w.globals panelSrc)).run (refreshed w panelSrc) := by
  let keyed := w.withOtpPanel (offsetPanel w.globals panelSrc)
    (enableKeyboard (w.panels.otp (offsetPanel w.globals panelSrc)))
  have counted := incrementPincount_run keyed
  have decided : ((refreshed w panelSrc).panels.otp
      (offsetPanel w.globals panelSrc)).verifyFailCount = 0 ∧
        (refreshed w panelSrc).globals.pincount - 1 = 0 ↔ FirstRefresh w panelSrc := by
    rw [refreshed_fails]
    exact and_congr_right' (by simp [refreshed])
  have unfolded : (hkLoginOtpPanelUpdateVerifyMode panelSrc).run w =
      (incrementPincount.run keyed).andThen fun _ t =>
        (if (t.panels.otp (offsetPanel w.globals panelSrc)).verifyFailCount = 0 ∧
            t.globals.pincount - 1 = 0 then
          getPin >>= fun available =>
            if available = true then (do
              let u ← readState
              writePanel (offsetPanel w.globals panelSrc) (enterPin u.globals.pincode)
              hkLoginOtpPanelProcessConfirmClick panelSrc
                (.autoConfirm panelSrc (offsetPanel w.globals panelSrc)))
            else finishUpdate panelSrc (offsetPanel w.globals panelSrc)
        else finishUpdate panelSrc (offsetPanel w.globals panelSrc)).run t := rfl
  rw [unfolded, counted]
  by_cases full : w.globals.pincount = 2 ^ 31 - 1
  · rw [if_pos full, if_pos (show keyed.globals.pincount = 2 ^ 31 - 1 from full)]
    rfl
  · rw [if_neg full, if_neg (show ¬ keyed.globals.pincount = 2 ^ 31 - 1 from full),
      Outcome.andThen_done, ite_run]
    exact ite_congr (propext decided) (fun _ => by
      rw [bind_run]
      apply congrArg
      funext available t
      cases available <;> rfl) (fun _ => rfl)

/-- The first login request ends the automatic login, and the event that comes before
it starts one. -/
theorem processEvent_run (panel event : Address) (w : World) :
    (hkTitleLoginPanelProcessEvent panel event).run w =
      if w.globals.firstrun = true then
        .done (.calls (.processLogin panel) (.eventLogin panel event))
          (w.withGlobals { w.globals with pincount := 0 })
      else .done (.calls (.processEvent panel event) .finishing) w := by
  rw [hkTitleLoginPanelProcessEvent, bind_run, readState_run, Outcome.andThen_done, ite_run]
  rfl

def EnterChanges : GameCall → World → World → Prop
  | .updateVerifyMode _, w, w' => ∃ pincode pintext pincount, w'.globals =
      { w.globals with pincode := pincode, pintext := pintext, pincount := pincount }
  | .processConfirmClick _, w, w' => w'.globals = { w.globals with pincount := 0 }
  | .processEvent _ _, w, w' => w'.globals =
      { w.globals with pincount := if w.globals.firstrun then 0 else w.globals.pincount }
  | .openLoginPanel _, w, w' => w' = w
  | .requestLogin _, w, w' => ∃ lhdata, w'.globals =
      { w.globals with firstrun := false, lhdata := lhdata }

/-- The globals after a later stretch: only the one that fills in the login changes any. -/
structure ResumeChanges (frame : Frame) (w w' : World) : Prop where
  login : ∃ loggedin account password interface, w'.globals =
    { w.globals with
      loggedin := loggedin, mAccount := account, mPassword := password
      uiEngineInterfaceInstance := interface }
  other : (∀ panelOffset, frame ≠ .instanceWanted panelOffset) → w'.globals = w.globals

theorem ResumeChanges.of_same {frame : Frame} {w w' : World} (same : w'.globals = w.globals) :
    ResumeChanges frame w w' :=
  ⟨⟨w.globals.loggedin, w.globals.mAccount, w.globals.mPassword,
    w.globals.uiEngineInterfaceInstance, same⟩, fun _ => same⟩

private theorem finishUpdate_changes (panelSrc panelOffset : Address) :
    (finishUpdate panelSrc panelOffset).Keeps fun w w' => w'.globals = w.globals := by
  intro w
  obtain ⟨t, run, globals, -⟩ := finishUpdate_run panelSrc panelOffset w
  rw [run]
  exact globals

private theorem updateVerifyMode_changes (panelSrc : Address) :
    (hkLoginOtpPanelUpdateVerifyMode panelSrc).Keeps
      (EnterChanges (.updateVerifyMode panelSrc)) := by
  intro w
  let start := refreshed w panelSrc
  have tail (t : World) (pin : SameButPin start t) :
      ((finishUpdate panelSrc (offsetPanel w.globals panelSrc)).run t).Yields
        (fun _ w' => EnterChanges (.updateVerifyMode panelSrc) w w')
        (EnterChanges (.updateVerifyMode panelSrc) w) := by
    obtain ⟨-, pincode, pintext, globals⟩ := pin
    obtain ⟨u, run, same, -⟩ :=
      finishUpdate_run panelSrc (offsetPanel w.globals panelSrc) t
    rw [run]
    exact ⟨pincode, pintext, w.globals.pincount + 1, by rw [same, globals]; rfl⟩
  rw [updateVerifyMode_run]
  split
  · exact trivial
  split
  · have pin := getPin_frame start
    cases read : getPin.run start with
    | done available t =>
      rw [read] at pin
      rw [Outcome.andThen_done]
      cases available with
      | true =>
        obtain ⟨-, pincode, pintext, globals⟩ := pin
        exact ⟨pincode, pintext, 0, by
          show { t.globals with pincount := 0 } = _
          rw [globals]; rfl⟩
      | false => exact tail t pin
    | threw e t =>
      rw [read] at pin
      obtain ⟨-, pincode, pintext, globals⟩ := pin
      exact ⟨pincode, pintext, w.globals.pincount + 1, by rw [globals]; rfl⟩
    | undefined u => exact trivial
  · exact tail start (sameButPin_frame.refl start)

private theorem requestLogin_changes (args : LobbyLogin UInt16) :
    (hkLobbyRequestLogin args).Keeps (EnterChanges (.requestLogin args)) := by
  intro w
  have frame := sameButServer_frame
  have rest : (getServer >>= fun any =>
      if any = true then do
        let t ← readState
        pure (.calls (.requestLogin (toOriginal (overrideLogin t.globals.lhdata
          (swapped w.globals.swapProgramid args)))) .finishing)
      else pure (.calls (.requestLogin (toOriginal (swapped w.globals.swapProgramid args)))
        .finishing) : Code Exit).Keeps SameButServer :=
    keeps_bind frame getServer_frame fun any =>
      keeps_ite _ (keeps_bind frame (keeps_readState frame) fun _ => keeps_pure frame _)
        (keeps_pure frame _)
  have changed (t : World) (server : SameButServer (w.withGlobals { w.globals with
      firstrun := false }) t) : EnterChanges (.requestLogin args) w t := by
    obtain ⟨-, d, globals⟩ := server
    exact ⟨d, globals⟩
  exact (rest (w.withGlobals { w.globals with firstrun := false })).mono
    (fun _ t => changed t) changed

theorem enter_changes (call : GameCall) : (enter call).Keeps (EnterChanges call) := by
  cases call with
  | updateVerifyMode panel => exact updateVerifyMode_changes panel
  | processConfirmClick panel => exact fun w => rfl
  | processEvent panel event =>
    intro w
    rw [enter, processEvent_run]
    cases first : w.globals.firstrun with
    | true =>
      show EnterChanges (.processEvent panel event) w (w.withGlobals { w.globals with pincount := 0 })
      rw [EnterChanges, first]
      rfl
    | false =>
      show EnterChanges (.processEvent panel event) w w
      rw [EnterChanges, first]
      rfl
  | openLoginPanel panel => exact fun w => rfl
  | requestLogin args => exact requestLogin_changes args

theorem EnterChanges.fields {call : GameCall} {w w' : World} (h : EnterChanges call w w') :
    ∃ pincode pintext pincount firstrun lhdata, w'.globals =
      { w.globals with
        pincode := pincode, pintext := pintext, pincount := pincount
        firstrun := firstrun, lhdata := lhdata } ∧
      (firstrun = w.globals.firstrun ∨ firstrun = false) := by
  cases call with
  | updateVerifyMode panel =>
    obtain ⟨pincode, pintext, pincount, globals⟩ := h
    exact ⟨pincode, pintext, pincount, _, _, globals, .inl rfl⟩
  | processConfirmClick panel => exact ⟨_, _, _, _, _, h, .inl rfl⟩
  | processEvent panel event => exact ⟨_, _, _, _, _, h, .inl rfl⟩
  | openLoginPanel panel =>
    obtain rfl : w' = w := h
    exact ⟨_, _, _, _, _, rfl, .inl rfl⟩
  | requestLogin args =>
    obtain ⟨lhdata, globals⟩ := h
    exact ⟨_, _, _, false, lhdata, globals, .inr rfl⟩

private theorem fillLoginPanel_changes (panelOffset interface : Address) :
    (fillLoginPanel panelOffset interface).Keeps (ResumeChanges (.instanceWanted panelOffset)) := by
  intro w
  have frame := sameButLogin_frame
  have rest : (getLogin >>= fun found =>
      if found = true then do
        let t ← readState
        pure (.calls (setTextValue t.globals (t.panels.titleLogin panelOffset).userIdEditBoxID
          t.globals.mAccount) (.userIdSet panelOffset))
      else pure (.returns 0) : Code Exit).Keeps SameButLogin :=
    keeps_bind frame getLogin_frame fun found =>
      keeps_ite _ (keeps_bind frame (keeps_readState frame) fun _ => keeps_pure frame _)
        (keeps_pure frame _)
  have changed (t : World) (login : SameButLogin (w.withGlobals { w.globals with
      uiEngineInterfaceInstance := interface }) t) :
      ResumeChanges (.instanceWanted panelOffset) w t := by
    obtain ⟨loggedin, account, password, globals⟩ := login
    exact ⟨⟨loggedin, account, password, interface, globals⟩, fun other => absurd rfl (other _)⟩
  exact (rest (w.withGlobals { w.globals with uiEngineInterfaceInstance := interface })).mono
    (fun _ t => changed t) changed

theorem resume_changes (value : Address) (frame : Frame) :
    (resume value frame).Keeps (ResumeChanges frame) := by
  cases frame with
  | finishing => exact fun w => ResumeChanges.of_same rfl
  | autoConfirm panelSrc panelOffset =>
    exact fun w => (finishUpdate_changes panelSrc panelOffset w).mono
      (fun _ _ => ResumeChanges.of_same) fun _ => ResumeChanges.of_same
  | eventLogin panel event => exact fun w => ResumeChanges.of_same rfl
  | loginPanelOpened panelOffset => exact fun w => ResumeChanges.of_same rfl
  | instanceWanted panelOffset => exact fillLoginPanel_changes panelOffset value
  | userIdSet panelOffset => exact fun w => ResumeChanges.of_same rfl

/-- The calls a hook makes, with what is left of it meanwhile. -/
inductive Leaves : Hook → PluginCall → Frame → Prop
  | update (panel : Address) :
      Leaves .loginOtpPanelUpdateVerifyMode (.updateVerifyMode panel) .finishing
  | autoConfirm (panel panelOffset : Address) :
      Leaves .loginOtpPanelUpdateVerifyMode (.processConfirmClick panel)
        (.autoConfirm panel panelOffset)
  | confirm (panel : Address) :
      Leaves .loginOtpPanelProcessConfirmClick (.processConfirmClick panel) .finishing
  | eventLogin (panel event : Address) :
      Leaves .titleLoginPanelProcessEvent (.processLogin panel) (.eventLogin panel event)
  | event (panel event : Address) :
      Leaves .titleLoginPanelProcessEvent (.processEvent panel event) .finishing
  | openPanel (panel panelOffset : Address) :
      Leaves .titleLoginPanelOpenLoginPanel (.openLoginPanel panel) (.loginPanelOpened panelOffset)
  | getInstance (panelOffset : Address) :
      Leaves .titleLoginPanelOpenLoginPanel .getInstance (.instanceWanted panelOffset)
  | userId (interface slot panelOffset : Address) (editBox : UInt32) (text : List UInt16) :
      Leaves .titleLoginPanelOpenLoginPanel (.setTextValue interface slot editBox text)
        (.userIdSet panelOffset)
  | password (interface slot : Address) (editBox : UInt32) (text : List UInt16) :
      Leaves .titleLoginPanelOpenLoginPanel (.setTextValue interface slot editBox text) .finishing
  | requestLogin (args : LobbyLogin Int) :
      Leaves .lobbyRequestLogin (.requestLogin args) .finishing

theorem finishUpdate_leaves {panelSrc panelOffset : Address} {w w' : World} {exit : Exit}
    (run : (finishUpdate panelSrc panelOffset).run w = .done exit w') :
    exit = .calls (.updateVerifyMode panelSrc) .finishing := by
  obtain ⟨t, tail, -⟩ := finishUpdate_run panelSrc panelOffset w
  rw [tail] at run
  exact (Outcome.done.inj run).1.symm

theorem updateVerifyMode_leaves {panelSrc : Address} {w w' : World} {exit : Exit}
    (run : (hkLoginOtpPanelUpdateVerifyMode panelSrc).run w = .done exit w') :
    exit = .calls (.updateVerifyMode panelSrc) .finishing ∨
      exit = .calls (.processConfirmClick panelSrc)
        (.autoConfirm panelSrc (offsetPanel w.globals panelSrc)) := by
  rw [updateVerifyMode_run] at run
  split at run
  · cases run
  · split at run
    · obtain ⟨available, t, -, run⟩ := Outcome.andThen_eq_done run
      split at run
      · exact .inr (Outcome.done.inj run).1.symm
      · exact .inl (finishUpdate_leaves run)
    · exact .inl (finishUpdate_leaves run)

private theorem requestLogin_leaves {args : LobbyLogin UInt16} {w w' : World} {exit : Exit}
    (run : (hkLobbyRequestLogin args).run w = .done exit w') :
    ∃ out, exit = .calls (.requestLogin out) .finishing := by
  rw [hkLobbyRequestLogin, bind_run, assignGlobals_run, Outcome.andThen_done, bind_run,
    readState_run, Outcome.andThen_done, bind_run] at run
  obtain ⟨any, t, -, run⟩ := Outcome.andThen_eq_done run
  cases any with
  | true => exact ⟨_, (Outcome.done.inj run).1.symm⟩
  | false => exact ⟨_, (Outcome.done.inj run).1.symm⟩

theorem enter_leaves {call : GameCall} {w w' : World} {exit : Exit}
    (run : (enter call).run w = .done exit w') :
    ∃ out rest, exit = .calls out rest ∧ Leaves call.hook out rest := by
  cases call with
  | updateVerifyMode panel =>
    rcases updateVerifyMode_leaves run with rfl | rfl
    · exact ⟨_, _, rfl, .update panel⟩
    · exact ⟨_, _, rfl, .autoConfirm panel _⟩
  | processConfirmClick panel =>
    obtain rfl := (Outcome.done.inj run).1
    exact ⟨_, _, rfl, .confirm panel⟩
  | processEvent panel event =>
    rw [enter, processEvent_run] at run
    split at run
    · obtain rfl := (Outcome.done.inj run).1
      exact ⟨_, _, rfl, .eventLogin panel event⟩
    · obtain rfl := (Outcome.done.inj run).1
      exact ⟨_, _, rfl, .event panel event⟩
  | openLoginPanel panel =>
    obtain rfl := (Outcome.done.inj run).1
    exact ⟨_, _, rfl, .openPanel panel _⟩
  | requestLogin args =>
    obtain ⟨out, rfl⟩ := requestLogin_leaves run
    exact ⟨_, _, rfl, .requestLogin out⟩

theorem fillLoginPanel_leaves {panelOffset interface : Address} {w w' : World} {exit : Exit}
    (run : (fillLoginPanel panelOffset interface).run w = .done exit w') :
    exit = .returns 0 ∨ ∃ out, exit = .calls out (.userIdSet panelOffset) ∧
      Leaves .titleLoginPanelOpenLoginPanel out (.userIdSet panelOffset) := by
  rw [fillLoginPanel, bind_run, assignGlobals_run, Outcome.andThen_done, bind_run] at run
  obtain ⟨found, t, -, run⟩ := Outcome.andThen_eq_done run
  cases found with
  | true =>
    obtain rfl := (Outcome.done.inj run).1
    exact .inr ⟨_, rfl, .userId _ _ _ _ _⟩
  | false =>
    obtain rfl := (Outcome.done.inj run).1
    exact .inl rfl

theorem resume_leaves {hook : Hook} {before : PluginCall} {frame : Frame}
    (reached : Leaves hook before frame) {value : Address} {w w' : World} {exit : Exit}
    (run : (resume value frame).run w = .done exit w') :
    (∃ v, exit = .returns v) ∨ ∃ out rest, exit = .calls out rest ∧ Leaves hook out rest := by
  cases reached with
  | autoConfirm panel panelOffset =>
    exact .inr ⟨_, _, finishUpdate_leaves run, .update panel⟩
  | eventLogin panel event =>
    exact .inr ⟨_, _, (Outcome.done.inj run).1.symm, .event panel event⟩
  | openPanel panel panelOffset =>
    exact .inr ⟨_, _, (Outcome.done.inj run).1.symm, .getInstance panelOffset⟩
  | getInstance panelOffset =>
    rcases fillLoginPanel_leaves run with rfl | ⟨out, rfl, leaves⟩
    · exact .inl ⟨0, rfl⟩
    · exact .inr ⟨_, _, rfl, leaves⟩
  | userId interface slot panelOffset editBox text =>
    exact .inr ⟨_, _, (Outcome.done.inj run).1.symm, .password _ _ _ _⟩
  | update panel => exact .inl ⟨_, (Outcome.done.inj run).1.symm⟩
  | confirm panel => exact .inl ⟨_, (Outcome.done.inj run).1.symm⟩
  | event panel event => exact .inl ⟨_, (Outcome.done.inj run).1.symm⟩
  | password interface slot editBox text => exact .inl ⟨_, (Outcome.done.inj run).1.symm⟩
  | requestLogin args => exact .inl ⟨_, (Outcome.done.inj run).1.symm⟩

theorem resume_no_confirm {value : Address} {frame : Frame} {w w' : World} {out : PluginCall}
    {panelSrc panelOffset : Address} :
    (resume value frame).run w ≠ .done (.calls out (.autoConfirm panelSrc panelOffset)) w' := by
  intro run
  have reached : ∃ hook before, Leaves hook before frame ∧ hook ≠ .loginOtpPanelUpdateVerifyMode ∨
      ∃ panel offset, frame = .autoConfirm panel offset := by
    cases frame with
    | finishing => exact ⟨_, _, .inl ⟨.confirm 0, by decide⟩⟩
    | autoConfirm panel offset => exact ⟨.lobbyRequestLogin, .getInstance, .inr ⟨panel, offset, rfl⟩⟩
    | eventLogin panel event => exact ⟨_, _, .inl ⟨.eventLogin panel event, by decide⟩⟩
    | loginPanelOpened offset => exact ⟨_, _, .inl ⟨.openPanel 0 offset, by decide⟩⟩
    | instanceWanted offset => exact ⟨_, _, .inl ⟨.getInstance offset, by decide⟩⟩
    | userIdSet offset => exact ⟨_, _, .inl ⟨.userId 0 0 offset 0 [], by decide⟩⟩
  obtain ⟨hook, before, ⟨leaves, other⟩ | ⟨panel, offset, rfl⟩⟩ := reached
  · rcases resume_leaves leaves run with ⟨v, same⟩ | ⟨out', rest', same, next⟩
    · cases same
    · obtain ⟨rfl, rfl⟩ := Exit.calls.inj same
      cases next
      exact other rfl
  · have same := finishUpdate_leaves run
    cases same

theorem mayCall_leaves {hook : Hook} {out : PluginCall} {rest : Frame}
    (reached : MayCall hook out rest) : Leaves hook out rest := by
  induction reached with
  | first call own w w' out rest run =>
    obtain ⟨out', rest', same, leaves⟩ := enter_leaves run
    cases same
    exact own ▸ leaves
  | later before frame reached value w w' out rest run ih =>
    rcases resume_leaves ih run with ⟨v, same⟩ | ⟨out', rest', same, leaves⟩
    · cases same
    · cases same
      exact leaves

end LoginHelper.Hooks
