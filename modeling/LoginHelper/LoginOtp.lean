/- Unit: LoginHelper/LoginOtp
   source: src/loginhelper/LoginOtp.h
   digest: Where the PIN comes from, and the two hooks of the PIN panel. -/

import LoginHelper.Calls
import LoginHelper.CommandLine
import LoginHelper.CppTotp.Otp

set_option autoImplicit false
set_option relaxedAutoImplicit false

namespace LoginHelper.LoginOtp

open LoginHelper.Foundation.Execution
open LoginHelper.Windows.ProcessEnvironment
open LoginHelper.Windows.Runtime (StdException formatInt formatPadded_eq sprintfS)
open LoginHelper.CommandLine (pinArgument)
open LoginHelper.CppTotp
open LoginHelper.CppTotp.Otp (totp totp_eq hmacSha1_64 readSecret)
open LoginHelper.Foundation
open LoginHelper.Foundation.HashStandard (codeDigit)
open LoginHelper.Data LoginHelper.Calls

/-- `s[i]` of a `std::wstring`: NUL right behind the last character, nothing further on. -/
def charAt (s : WString) (i : Nat) : Option WChar := if i = s.length then some 0 else s[i]?

/-- `pincode[i] = digit` -/
def storeDigit (i : Fin 6) (digit : Int) : Code Unit :=
  assignGlobals fun g => { g with pincode := Function.update g.pincode i digit }

/-- `for (int i = 0; i < 6; i++) pincode[i] = pintext[i] - '0';` -/
def loadPintext : Code Unit :=
  forEach (fun i : Fin 6 => do
    let w ← readState
    let c ← definedOr .outsideString (charAt w.globals.pintext i)
    storeDigit i ((c.toNat : Int) - 48)) (List.finRange 6)

/-- `for (int i = 0; i < 6; i++) pincode[i] = buffer[i] - '0';` -/
def loadBuffer (buffer : NString) : Code Unit :=
  forEach (fun i : Fin 6 => do
    let c ← definedOr .outsideArray buffer[i.val]?
    storeDigit i ((c.toNat : Int) - 48)) (List.finRange 6)

/-- A source that is kept in `pintext`. -/
def pinFromText (text : WString) (spend : Code Unit) : Code Bool := do
  assignGlobals fun g => { g with pintext := text }
  loadPintext
  spend
  pure true

/-- `if (!keeppin) SetEnvironmentVariableW(name, L"");` -/
def spendUnlessKept (spend : Code Unit) : Code Unit := do
  let w ← readState
  if w.globals.keeppin then pure () else spend

/-- `SetEnvironmentVariableW(L"BNS_PROFILE_OTP_SECRET", L"");` -/
def clearSecret : Code Unit :=
  modifyState fun w => w.withEnvironment w.process.environment.clearSecret

def pinFromSecret (otpsecrettext : NString) : Code Bool := do
  let qui ← returnedOr (readSecret otpsecrettext)
  let w ← readState
  let p ← definedOr .outsideArray (totp qui w.process.time 0 30 6 hmacSha1_64)
  let buffer ← definedOr .outsideArray (sprintfS 7 (formatInt 6 p.toInt))
  loadBuffer buffer
  spendUnlessKept clearSecret
  pure true

def pinFromCommandLine : Code Bool := do
  let w ← readState
  match pinArgument w.process.commandLine with
  | some text => pinFromText text (pure ())
  | none => pure false

/-- The part of `GetPin` behind its two early exits. -/
def readPin : Code Bool := do
  match ← readWide .bnsPincode with
  | some text => pinFromText text (spendUnlessKept (clearVariable .bnsPincode))
  | none =>
    match ← readWide .bnsProfilePin with
    | some text => pinFromText text (spendUnlessKept (clearVariable .bnsProfilePin))
    | none =>
      match ← readNarrowSecret with
      | some secret => pinFromSecret secret
      | none => pinFromCommandLine

def getPin : Code Bool := do
  let w ← readState
  if w.globals.firstDigit = -2 then pure false
  else if w.globals.firstDigit ≠ -1 then pure true
  else readPin

/-- `hkLoginOtpPanel_processConfirmClick`, waiting in `rest` for the original. -/
def hkLoginOtpPanelProcessConfirmClick (panel : Address) (rest : Frame) : Code Exit := do
  assignGlobals fun g => { g with pincount := 0 }
  pure (.calls (.processConfirmClick panel) rest)

/-- `(LoginOtpPanel*)((uintptr_t)panel_src + UIPanelOffset)` -/
def offsetPanel (g : Globals) (panelSrc : Address) : Address :=
  panelSrc + g.uiPanelOffset.signExtend 64

def writePanel (panelOffset : Address) (f : LoginOtpPanel → LoginOtpPanel) : Code Unit :=
  modifyState fun w => w.withOtpPanel panelOffset (f (w.panels.otp panelOffset))

def enableKeyboard (panel : LoginOtpPanel) : LoginOtpPanel :=
  { panel with
    keyboardEnabled := true
    otpNumpadList := (List.finRange 10).foldl
      (fun list i => Function.update list i { list i with numpadValue := i.val })
      panel.otpNumpadList }

def enterPin (pincode : Fin 6 → Int) (panel : LoginOtpPanel) : LoginOtpPanel :=
  { panel with
    otpInputList := (List.finRange 6).foldl
      (fun list i =>
        Function.update list (i.castLE (by decide))
          { list (i.castLE (by decide)) with inputBtnIndex := pincode i })
      panel.otpInputList
    curInputCount := 6 }

/-- `pincount++` -/
def incrementPincount : Code Unit := do
  let w ← readState
  if w.globals.pincount = 2 ^ 31 - 1 then goUndefined .signedOverflow
  else assignGlobals fun g => { g with pincount := g.pincount + 1 }

/-- The rest of `hkLoginOtpPanel_updateVerifyMode` once the confirmation is over. -/
def finishUpdate (panelSrc panelOffset : Address) : Code Exit := do
  let w ← readState
  if 4 < (w.panels.otp panelOffset).verifyFailCount then
    writePanel panelOffset fun panel => { panel with verifyFailCount := 1 }
  else pure ()
  pure (.calls (.updateVerifyMode panelSrc) .finishing)

def hkLoginOtpPanelUpdateVerifyMode (panelSrc : Address) : Code Exit := do
  let w ← readState
  let panelOffset := offsetPanel w.globals panelSrc
  writePanel panelOffset enableKeyboard
  incrementPincount
  let w ← readState
  if (w.panels.otp panelOffset).verifyFailCount = 0 ∧ w.globals.pincount - 1 = 0 then
    if ← getPin then
      let w ← readState
      writePanel panelOffset (enterPin w.globals.pincode)
      hkLoginOtpPanelProcessConfirmClick panelSrc (.autoConfirm panelSrc panelOffset)
    else finishUpdate panelSrc panelOffset
  else finishUpdate panelSrc panelOffset

def withPincode (w : World) (pincode : Fin 6 → Int) : World :=
  w.withGlobals { w.globals with pincode }

@[simp] theorem withPincode_pincode (w : World) (p : Fin 6 → Int) :
    (withPincode w p).globals.pincode = p := rfl
@[simp] theorem withPincode_pintext (w : World) (p : Fin 6 → Int) :
    (withPincode w p).globals.pintext = w.globals.pintext := rfl
@[simp] theorem withPincode_withPincode (w : World) (p q : Fin 6 → Int) :
    withPincode (withPincode w p) q = withPincode w q := rfl
@[simp] theorem withPincode_self (w : World) : withPincode w w.globals.pincode = w := rfl

@[simp] theorem storeDigit_run (i : Fin 6) (digit : Int) (w : World) :
    (storeDigit i digit).run w =
      .done () (withPincode w (Function.update w.globals.pincode i digit)) := rfl

private theorem store_loop {body : Fin 6 → Code Unit} {digit : Fin 6 → Int} {w : World}
    (step : ∀ i p, (body i).run (withPincode w p) =
      .done () (withPincode w (Function.update p i (digit i))))
    (l : List (Fin 6)) (p : Fin 6 → Int) :
    (forEach body l).run (withPincode w p) =
      .done () (withPincode w fun i => if i ∈ l then digit i else p i) := by
  induction l generalizing p with
  | nil => simp [forEach]
  | cons i l ih =>
    rw [forEach, bind_run, step, Outcome.andThen_done, ih]
    congr 2
    ext j
    by_cases later : j ∈ l
    · simp [later]
    · by_cases here : j = i <;> simp [later, here]

private theorem store_loop_all {body : Fin 6 → Code Unit} {digit : Fin 6 → Int} {w : World}
    (step : ∀ i p, (body i).run (withPincode w p) =
      .done () (withPincode w (Function.update p i (digit i)))) :
    (forEach body (List.finRange 6)).run w = .done () (withPincode w digit) := by
  have whole := store_loop step (List.finRange 6) w.globals.pincode
  simpa only [withPincode_self, List.mem_finRange, if_true] using whole

def textDigits (text : WString) (i : Fin 6) : Int := ((text.getD i 0).toNat : Int) - 48

theorem charAt_inside {s : WString} {i : Nat} (h : i ≤ s.length) : charAt s i = some (s.getD i 0) := by
  rw [charAt]
  split
  · rename_i atEnd
    rw [List.getD_eq_default _ _ (by omega)]
  · rw [List.getElem?_eq_getElem (by omega), List.getD_eq_getElem _ _ (by omega)]

theorem loadPintext_run (w : World) (long : 5 ≤ w.globals.pintext.length) :
    loadPintext.run w = .done () (withPincode w (textDigits w.globals.pintext)) := by
  apply store_loop_all
  intro i p
  have inside : i.val ≤ w.globals.pintext.length := by omega
  simp [charAt_inside inside, textDigits]

theorem loadBuffer_run (buffer : NString) (w : World) (long : 6 ≤ buffer.length) :
    (loadBuffer buffer).run w =
      .done () (withPincode w fun i => ((buffer.getD i 0).toNat : Int) - 48) := by
  apply store_loop_all
  intro i p
  have inside : i.val < buffer.length := by omega
  simp [inside]

def LeavesGlobals (spend : Code Unit) : Prop :=
  ∀ w, ∃ w', spend.run w = .done () w' ∧ w'.globals = w.globals

private theorem spendUnlessKept_leaves {spend : Code Unit} (h : LeavesGlobals spend) :
    LeavesGlobals (spendUnlessKept spend) := by
  intro w
  cases kept : w.globals.keeppin with
  | true => exact ⟨w, by simp [spendUnlessKept, kept], rfl⟩
  | false =>
    obtain ⟨w', run, same⟩ := h w
    exact ⟨w', by simp [spendUnlessKept, kept, run], same⟩

theorem clearVariable_leaves (name : EnvVar) :
    LeavesGlobals (spendUnlessKept (clearVariable name)) :=
  spendUnlessKept_leaves fun _ => ⟨_, rfl, rfl⟩

theorem clearSecret_leaves : LeavesGlobals (spendUnlessKept clearSecret) :=
  spendUnlessKept_leaves fun _ => ⟨_, rfl, rfl⟩

theorem pure_leaves : LeavesGlobals (pure ()) := fun w => ⟨w, rfl, rfl⟩

/-- A text with room for six reads yields its characters, whatever they are. -/
theorem pinFromText_run {text : WString} (long : 5 ≤ text.length) {spend : Code Unit}
    (leaves : LeavesGlobals spend) (w : World) :
    ∃ w', (pinFromText text spend).run w = .done true w' ∧
      w'.globals.pincode = textDigits text ∧ w'.globals.pintext = text := by
  let loaded := withPincode (w.withGlobals { w.globals with pintext := text }) (textDigits text)
  obtain ⟨w', spent, same⟩ := leaves loaded
  refine ⟨w', ?_, by rw [same]; rfl, by rw [same]; rfl⟩
  have load : loadPintext.run (w.withGlobals { w.globals with pintext := text }) =
      .done () loaded := loadPintext_run _ long
  simp only [pinFromText, bind_run, assignGlobals_run, Outcome.andThen_done, load, spent, pure_run]

theorem formatInt_code {p : BitVec 32} (small : p.toNat < 10 ^ 6) :
    formatInt 6 p.toInt = (List.range 6).map fun i => UInt8.ofNat (48 + codeDigit 6 p.toNat i) := by
  have value : p.toInt = p.toNat := BitVec.toInt_eq_toNat_of_lt (by omega)
  rw [value, formatInt, if_neg (by omega), Int.toNat_natCast, formatPadded_eq (by decide) small]
  rfl

/-- An accepted secret yields the digits of its code, and every array involved is
large enough. -/
theorem pinFromSecret_run {secret : NString} {key : Bytes.ByteString}
    (accepted : readSecret secret = .ok key) (w : World) :
    ∃ w', (pinFromSecret secret).run w = .done true w' ∧ w'.globals.pintext = w.globals.pintext ∧
      ∀ i : Fin 6, w'.globals.pincode i =
        codeDigit 6 (HashStandard.totp key w.process.time.toNat 30 6) i := by
  have small := HashStandard.totp_lt key w.process.time.toNat 30 6
  have code : totp key w.process.time 0 30 6 hmacSha1_64 =
      some (BitVec.ofNat 32 (HashStandard.totp key w.process.time.toNat 30 6)) :=
    totp_eq key w.process.time 30 (by decide) (by decide)
  generalize HashStandard.totp key w.process.time.toNat 30 6 = c at small code
  have exact : (BitVec.ofNat 32 c).toNat = c := by rw [BitVec.toNat_ofNat]; omega
  have printed := formatInt_code (p := BitVec.ofNat 32 c) (by rw [exact]; exact small)
  rw [exact] at printed
  let buffer : NString := (List.range 6).map (fun i => UInt8.ofNat (48 + codeDigit 6 c i)) ++ [0]
  have fits : sprintfS 7 (formatInt 6 (BitVec.ofNat 32 c).toInt) = some buffer := by
    rw [printed, sprintfS, if_pos (by simp)]
  have load := loadBuffer_run buffer w (by simp [buffer])
  obtain ⟨w', spent, same⟩ := clearSecret_leaves (withPincode w fun i =>
    ((buffer.getD i 0).toNat : Int) - 48)
  refine ⟨w', ?_, by rw [same]; rfl, ?_⟩
  · simp only [pinFromSecret, bind_run, accepted, returnedOr_ok, pure_run, Outcome.andThen_done,
      readState_run, code, definedOr_some, fits, load, spent]
  · intro i
    have digit : codeDigit 6 c i < 10 := Nat.mod_lt _ (by decide)
    have read : buffer.getD i 0 = UInt8.ofNat (48 + codeDigit 6 c i) := by
      simp [buffer, List.getElem?_append_left]
    rw [same, withPincode_pincode, read, UInt8.toNat_ofNat']
    omega

/-- Only `pincode`, `pintext` and the environment may differ. -/
def SameButPin (w w' : World) : Prop :=
  w'.panels = w.panels ∧
    ∃ pincode pintext, w'.globals = { w.globals with pincode := pincode, pintext := pintext }

theorem sameButPin_frame : IsFrame SameButPin where
  refl w := ⟨rfl, w.globals.pincode, w.globals.pintext, rfl⟩
  trans := by
    rintro s t u ⟨panels, p, q, globals⟩ ⟨panels', p', q', globals'⟩
    exact ⟨panels'.trans panels, p', q', by rw [globals', globals]⟩

private theorem keeps_store (i : Fin 6) (digit : Int) : (storeDigit i digit).Keeps SameButPin :=
  fun w => ⟨rfl, _, w.globals.pintext, rfl⟩

private theorem keeps_loadPintext : loadPintext.Keeps SameButPin :=
  keeps_forEach sameButPin_frame (fun i =>
    keeps_bind sameButPin_frame (keeps_readState sameButPin_frame) fun _ =>
      keeps_bind sameButPin_frame (keeps_definedOr sameButPin_frame _ _) fun _ =>
        keeps_store i _) _

private theorem keeps_loadBuffer (buffer : NString) : (loadBuffer buffer).Keeps SameButPin :=
  keeps_forEach sameButPin_frame (fun i =>
    keeps_bind sameButPin_frame (keeps_definedOr sameButPin_frame _ _) fun _ =>
      keeps_store i _) _

private theorem keeps_spend {spend : Code Unit} (h : spend.Keeps SameButPin) :
    (spendUnlessKept spend).Keeps SameButPin :=
  keeps_bind sameButPin_frame (keeps_readState sameButPin_frame) fun _ =>
    keeps_ite _ (keeps_pure sameButPin_frame ()) h

private theorem keeps_clearVariable (name : EnvVar) : (clearVariable name).Keeps SameButPin :=
  fun w => ⟨rfl, w.globals.pincode, w.globals.pintext, rfl⟩

private theorem keeps_clearSecret : clearSecret.Keeps SameButPin :=
  fun w => ⟨rfl, w.globals.pincode, w.globals.pintext, rfl⟩

private theorem keeps_pinFromText (text : WString) {spend : Code Unit}
    (h : spend.Keeps SameButPin) : (pinFromText text spend).Keeps SameButPin := by
  refine keeps_bind sameButPin_frame (fun w => ⟨rfl, w.globals.pincode, text, rfl⟩) fun _ => ?_
  apply keeps_bind sameButPin_frame keeps_loadPintext
  intro _
  exact keeps_bind sameButPin_frame h fun _ => keeps_pure sameButPin_frame true

private theorem keeps_pinFromSecret (secret : NString) :
    (pinFromSecret secret).Keeps SameButPin := by
  apply keeps_bind sameButPin_frame (keeps_returnedOr sameButPin_frame _)
  intro _
  apply keeps_bind sameButPin_frame (keeps_readState sameButPin_frame)
  intro _
  apply keeps_bind sameButPin_frame (keeps_definedOr sameButPin_frame _ _)
  intro _
  apply keeps_bind sameButPin_frame (keeps_definedOr sameButPin_frame _ _)
  intro _
  apply keeps_bind sameButPin_frame (keeps_loadBuffer _)
  intro _
  apply keeps_bind sameButPin_frame (keeps_spend keeps_clearSecret)
  intro _
  exact keeps_pure sameButPin_frame true

private theorem keeps_readPin : readPin.Keeps SameButPin := by
  apply keeps_bind sameButPin_frame (keeps_readWide sameButPin_frame _)
  intro text
  cases text with
  | some text => exact keeps_pinFromText text (keeps_spend (keeps_clearVariable _))
  | none =>
    apply keeps_bind sameButPin_frame (keeps_readWide sameButPin_frame _)
    intro text
    cases text with
    | some text => exact keeps_pinFromText text (keeps_spend (keeps_clearVariable _))
    | none =>
      apply keeps_bind sameButPin_frame (keeps_readNarrowSecret sameButPin_frame)
      intro secret
      cases secret with
      | some secret => exact keeps_pinFromSecret secret
      | none =>
        apply keeps_bind sameButPin_frame (keeps_readState sameButPin_frame)
        intro w
        cases pinArgument w.process.commandLine with
        | some text => exact keeps_pinFromText text (keeps_pure sameButPin_frame ())
        | none => exact keeps_pure sameButPin_frame false

theorem getPin_frame : getPin.Keeps SameButPin :=
  keeps_bind sameButPin_frame (keeps_readState sameButPin_frame) fun _ =>
    keeps_ite _ (keeps_pure sameButPin_frame false)
      (keeps_ite _ (keeps_pure sameButPin_frame true) keeps_readPin)

private theorem foldl_update {ι κ β : Type} [DecidableEq κ] (place : ι → κ)
    (injective : ∀ i j, place i = place j → i = j) (value : ι → β) (l : List ι) (f : κ → β) (k : κ) :
    (∀ i ∈ l, place i = k → (l.foldl (fun f i => Function.update f (place i) (value i)) f) k =
      value i) ∧
    ((∀ i ∈ l, place i ≠ k) →
      (l.foldl (fun f i => Function.update f (place i) (value i)) f) k = f k) := by
  induction l generalizing f with
  | nil => simp
  | cons j l ih =>
    obtain ⟨stored, kept⟩ := ih (Function.update f (place j) (value j))
    constructor
    · intro i member here
      by_cases again : ∃ i' ∈ l, place i' = k
      · obtain ⟨i', later, here'⟩ := again
        obtain rfl := injective i i' (here.trans here'.symm)
        exact stored i later here
      · have away : ∀ i' ∈ l, place i' ≠ k := fun i' later here' => again ⟨i', later, here'⟩
        obtain rfl : i = j := by
          rcases List.mem_cons.mp member with same | later
          · exact same
          · exact absurd here (away i later)
        rw [List.foldl_cons, kept away, ← here, Function.update_self]
    · intro away
      rw [List.foldl_cons, kept fun i later => away i (List.mem_cons_of_mem j later),
        Function.update_of_ne (away j List.mem_cons_self).symm]

theorem enableKeyboard_numpad (panel : LoginOtpPanel) (k : Fin 10) :
    ((enableKeyboard panel).otpNumpadList k).numpadValue = k.val :=
  congrArg OtpNumpad.numpadValue ((foldl_update id (fun _ _ h => h)
    (fun i : Fin 10 => (⟨(i.val : Int)⟩ : OtpNumpad)) (List.finRange 10) panel.otpNumpadList k).1 k
      (List.mem_finRange k) rfl)

theorem enterPin_input (pincode : Fin 6 → Int) (panel : LoginOtpPanel) (i : Fin 6) :
    ((enterPin pincode panel).otpInputList (i.castLE (by decide))).inputBtnIndex = pincode i :=
  congrArg OtpInput.inputBtnIndex ((foldl_update (fun i : Fin 6 => i.castLE (by decide))
    (fun _ _ same => Fin.castLE_injective (by decide) same)
    (fun i : Fin 6 => (⟨pincode i⟩ : OtpInput)) (List.finRange 6) panel.otpInputList
      (i.castLE (by decide))).1 i (List.mem_finRange i) rfl)

theorem enterPin_rest (pincode : Fin 6 → Int) (panel : LoginOtpPanel) (k : Fin 8)
    (behind : 6 ≤ k.val) : (enterPin pincode panel).otpInputList k = panel.otpInputList k := by
  apply (foldl_update (fun i : Fin 6 => i.castLE (by decide))
    (fun _ _ same => Fin.castLE_injective (by decide) same)
    (fun i : Fin 6 => (⟨pincode i⟩ : OtpInput)) (List.finRange 6) panel.otpInputList k).2
  rintro i - rfl
  exact absurd i.isLt (Nat.not_lt.mpr behind)

end LoginHelper.LoginOtp
