/- Unit: LoginHelper/PinSource
   source: GetPin in src/loginhelper/LoginOtp.h
   digest: Which PIN the sources hold, when they are fit to be read, and what GetPin makes of them. -/

import LoginHelper.LoginOtp

set_option autoImplicit false
set_option relaxedAutoImplicit false

namespace LoginHelper.PinSource

open LoginHelper.Foundation
open LoginHelper.Foundation.Execution
open LoginHelper.Foundation.HashStandard (codeDigit)
open LoginHelper.Windows.ProcessEnvironment
open LoginHelper.Windows.Runtime (isDigit)
open LoginHelper.CommandLine (pinArgument pinArgument_digits)
open LoginHelper.CppTotp
open LoginHelper.CppTotp.Otp (readSecret)
open LoginHelper.Data LoginHelper.LoginOtp

def SixDigits (text : WString) (pin : Fin 6 → Nat) : Prop :=
  text = (List.finRange 6).map (fun i => UInt16.ofNat (48 + pin i)) ∧ ∀ i, pin i < 10

/-- The PIN of the first source that is set: the two variables, the one-time code,
the command line. -/
def ChosenPin (w : World) (pin : Fin 6 → Nat) : Prop :=
  if w.process.environment.IsSet .bnsPincode then
    SixDigits (w.process.environment.value .bnsPincode) pin
  else if w.process.environment.IsSet .bnsProfilePin then
    SixDigits (w.process.environment.value .bnsProfilePin) pin
  else if w.process.environment.secret ≠ [] then
    ∃ key, readSecret w.process.environment.secret = .ok key ∧
      ∀ i : Fin 6, pin i = codeDigit 6 (HashStandard.totp key w.process.time.toNat 30 6) i
  else ∃ text, pinArgument w.process.commandLine = some text ∧ SixDigits text pin

/-- The source that would be read is six decimal digits if it is a variable, and
fits its buffer if it is a secret. -/
def SourceFit (w : World) : Prop :=
  if w.process.environment.IsSet .bnsPincode then
    ∃ pin, SixDigits (w.process.environment.value .bnsPincode) pin
  else if w.process.environment.IsSet .bnsProfilePin then
    ∃ pin, SixDigits (w.process.environment.value .bnsProfilePin) pin
  else w.process.environment.secret.length ≤ 2047

theorem SixDigits.length {text : WString} {pin : Fin 6 → Nat} (h : SixDigits text pin) :
    text.length = 6 := by
  rw [h.1, List.length_map, List.length_finRange]

theorem SixDigits.textDigits {text : WString} {pin : Fin 6 → Nat} (h : SixDigits text pin)
    (i : Fin 6) : textDigits text i = pin i := by
  have small := h.2 i
  have read : text.getD i 0 = UInt16.ofNat (48 + pin i) := by
    rw [h.1, List.getD_eq_getElem _ _ (by simp), List.getElem_map, List.getElem_finRange]
    rfl
  rw [LoginOtp.textDigits, read, UInt16.toNat_ofNat']
  omega

theorem sixDigits_of_isDigit {text : WString} (length : text.length = 6)
    (digits : ∀ c ∈ text, isDigit c = true) : ∃ pin, SixDigits text pin := by
  have range (c : WChar) (hc : c ∈ text) : 48 ≤ c.toNat ∧ c.toNat ≤ 57 := by
    have := digits c hc
    simpa [isDigit, UInt16.le_iff_toNat_le] using this
  refine ⟨fun i => (text.get (i.cast length.symm)).toNat - 48, ?_, ?_⟩
  · apply List.ext_getElem
    · simpa using length
    · intro k hk hk'
      have bounds := range text[k] (List.getElem_mem hk)
      rw [List.getElem_map, List.getElem_finRange]
      apply UInt16.toNat_inj.mp
      rw [UInt16.toNat_ofNat']
      simp only [List.get_eq_getElem, Fin.val_cast]
      omega
  · intro i
    have bounds := range _ (List.get_mem text (i.cast length.symm))
    show (text.get (i.cast length.symm)).toNat - 48 < 10
    omega

theorem chosenPin_digit {w : World} {pin : Fin 6 → Nat} (chosen : ChosenPin w pin) (i : Fin 6) :
    pin i < 10 := by
  unfold ChosenPin at chosen
  split at chosen
  · exact chosen.2 i
  · split at chosen
    · exact chosen.2 i
    · split at chosen
      · obtain ⟨key, -, digits⟩ := chosen
        rw [digits i]
        exact Nat.mod_lt _ (by decide)
      · obtain ⟨text, -, digits⟩ := chosen
        exact digits.2 i

/-- The ways a read of the sources ends: with the chosen PIN, with none, or with the
exception of an undecodable secret, the last two changing nothing. -/
inductive PinRead (w : World) : Ending Bool → Prop
  | pin (w' : World) (pin : Fin 6 → Nat) (chosen : ChosenPin w pin)
      (stored : ∀ i, w'.globals.pincode i = pin i)
      (text : w'.globals.pintext = w.globals.pintext ∨ w'.globals.pintext.length = 6) :
      PinRead w (.done true w')
  | none : PinRead w (.done false w)
  | rejected (e : Windows.Runtime.StdException) : PinRead w (.threw e w)

private theorem pinRead_text {w : World} {text : WString} {spend : Code Unit}
    (digits : ∃ pin, SixDigits text pin) (leaves : LeavesGlobals spend)
    (chosen : ∀ pin, SixDigits text pin → ChosenPin w pin) :
    PinRead w ((pinFromText text spend).run w) := by
  obtain ⟨pin, six⟩ := digits
  obtain ⟨w', run, stored, kept⟩ := pinFromText_run (by rw [six.length]; decide) leaves w
  rw [run]
  exact .pin w' pin (chosen pin six) (fun i => by rw [stored, six.textDigits])
    (.inr (by rw [kept, six.length]))

private theorem pinRead_commandLine {w : World}
    (chosen : ∀ text pin, pinArgument w.process.commandLine = some text → SixDigits text pin →
      ChosenPin w pin) : PinRead w (pinFromCommandLine.run w) := by
  rw [pinFromCommandLine, bind_run, readState_run, Outcome.andThen_done]
  cases argument : pinArgument w.process.commandLine with
  | none => exact .none
  | some text =>
    obtain ⟨length, digits⟩ := pinArgument_digits argument
    exact pinRead_text (sixDigits_of_isDigit length digits) pure_leaves fun pin =>
      chosen text pin argument

theorem readPin_run (w : World) (fit : SourceFit w) : PinRead w (readPin.run w) := by
  unfold SourceFit at fit
  rw [readPin, bind_run]
  by_cases pincode : w.process.environment.IsSet .bnsPincode
  · rw [if_pos pincode] at fit
    have length : (w.process.environment.value .bnsPincode).length = 6 := fit.elim fun _ six => six.length
    rw [readWide_fits _ w pincode (by omega), Outcome.andThen_done]
    exact pinRead_text fit (clearVariable_leaves _) fun pin six => by
      rw [ChosenPin, if_pos pincode]
      exact six
  rw [if_neg pincode] at fit
  rw [readWide_unset _ w (not_not.mp pincode), Outcome.andThen_done]
  simp only
  rw [bind_run]
  by_cases profile : w.process.environment.IsSet .bnsProfilePin
  · rw [if_pos profile] at fit
    have length : (w.process.environment.value .bnsProfilePin).length = 6 :=
      fit.elim fun _ six => six.length
    rw [readWide_fits _ w profile (by omega), Outcome.andThen_done]
    exact pinRead_text fit (clearVariable_leaves _) fun pin six => by
      rw [ChosenPin, if_neg pincode, if_pos profile]
      exact six
  rw [if_neg profile] at fit
  rw [readWide_unset _ w (not_not.mp profile), Outcome.andThen_done]
  simp only
  rw [bind_run]
  by_cases set : w.process.environment.secret ≠ []
  · rw [readNarrowSecret_fits w set (by omega), Outcome.andThen_done]
    simp only
    cases read : readSecret w.process.environment.secret with
    | error e =>
      have thrown : (pinFromSecret w.process.environment.secret).run w = .threw e w := by
        simp [pinFromSecret, read]
      rw [thrown]
      exact .rejected e
    | ok key =>
      obtain ⟨w', run, kept, stored⟩ := pinFromSecret_run read w
      rw [run]
      exact .pin w' _ (by rw [ChosenPin, if_neg pincode, if_neg profile, if_pos set]
                          exact ⟨key, read, fun _ => rfl⟩) stored (.inl kept)
  · rw [readNarrowSecret_unset w (not_not.mp set), Outcome.andThen_done]
    exact pinRead_commandLine fun text pin argument six => by
      rw [ChosenPin, if_neg pincode, if_neg profile, if_neg set]
      exact ⟨text, argument, six⟩

/-- Nothing is cached, and the secret is the first source that is set. -/
structure SecretFirst (w : World) : Prop where
  uncached : w.globals.firstDigit = -1
  pincode : ¬ w.process.environment.IsSet .bnsPincode
  profilePin : ¬ w.process.environment.IsSet .bnsProfilePin
  secret : w.process.environment.secret ≠ []

theorem getPin_secret {w : World} (first : SecretFirst w)
    (short : w.process.environment.secret.length ≤ 2047) :
    getPin.run w = (pinFromSecret w.process.environment.secret).run w := by
  have uncached := first.uncached
  rw [getPin, bind_run, readState_run, Outcome.andThen_done, ite_run, if_neg (by omega), ite_run,
    if_neg (by omega), readPin, bind_run, readWide_unset _ w (not_not.mp first.pincode),
    Outcome.andThen_done]
  simp only
  rw [bind_run, readWide_unset _ w (not_not.mp first.profilePin), Outcome.andThen_done]
  simp only
  rw [bind_run, readNarrowSecret_fits w first.secret (by omega), Outcome.andThen_done]

theorem getPin_throws {w : World} (first : SecretFirst w)
    (short : w.process.environment.secret.length ≤ 2047) {e : Windows.Runtime.StdException}
    (rejected : readSecret w.process.environment.secret = .error e) :
    getPin.run w = .threw e w := by
  rw [getPin_secret first short, pinFromSecret, bind_run, rejected]
  rfl

/-- With no PIN cached and no PIN variable set, an accepted secret makes `GetPin`
store the six digits of the standard code of the current time step. -/
theorem getPin_totp (w : World) (uncached : w.globals.firstDigit = -1)
    (pincode : ¬ w.process.environment.IsSet .bnsPincode)
    (profile : ¬ w.process.environment.IsSet .bnsProfilePin)
    (set : w.process.environment.secret ≠ []) (short : w.process.environment.secret.length ≤ 2047)
    (key : Bytes.ByteString) (accepted : readSecret w.process.environment.secret = .ok key)
    (t : Nat) (clock : w.process.time = BitVec.ofNat 64 t) (range : t < 2 ^ 63) :
    ∃ w', getPin.run w = .done true w' ∧
      ∀ i : Fin 6, w'.globals.pincode i = codeDigit 6 (HashStandard.totp key t 30 6) i := by
  have time : w.process.time.toNat = t := by rw [clock, BitVec.toNat_ofNat]; omega
  obtain ⟨w', run, -, stored⟩ := pinFromSecret_run accepted w
  rw [time] at stored
  exact ⟨w', (getPin_secret ⟨uncached, pincode, profile, set⟩ short).trans run, stored⟩

/-- A process with the secret of the RFC's test vectors, 59 seconds into the epoch. -/
def testVector : World :=
  ⟨{ Process.bare with
      environment := { Environment.bare with
        bnsProfileOtpSecret := ⟨narrow "GEZD GNBV GY3T QOJQ gezd-gnbv-gy3t-qojq", by decide⟩ }
      time := 59 },
    Panels.blank, Globals.initial⟩

def testKey : Bytes.ByteString := (List.range 20).map fun i => BitVec.ofNat 8 (48 + (i + 1) % 10)

/-- The reference code can be read off the library's, which can be run. -/
theorem totp_of_library (key : Bytes.ByteString) {t c : Nat} (range : t < 2 ^ 64)
    (small : c < 10 ^ 6)
    (library : Otp.totp key (BitVec.ofNat 64 t) 0 30 6 Otp.hmacSha1_64 =
      some (BitVec.ofNat 32 c)) : HashStandard.totp key t 30 6 = c := by
  have time : (BitVec.ofNat 64 t).toNat = t := by rw [BitVec.toNat_ofNat]; omega
  have standard := Otp.totp_eq key (BitVec.ofNat 64 t) 30 (by decide) (show 6 < 10 by decide)
  rw [library, time] at standard
  have bound := HashStandard.totp_lt key t 30 6
  have same := congrArg BitVec.toNat (Option.some.inj standard)
  rw [BitVec.toNat_ofNat, BitVec.toNat_ofNat] at same
  change c % 2 ^ 32 = HashStandard.totp key t 30 6 % 2 ^ 32 at same
  omega

private theorem testKey_code : HashStandard.totp testKey 59 30 6 = 287082 :=
  totp_of_library testKey (by decide) (by decide) (by decide +kernel)

theorem testVector_key :
    readSecret testVector.process.environment.secret = .ok testKey := by decide +kernel

theorem getPin_totp_testVector : ∃ w', getPin.run testVector = .done true w' ∧
    ∀ i : Fin 6, w'.globals.pincode i = codeDigit 6 287082 i := by
  have standard := getPin_totp testVector rfl (by decide) (by decide) (by decide) (by decide)
    testKey testVector_key 59 rfl (by decide)
  rwa [testKey_code] at standard

end LoginHelper.PinSource
