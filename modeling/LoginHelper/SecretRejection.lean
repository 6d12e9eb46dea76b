/- Unit: LoginHelper/SecretRejection
   source: GetPin in src/loginhelper/LoginOtp.h
   digest: What GetPin does with a secret that cannot be decoded. -/

import LoginHelper.PinSource
import LoginHelper.SecretReader

set_option autoImplicit false
set_option relaxedAutoImplicit false

namespace LoginHelper.SecretRejection

open LoginHelper.Foundation.Execution
open LoginHelper.Windows.ProcessEnvironment
open LoginHelper.CppTotp.Otp (readSecret normalizedBase32String)
open LoginHelper.Data LoginHelper.LoginOtp LoginHelper.PinSource LoginHelper.SecretReader

def Undecodable (w : World) : Prop := ∀ key, readSecret w.process.environment.secret ≠ .ok key

/-- `GetPin` returns, and a secret that cannot be decoded leaves everything to the command line. -/
structure Harmless (w : World) : Prop where
  returns : ∃ found w', getPin.run w = .done found w'
  environment : Undecodable w → ∀ found w', getPin.run w = .done found w' →
    w'.process.environment = w.process.environment
  fallback : Undecodable w → getPin.run w = pinFromCommandLine.run w

/-- A secret is harmless exactly when the decoder takes it: when the groups of its
normalised text are well formed, with the padding missing at the end. -/
theorem harmless_iff (w : World) (first : SecretFirst w)
    (short : w.process.environment.secret.length ≤ 2047) :
    Harmless w ↔ Grouped (normalizedBase32String w.process.environment.secret) := by
  rw [← readSecret_iff]
  constructor
  · intro harmless
    cases read : readSecret w.process.environment.secret with
    | ok key => exact ⟨key, rfl⟩
    | error e =>
      obtain ⟨found, w', run⟩ := harmless.returns
      rw [getPin_throws first short read] at run
      cases run
  · rintro ⟨key, accepted⟩
    obtain ⟨w', run, -, -⟩ := pinFromSecret_run accepted w
    exact ⟨⟨true, w', (getPin_secret first short).trans run⟩,
      fun undecodable => absurd accepted (undecodable key),
      fun undecodable => absurd accepted (undecodable key)⟩

/-- A process with this secret and nothing else. -/
def secretWorld (secret : CText UInt8) : World :=
  ⟨{ Process.bare with environment := { Environment.bare with bnsProfileOtpSecret := secret } },
    Panels.blank, Globals.initial⟩

theorem secretWorld_first {secret : CText UInt8} (nonempty : secret.chars ≠ []) :
    SecretFirst (secretWorld secret) :=
  ⟨rfl, fun set => set rfl, fun set => set rfl, nonempty⟩

theorem harmless_iff_oneByte : SecretFirst (secretWorld ⟨narrow "MY", by decide⟩) ∧
    (Harmless (secretWorld ⟨narrow "MY", by decide⟩) ↔
      Grouped (normalizedBase32String (narrow "MY"))) :=
  ⟨secretWorld_first (by decide), harmless_iff (secretWorld ⟨narrow "MY", by decide⟩)
    (secretWorld_first (by decide)) (by decide)⟩

/-- A lone digit that is no character of Base32 makes `GetPin` throw. -/
theorem wrongDigit_not_harmless : SecretFirst (secretWorld ⟨narrow "1", by decide⟩) ∧
    ¬ Harmless (secretWorld ⟨narrow "1", by decide⟩) := by
  have first : SecretFirst (secretWorld ⟨narrow "1", by decide⟩) := secretWorld_first (by decide)
  refine ⟨first, fun harmless => ?_⟩
  obtain ⟨found, w', run⟩ := harmless.returns
  have rejected : readSecret (secretWorld ⟨narrow "1", by decide⟩).process.environment.secret =
      .error (.invalidArgument "not a base32 character: 1") := by decide
  rw [getPin_throws first (by decide) rejected] at run
  cases run

end LoginHelper.SecretRejection
