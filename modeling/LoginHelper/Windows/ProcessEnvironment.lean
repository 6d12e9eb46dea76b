/- Unit: LoginHelper/Windows/ProcessEnvironment
   layer: platform
   digest: Counted and terminated text, and the environment block the plugin reads and clears. -/

import Mathlib.Data.List.TakeWhile
import Mathlib.Algebra.Group.Nat.Defs

set_option autoImplicit false
set_option relaxedAutoImplicit false

namespace LoginHelper.Windows.ProcessEnvironment

/-- One UTF-16 unit, the `WCHAR` of the source. -/
abbrev WChar := UInt16
abbrev WString := List WChar

/-- The narrow strings hold bytes. -/
abbrev NString := List UInt8

/-- A wide literal of the source. -/
def wide (s : String) : WString := s.toList.map fun c => UInt16.ofNat c.toNat

/-- A narrow literal of the source. -/
def narrow (s : String) : NString := s.toList.map fun c => UInt8.ofNat c.toNat

/-- The characters before a terminator: none of them is NUL. -/
structure CText (α : Type) [OfNat α 0] where
  chars : List α
  nulFree : (0 : α) ∉ chars

section Buffers

variable {α : Type} [OfNat α 0] [DecidableEq α]

def CText.empty : CText α := ⟨[], by simp⟩

/-- `GetEnvironmentVariable(name, buffer, size)` for a variable holding `value`:
the returned count and the buffer afterwards. Zero means unset or empty, and a count
below `size` means copied with its terminator. A larger count is the required size;
what the buffer then holds is undefined, so `stale` may say anything. -/
def getEnvironmentVariable (value stale : List α) (size : Nat) : Nat × List α :=
  if value = [] then (0, stale)
  else if value.length < size then (value.length, value ++ 0 :: stale.drop (value.length + 1))
  else (value.length + 1, stale)

/-- The string a pointer to a buffer of `size` characters denotes. Without a
terminator inside the buffer the read would leave it. -/
def bufferString (size : Nat) (buffer : List α) : Option (List α) :=
  if (0 : α) ∈ buffer.take size then some (buffer.takeWhile (· ≠ 0)) else none

theorem bufferString_terminated (size : Nat) (value rest : List α)
    (nulFree : (0 : α) ∉ value) (fits : value.length < size) :
    bufferString size (value ++ 0 :: rest) = some value := by
  have inside : (0 : α) ∈ (value ++ 0 :: rest).take size := by
    obtain ⟨k, rfl⟩ : ∃ k, size = value.length + (k + 1) :=
      ⟨size - value.length - 1, by omega⟩
    simp [List.take_append]
  have kept : ∀ c ∈ value, decide (c ≠ 0) = true := by
    intro c hc
    simp only [ne_eq, decide_not, Bool.not_eq_eq_eq_not, Bool.not_true, decide_eq_false_iff_not]
    rintro rfl
    exact nulFree hc
  rw [bufferString, if_pos inside, List.takeWhile_append_of_pos kept]
  simp

/-- A read that takes the variable's text into a string: `none` when the variable
reads as absent, `some none` when the buffer then holds no string. -/
def readVariable (value stale : List α) (size : Nat) : Option (Option (List α)) :=
  match getEnvironmentVariable value stale size with
  | (0, _) => none
  | (_, buffer) => some (bufferString size buffer)

@[simp] theorem readVariable_nil (stale : List α) (size : Nat) :
    readVariable [] stale size = none := by
  simp [readVariable, getEnvironmentVariable]

theorem readVariable_fits (value stale : List α) (size : Nat) (set : value ≠ [])
    (nulFree : (0 : α) ∉ value) (fits : value.length < size) :
    readVariable value stale size = some (some value) := by
  have positive : value.length ≠ 0 := by simpa using set
  rw [readVariable, getEnvironmentVariable, if_neg set, if_pos fits]
  cases hlen : value.length with
  | zero => exact absurd hlen positive
  | succ n =>
    simp only
    rw [bufferString_terminated size value _ nulFree fits]

theorem readVariable_long (value stale : List α) (size : Nat) (set : value ≠ [])
    (long : size ≤ value.length) :
    readVariable value stale size = some (bufferString size stale) := by
  rw [readVariable, getEnvironmentVariable, if_neg set, if_neg (by omega)]
  rfl

end Buffers

/-- The variables the plugin reads through `GetEnvironmentVariableW`. -/
inductive EnvVar
  | bnsProfileUsername | bnsProfilePassword
  | bnsServerNpAddress | bnsServerNpPort | bnsServerNpProgramId | bnsServerNpGameCode
  | bnsServerLobbyAddress | bnsServerLobbyPort | bnsServerFixProgramId
  | bnsPincode | bnsProfilePin
  deriving DecidableEq

/-- The process environment. `BNS_PROFILE_OTP_SECRET` is read only through
`GetEnvironmentVariableA`, so it is kept by the narrow text that call reports. -/
structure Environment where
  wideValue : EnvVar → CText WChar
  bnsProfileOtpSecret : CText UInt8

namespace Environment

/-- The characters of a variable; the empty text when it is unset. -/
def value (env : Environment) (name : EnvVar) : WString := (env.wideValue name).chars

def secret (env : Environment) : NString := env.bnsProfileOtpSecret.chars

/-- A variable is set when it does not read as absent. -/
def IsSet (env : Environment) (name : EnvVar) : Prop := env.value name ≠ []

instance (env : Environment) (name : EnvVar) : Decidable (env.IsSet name) :=
  inferInstanceAs (Decidable (_ ≠ _))

/-- `SetEnvironmentVariableW(name, text)`. -/
def assign (env : Environment) (name : EnvVar) (text : CText WChar) : Environment :=
  { env with wideValue := fun other => if other = name then text else env.wideValue other }

/-- `SetEnvironmentVariableW(name, L"")`. -/
def clear (env : Environment) (name : EnvVar) : Environment := env.assign name CText.empty

/-- `SetEnvironmentVariableW(L"BNS_PROFILE_OTP_SECRET", L"")`. -/
def clearSecret (env : Environment) : Environment :=
  { env with bnsProfileOtpSecret := CText.empty }

@[simp] theorem value_clear (env : Environment) (name other : EnvVar) :
    (env.clear name).value other = if other = name then [] else env.value other := by
  by_cases h : other = name
  · simp [value, clear, assign, h, CText.empty]
  · simp [value, clear, assign, h]

theorem value_nulFree (env : Environment) (name : EnvVar) : (0 : WChar) ∉ env.value name :=
  (env.wideValue name).nulFree

theorem secret_nulFree (env : Environment) : (0 : UInt8) ∉ env.secret :=
  env.bnsProfileOtpSecret.nulFree

/-- The environment in which nothing is set. -/
def bare : Environment := ⟨fun _ => CText.empty, CText.empty⟩

end Environment

end LoginHelper.Windows.ProcessEnvironment
