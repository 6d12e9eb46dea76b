/- Unit: LoginHelper/SecretScrubbing
   source: GetPin in src/loginhelper/LoginOtp.h
   digest: Which variables a sequence of GetPin calls takes out of the environment. -/

import LoginHelper.LoginOtp

set_option autoImplicit false
set_option relaxedAutoImplicit false

namespace LoginHelper.SecretScrubbing

open LoginHelper.Foundation.Execution
open LoginHelper.Windows.ProcessEnvironment
open LoginHelper.CommandLine (pinArgument)
open LoginHelper.Data LoginHelper.LoginOtp

inductive Source
  | pincode | profilePin | otpSecret | commandLine
  deriving DecidableEq

def firstSource (env : Environment) : Source :=
  if env.IsSet .bnsPincode then .pincode
  else if env.IsSet .bnsProfilePin then .profilePin
  else if env.secret ≠ [] then .otpSecret
  else .commandLine

def spent : Source → Environment → Environment
  | .pincode, env => env.clear .bnsPincode
  | .profilePin, env => env.clear .bnsProfilePin
  | .otpSecret, env => env.clearSecret
  | .commandLine, env => env

def taken (w : World) (found : Bool) : Option Source :=
  if found = true ∧ w.globals.firstDigit = -1 then some (firstSource w.process.environment) else none

def SamePlace (w w' : World) : Prop :=
  w'.process = w.process ∧ w'.globals.keeppin = w.globals.keeppin

theorem samePlace_frame : IsFrame SamePlace where
  refl _ := ⟨rfl, rfl⟩
  trans := by
    rintro s t u ⟨process, keeppin⟩ ⟨process', keeppin'⟩
    exact ⟨process'.trans process, keeppin'.trans keeppin⟩

private theorem store_place (i : Fin 6) (digit : Int) : (storeDigit i digit).Keeps SamePlace :=
  fun _ => ⟨rfl, rfl⟩

private theorem loadPintext_place : loadPintext.Keeps SamePlace :=
  keeps_forEach samePlace_frame (fun i =>
    keeps_bind samePlace_frame (keeps_readState samePlace_frame) fun _ =>
      keeps_bind samePlace_frame (keeps_definedOr samePlace_frame _ _) fun _ => store_place i _) _

private theorem loadBuffer_place (buffer : NString) : (loadBuffer buffer).Keeps SamePlace :=
  keeps_forEach samePlace_frame (fun i =>
    keeps_bind samePlace_frame (keeps_definedOr samePlace_frame _ _) fun _ => store_place i _) _

def Left (w : World) (source : Option Source) (w' : World) : Prop :=
  w'.globals.keeppin = w.globals.keeppin ∧
    w'.process.environment =
      if w.globals.keeppin = true then w.process.environment
      else source.elim w.process.environment fun source => spent source w.process.environment

theorem SamePlace.left {w w' : World} (same : SamePlace w w') : Left w none w' := by
  refine ⟨same.2, ?_⟩
  rw [same.1]
  split <;> rfl

theorem SamePlace.left_trans {w t w' : World} (same : SamePlace w t) {source : Option Source}
    (left : Left t source w') : Left w source w' := by
  obtain ⟨process, keeppin⟩ := same
  obtain ⟨keeppin', environment⟩ := left
  refine ⟨keeppin'.trans keeppin, ?_⟩
  rw [environment, process, keeppin]

def Spends (spend : Code Unit) (source : Source) : Prop :=
  ∀ w, ∃ w', spend.run w = .done () w' ∧ Left w (some source) w'

private theorem spendUnlessKept_spends {spend : Code Unit} {source : Source}
    (run : ∀ w, spend.run w =
      .done () (w.withEnvironment (spent source w.process.environment))) :
    Spends (spendUnlessKept spend) source := by
  intro w
  cases kept : w.globals.keeppin with
  | true => exact ⟨w, by simp [spendUnlessKept, kept], rfl, by rw [if_pos kept]⟩
  | false =>
    refine ⟨w.withEnvironment (spent source w.process.environment),
      by simp [spendUnlessKept, kept, run], rfl, ?_⟩
    rw [if_neg (by rw [kept]; decide)]
    rfl

theorem pure_spends : Spends (pure ()) .commandLine := by
  intro w
  refine ⟨w, rfl, rfl, ?_⟩
  split <;> rfl

/-- A read of this source: the PIN is there and the text gone, or something went wrong before. -/
def Reads (w : World) (source : Source) (ending : Ending Bool) : Prop :=
  ending.Yields (fun found w' => found = true ∧ Left w (some source) w') (SamePlace w)

private theorem spent_reads {w t : World} {source : Source} {spend : Code Unit}
    (spends : Spends spend source) (same : SamePlace w t) :
    Reads w source ((spend >>= fun _ => pure true).run t) := by
  obtain ⟨w', run, left⟩ := spends t
  rw [bind_run, run]
  exact ⟨rfl, same.left_trans left⟩

private theorem pinFromText_reads {text : WString} {spend : Code Unit} {source : Source}
    (spends : Spends spend source) (w : World) :
    Reads w source ((pinFromText text spend).run w) := by
  rw [pinFromText, bind_run, assignGlobals_run, Outcome.andThen_done, bind_run]
  have start : SamePlace w (w.withGlobals { w.globals with pintext := text }) := ⟨rfl, rfl⟩
  exact (loadPintext_place _).andThen
    (fun _ t same => spent_reads spends (samePlace_frame.trans _ _ _ start same))
    fun t same => samePlace_frame.trans _ _ _ start same

private theorem pinFromSecret_reads (secret : NString) (w : World) :
    Reads w .otpSecret ((pinFromSecret secret).run w) := by
  rw [pinFromSecret, bind_run]
  refine (keeps_returnedOr samePlace_frame _ w).andThen (fun qui t same => ?_) fun _ same => same
  rw [bind_run, readState_run, Outcome.andThen_done, bind_run]
  refine (keeps_definedOr samePlace_frame _ _ t).andThen (fun p u same' => ?_)
    fun _ same' => samePlace_frame.trans _ _ _ same same'
  have here := samePlace_frame.trans _ _ _ same same'
  rw [bind_run]
  refine (keeps_definedOr samePlace_frame _ _ u).andThen (fun buffer v same'' => ?_)
    fun _ same'' => samePlace_frame.trans _ _ _ here same''
  have there := samePlace_frame.trans _ _ _ here same''
  rw [bind_run]
  exact (loadBuffer_place buffer v).andThen
    (fun _ x same''' => spent_reads (spendUnlessKept_spends fun _ => rfl)
      (samePlace_frame.trans _ _ _ there same'''))
    fun _ same''' => samePlace_frame.trans _ _ _ there same'''

def ReadsFirst (w : World) (ending : Ending Bool) : Prop :=
  ending.Yields
    (fun found w' =>
      Left w (if found = true then some (firstSource w.process.environment) else none) w')
    (SamePlace w)

private theorem Reads.first {w : World} {source : Source} {ending : Ending Bool}
    (reads : Reads w source ending) (first : firstSource w.process.environment = source) :
    ReadsFirst w ending := by
  refine Outcome.Yields.mono reads ?_ fun _ same => same
  rintro found w' ⟨rfl, left⟩
  rw [if_pos rfl, first]
  exact left

private theorem pinFromCommandLine_reads {w : World}
    (first : firstSource w.process.environment = .commandLine) :
    ReadsFirst w (pinFromCommandLine.run w) := by
  rw [pinFromCommandLine, bind_run, readState_run, Outcome.andThen_done]
  cases pinArgument w.process.commandLine with
  | some text => exact (pinFromText_reads pure_spends w).first first
  | none => exact (samePlace_frame.refl w).left

theorem readPin_reads (w : World) : ReadsFirst w (readPin.run w) := by
  have spend (name : EnvVar) (source : Source)
      (clears : ∀ env, spent source env = env.clear name) :
      Spends (spendUnlessKept (clearVariable name)) source :=
    spendUnlessKept_spends fun t => by rw [clears]; rfl
  rw [readPin, bind_run]
  rcases readWide_cases .bnsPincode w with ⟨unset, read⟩ | ⟨set, ⟨text, read⟩ | fault⟩
  case inr.inl =>
    rw [read, Outcome.andThen_done]
    exact (pinFromText_reads (spend _ .pincode fun _ => rfl) w).first (if_pos set)
  case inr.inr => rw [fault]; exact trivial
  have noPincode : ¬ w.process.environment.IsSet .bnsPincode := not_not.mpr unset
  rw [read, Outcome.andThen_done]
  simp only
  rw [bind_run]
  rcases readWide_cases .bnsProfilePin w with ⟨unset, read⟩ | ⟨set, ⟨text, read⟩ | fault⟩
  case inr.inl =>
    rw [read, Outcome.andThen_done]
    apply (pinFromText_reads (spend _ .profilePin fun _ => rfl) w).first
    rw [firstSource, if_neg noPincode, if_pos set]
  case inr.inr => rw [fault]; exact trivial
  have noProfilePin : ¬ w.process.environment.IsSet .bnsProfilePin := not_not.mpr unset
  rw [read, Outcome.andThen_done]
  simp only
  rw [bind_run]
  rcases readNarrowSecret_cases w with ⟨unset, read⟩ | ⟨set, ⟨text, read⟩ | fault⟩
  case inr.inl =>
    rw [read, Outcome.andThen_done]
    apply (pinFromSecret_reads text w).first
    rw [firstSource, if_neg noPincode, if_neg noProfilePin, if_pos set]
  case inr.inr => rw [fault]; exact trivial
  rw [read, Outcome.andThen_done]
  apply pinFromCommandLine_reads
  rw [firstSource, if_neg noPincode, if_neg noProfilePin, if_neg (not_not.mpr unset)]

theorem getPin_left (w : World) :
    (getPin.run w).Yields (fun found w' => Left w (taken w found) w') (SamePlace w) := by
  have here := samePlace_frame.refl w
  rw [getPin, bind_run, readState_run, Outcome.andThen_done, ite_run]
  split
  · rename_i missing
    have none : taken w false = none := if_neg fun h => Bool.false_ne_true h.1
    rw [pure_run]
    show Left w (taken w false) w
    rw [none]
    exact here.left
  · rw [ite_run]
    split
    · rename_i cached
      have none : taken w true = none := if_neg fun h => cached h.2
      rw [pure_run]
      show Left w (taken w true) w
      rw [none]
      exact here.left
    · rename_i uncached
      refine (readPin_reads w).mono (fun found w' left => ?_) fun _ same => same
      have same : taken w found = if found = true then
          some (firstSource w.process.environment) else none := by
        simp only [taken, not_not.mp uncached, and_true]
      rw [same]
      exact left

def atTime (w : World) (time : BitVec 64) : World := { w with process := { w.process with time } }

/-- The worlds after any number of calls, each at a time of its own, with the sources
that were taken, the last first. -/
inductive Calls (start : World) : List Source → World → Prop
  | none : Calls start [] start
  | returned (sources : List Source) (w w' : World) (time : BitVec 64) (found : Bool)
      (before : Calls start sources w) (run : getPin.run (atTime w time) = .done found w') :
      Calls start ((taken w found).toList ++ sources) w'
  | threw (sources : List Source) (w w' : World) (time : BitVec 64)
      (e : Windows.Runtime.StdException) (before : Calls start sources w)
      (run : getPin.run (atTime w time) = .threw e w') : Calls start sources w'

theorem calls_environment {start w : World} {sources : List Source}
    (calls : Calls start sources w) :
    w.globals.keeppin = start.globals.keeppin ∧
      w.process.environment =
        if start.globals.keeppin = true then start.process.environment
        else sources.foldr spent start.process.environment := by
  induction calls with
  | none => exact ⟨rfl, by split <;> rfl⟩
  | returned sources w w' time found before run ih =>
    obtain ⟨keeppin, environment⟩ := ih
    have left := getPin_left (atTime w time)
    rw [run] at left
    obtain ⟨keeppin', environment'⟩ := left
    refine ⟨keeppin'.trans keeppin, ?_⟩
    rw [environment', show (atTime w time).globals.keeppin = start.globals.keeppin from keeppin,
      show (atTime w time).process.environment = _ from environment]
    by_cases kept : start.globals.keeppin = true
    · rw [if_pos kept, if_pos kept, if_pos kept]
    · rw [if_neg kept, if_neg kept, if_neg kept]
      show (taken w found).elim _ _ = _
      cases taken w found with
      | none => rfl
      | some source => rfl
  | threw sources w w' time e before run ih =>
    obtain ⟨keeppin, environment⟩ := ih
    have same := getPin_left (atTime w time)
    rw [run] at same
    refine ⟨same.2.trans keeppin, ?_⟩
    rw [same.1]
    exact environment

/-- The variable of a source, of those that `GetEnvironmentVariableW` reads. -/
def Source.envVar : Source → Option EnvVar
  | .pincode => some .bnsPincode
  | .profilePin => some .bnsProfilePin
  | .otpSecret => none
  | .commandLine => none

theorem value_spent (source : Source) (env : Environment) (name : EnvVar) :
    (spent source env).value name = if source.envVar = some name then [] else env.value name := by
  cases source with
  | pincode => simp only [spent, Source.envVar, Environment.value_clear, Option.some.injEq, eq_comm]
  | profilePin =>
    simp only [spent, Source.envVar, Environment.value_clear, Option.some.injEq, eq_comm]
  | otpSecret => rfl
  | commandLine => rfl

theorem value_foldr_spent (sources : List Source) (env : Environment) (name : EnvVar) :
    (sources.foldr spent env).value name =
      if ∃ source ∈ sources, source.envVar = some name then [] else env.value name := by
  induction sources with
  | nil => simp
  | cons source sources ih =>
    rw [List.foldr_cons, value_spent, ih]
    by_cases here : source.envVar = some name
    · simp [here]
    · simp [here]

theorem secret_spent (source : Source) (env : Environment) :
    (spent source env).secret = if .otpSecret = source then [] else env.secret := by
  cases source with
  | otpSecret => rfl
  | pincode => rfl
  | profilePin => rfl
  | commandLine => rfl

theorem secret_foldr_spent (sources : List Source) (env : Environment) :
    (sources.foldr spent env).secret = if .otpSecret ∈ sources then [] else env.secret := by
  induction sources with
  | nil => simp
  | cons source sources ih =>
    rw [List.foldr_cons, secret_spent, ih]
    by_cases here : .otpSecret = source
    · simp [here]
    · simp [here]

/-- After any calls with `keeppin` off, no PIN and no secret can be read any more once one
of them has returned true; with `keeppin` on, no call changes the environment. -/
structure Scrubbed (start : World) : Prop where
  gone : start.globals.keeppin = false → ∀ sources w time w', Calls start sources w →
    getPin.run (atTime w time) = .done true w' →
    ¬ w'.process.environment.IsSet .bnsPincode ∧ ¬ w'.process.environment.IsSet .bnsProfilePin ∧
      w'.process.environment.secret = []
  kept : start.globals.keeppin = true → ∀ sources w time w', Calls start sources w →
    (getPin.run (atTime w time)).state? = some w' →
    w'.process.environment = w.process.environment

/-- What the calls do take out of the environment: with `keeppin` off exactly the texts
of the sources that a PIN was taken from, with `keeppin` on nothing. -/
theorem getPin_scrubs_taken (start w : World) (sources : List Source)
    (calls : Calls start sources w) :
    (start.globals.keeppin = false →
      (∀ name, w.process.environment.value name =
        if ∃ source ∈ sources, source.envVar = some name then []
        else start.process.environment.value name) ∧
      w.process.environment.secret =
        if .otpSecret ∈ sources then [] else start.process.environment.secret) ∧
    (start.globals.keeppin = true →
      w.process.environment = start.process.environment) := by
  obtain ⟨-, environment⟩ := calls_environment calls
  constructor
  · intro notKept
    rw [if_neg (by rw [notKept]; decide)] at environment
    rw [environment]
    exact ⟨value_foldr_spent sources _, secret_foldr_spent sources _⟩
  · intro kept
    rw [environment, if_pos kept]

private theorem pins_nulFree :
    (0 : WChar) ∉ wide "123456" ∧ (0 : WChar) ∉ wide "654321" := by
  constructor <;> decide

/-- A PIN in each of the two variables. -/
def twoPins : World :=
  ⟨{ Process.bare with
      environment := (Environment.bare.assign .bnsPincode ⟨wide "123456", pins_nulFree.1⟩).assign
        .bnsProfilePin ⟨wide "654321", pins_nulFree.2⟩ },
    Panels.blank, Globals.initial⟩

theorem getPin_scrubs_taken_once : ∃ w, Calls twoPins [.pincode] w ∧
    w.process.environment.value .bnsPincode = [] ∧
    w.process.environment.value .bnsProfilePin = wide "654321" := by
  have calls : Calls twoPins [.pincode] _ := .returned [] twoPins _ 0 true .none rfl
  obtain ⟨values, -⟩ := (getPin_scrubs_taken twoPins _ _ calls).1 rfl
  exact ⟨_, calls, values .bnsPincode, values .bnsProfilePin⟩

/-- The second PIN is still there when the first has been taken. -/
theorem twoPins_not_scrubbed : ¬ Scrubbed twoPins := by
  intro scrubbed
  obtain ⟨-, gone, -⟩ := scrubbed.gone rfl [] twoPins 0 _ .none rfl
  exact absurd gone (by decide)

end LoginHelper.SecretScrubbing
