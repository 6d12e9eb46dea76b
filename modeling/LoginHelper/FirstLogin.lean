/- Unit: LoginHelper/FirstLogin
   source: GetLogin in src/loginhelper/Lobby.h
   digest: What the first call of GetLogin takes from which source, and what every later one returns. -/

import LoginHelper.Credentials

set_option autoImplicit false
set_option relaxedAutoImplicit false

namespace LoginHelper.FirstLogin

open LoginHelper.Foundation.Execution LoginHelper.Foundation.Runs
open LoginHelper.Windows.ProcessEnvironment
open LoginHelper.CommandLine (usernameArgument passwordArgument)
open LoginHelper.Data LoginHelper.Lobby LoginHelper.Credentials

def withLogin (w : World) (loggedin : Int) (account password : WString) : World :=
  w.withGlobals { w.globals with loggedin := loggedin, mAccount := account, mPassword := password }

@[simp] theorem withLogin_process (w : World) (loggedin : Int) (account password : WString) :
    (withLogin w loggedin account password).process = w.process := rfl
@[simp] theorem withLogin_mAccount (w : World) (loggedin : Int) (account password : WString) :
    (withLogin w loggedin account password).globals.mAccount = account := rfl

/-- The variables of the login, as far as they are set, fit their buffers. -/
def LoginFits (env : Environment) : Prop :=
  (env.value .bnsProfileUsername).length < 256 ∧ (env.value .bnsProfilePassword).length < 256

def EnvironmentPair (env : Environment) : Prop :=
  env.IsSet .bnsProfileUsername ∧ env.IsSet .bnsProfilePassword

/-- The first call of `GetLogin`, with the state it leaves. -/
inductive FirstCall (w : World) : Bool → World → Prop
  | bothVariables (complete : EnvironmentPair w.process.environment) :
      FirstCall w true (withLogin (w.withEnvironment ((w.process.environment.clear
        .bnsProfileUsername).clear .bnsProfilePassword)) 2
          (w.process.environment.value .bnsProfileUsername)
          (w.process.environment.value .bnsProfilePassword))
  | usernameOnly (username : w.process.environment.IsSet .bnsProfileUsername)
      (password : ¬ w.process.environment.IsSet .bnsProfilePassword) :
      FirstCall w false (withLogin (w.withEnvironment (w.process.environment.clear
        .bnsProfileUsername)) (-1) (w.process.environment.value .bnsProfileUsername)
          w.globals.mPassword)
  | arguments (account password : WString)
      (unset : ¬ w.process.environment.IsSet .bnsProfileUsername)
      (username : usernameArgument w.process.commandLine = some account)
      (found : passwordArgument w.process.commandLine = some password) :
      FirstCall w true (withLogin w 2 account password)
  | argumentOnly (account : WString) (unset : ¬ w.process.environment.IsSet .bnsProfileUsername)
      (username : usernameArgument w.process.commandLine = some account)
      (missing : passwordArgument w.process.commandLine = none) :
      FirstCall w false (withLogin w (-1) account w.globals.mPassword)
  | nothing (unset : ¬ w.process.environment.IsSet .bnsProfileUsername)
      (missing : usernameArgument w.process.commandLine = none) :
      FirstCall w false (withLogin w (-1) w.globals.mAccount w.globals.mPassword)

/-- The world of `GetLogin` between its two variables. -/
def named (w : World) : World :=
  withLogin (w.withEnvironment (w.process.environment.clear .bnsProfileUsername)) 2
    (w.process.environment.value .bnsProfileUsername) w.globals.mPassword

theorem named_password (w : World) :
    (named w).process.environment.value .bnsProfilePassword =
      w.process.environment.value .bnsProfilePassword :=
  (Environment.value_clear _ _ _).trans (if_neg (by decide))

private theorem readLogin_named {w : World}
    (username : w.process.environment.IsSet .bnsProfileUsername)
    (fits : (w.process.environment.value .bnsProfileUsername).length < 256) :
    readLogin.run w = passwordFromVariable.run (named w) := by
  let start := withLogin w 2 w.globals.mAccount w.globals.mPassword
  have marked : (setLoggedin 2).run w = .done () start := rfl
  have read := readWide_fits .bnsProfileUsername start username fits
  rw [readLogin, bind_run, marked, Outcome.andThen_done, bind_run, read]
  rfl

private theorem passwordFromVariable_first {w : World}
    (username : w.process.environment.IsSet .bnsProfileUsername)
    (fits : (w.process.environment.value .bnsProfilePassword).length < 256) :
    ∃ found t, passwordFromVariable.run (named w) = .done found t ∧ FirstCall w found t := by
  have kept := named_password w
  rw [passwordFromVariable, bind_run]
  by_cases password : w.process.environment.IsSet .bnsProfilePassword
  · rw [readWide_fits _ (named w) (by rw [Environment.IsSet, kept]; exact password)
      (by rw [kept]; exact fits), Outcome.andThen_done, kept]
    exact ⟨true, _, rfl, .bothVariables ⟨username, password⟩⟩
  · rw [readWide_unset _ (named w) (by rw [kept]; exact not_not.mp password),
      Outcome.andThen_done]
    exact ⟨false, _, rfl, .usernameOnly username password⟩

private theorem loginFromCommandLine_first {w : World}
    (unset : ¬ w.process.environment.IsSet .bnsProfileUsername) :
    ∃ found t, loginFromCommandLine.run (withLogin w 2 w.globals.mAccount w.globals.mPassword) =
      .done found t ∧ FirstCall w found t := by
  rw [loginFromCommandLine, bind_run, readState_run, Outcome.andThen_done, withLogin_process]
  cases username : usernameArgument w.process.commandLine with
  | none => exact ⟨false, _, rfl, .nothing unset username⟩
  | some account =>
    cases password : passwordArgument w.process.commandLine with
    | none => exact ⟨false, _, rfl, .argumentOnly account unset username password⟩
    | some text => exact ⟨true, _, rfl, .arguments account text unset username password⟩

theorem getLogin_unset (w : World) (first : w.globals.loggedin = 0)
    (unset : ¬ w.process.environment.IsSet .bnsProfileUsername) :
    ∃ found t, getLogin.run w = .done found t ∧ FirstCall w found t := by
  let start := withLogin w 2 w.globals.mAccount w.globals.mPassword
  have marked : (setLoggedin 2).run w = .done () start := rfl
  rw [getLogin_first w first, readLogin, bind_run, marked, Outcome.andThen_done, bind_run,
    readWide_unset _ start (not_not.mp unset), Outcome.andThen_done]
  exact loginFromCommandLine_first unset

theorem getLogin_firstCall (w : World) (first : w.globals.loggedin = 0)
    (fits : LoginFits w.process.environment) :
    ∃ found t, getLogin.run w = .done found t ∧ FirstCall w found t := by
  by_cases username : w.process.environment.IsSet .bnsProfileUsername
  · rw [getLogin_first w first, readLogin_named username fits.1]
    exact passwordFromVariable_first username fits.2
  · exact getLogin_unset w first username

def CommandLinePair (line : WString) : Prop :=
  (usernameArgument line).isSome = true ∧ (passwordArgument line).isSome = true

/-- The first call takes a pair from one source or changes nothing, and finds every pair. -/
def AllOrNothing (w : World) : Prop :=
  ∃ found t, getLogin.run w = .done found t ∧
    (found = true ∧ CompletePair w t.globals.mAccount t.globals.mPassword ∨
      found = false ∧ t.globals.mAccount = w.globals.mAccount ∧
        t.globals.mPassword = w.globals.mPassword ∧
        t.process.environment = w.process.environment) ∧
    (EnvironmentPair w.process.environment ∨ CommandLinePair w.process.commandLine → found = true)

/-- What the two texts of a login are when the sources are asked in turn: the command
line counts only when no user name is in the environment. -/
inductive TakenFrom (w t : World) : Prop
  | environment (complete : EnvironmentPair w.process.environment)
      (account : t.globals.mAccount = w.process.environment.value .bnsProfileUsername)
      (password : t.globals.mPassword = w.process.environment.value .bnsProfilePassword)
  | commandLine (unset : ¬ w.process.environment.IsSet .bnsProfileUsername)
      (account : usernameArgument w.process.commandLine = some t.globals.mAccount)
      (password : passwordArgument w.process.commandLine = some t.globals.mPassword)

/-- What a failed first call leaves: the user name of the source it looked at, taken out
of the environment if it was there, and nothing else. -/
structure GivenUp (w t : World) : Prop where
  account : t.globals.mAccount =
    if w.process.environment.IsSet .bnsProfileUsername then
      w.process.environment.value .bnsProfileUsername
    else (usernameArgument w.process.commandLine).getD w.globals.mAccount
  password : t.globals.mPassword = w.globals.mPassword
  environment : t.process.environment =
    if w.process.environment.IsSet .bnsProfileUsername then
      w.process.environment.clear .bnsProfileUsername
    else w.process.environment

/-- The first call returns true exactly with a pair from the first source that has a
user name, and otherwise leaves the password alone. -/
theorem getLogin_first_taken (w : World) (first : w.globals.loggedin = 0)
    (fits : LoginFits w.process.environment) :
    ∃ found t, getLogin.run w = .done found t ∧
      (found = true ∧ TakenFrom w t ∨ found = false ∧ GivenUp w t) ∧
      (found = true ↔ EnvironmentPair w.process.environment ∨
        ¬ w.process.environment.IsSet .bnsProfileUsername ∧
          CommandLinePair w.process.commandLine) := by
  obtain ⟨found, t, run, call⟩ := getLogin_firstCall w first fits
  refine ⟨found, t, run, ?_⟩
  cases call with
  | bothVariables complete =>
    exact ⟨.inl ⟨rfl, .environment complete rfl rfl⟩, iff_of_true rfl (.inl complete)⟩
  | usernameOnly username password =>
    refine ⟨.inr ⟨rfl, (if_pos username).symm, rfl, (if_pos username).symm⟩,
      iff_of_false Bool.false_ne_true ?_⟩
    rintro (complete | ⟨unset, -⟩)
    · exact password complete.2
    · exact unset username
  | arguments account password unset username found =>
    refine ⟨.inl ⟨rfl, .commandLine unset username found⟩, iff_of_true rfl (.inr ⟨unset, ?_⟩)⟩
    rw [CommandLinePair, username, found]
    exact ⟨rfl, rfl⟩
  | argumentOnly account unset username missing =>
    have taken : account = (usernameArgument w.process.commandLine).getD w.globals.mAccount := by
      rw [username]
      rfl
    refine ⟨.inr ⟨rfl, taken.trans (if_neg unset).symm, rfl, (if_neg unset).symm⟩,
      iff_of_false Bool.false_ne_true ?_⟩
    rintro (complete | ⟨-, pair⟩)
    · exact unset complete.1
    · rw [CommandLinePair, missing] at pair
      exact absurd pair.2 Bool.false_ne_true
  | nothing unset missing =>
    have left : w.globals.mAccount =
        (usernameArgument w.process.commandLine).getD w.globals.mAccount := by
      rw [missing]
      rfl
    refine ⟨.inr ⟨rfl, left.trans (if_neg unset).symm, rfl, (if_neg unset).symm⟩,
      iff_of_false Bool.false_ne_true ?_⟩
    rintro (complete | ⟨-, pair⟩)
    · exact unset complete.1
    · rw [CommandLinePair, missing] at pair
      exact absurd pair.1 Bool.false_ne_true

/-- A user name in the environment, and a pair on the command line. -/
def mixedWorld : World :=
  ⟨{ Process.bare with
      environment := Environment.bare.assign .bnsProfileUsername ⟨wide "c", by decide⟩
      commandLine := wide "Client.exe -USERNAME:a -PASSWORD:b" },
    Panels.blank, Globals.initial⟩

theorem getLogin_first_taken_mixed : mixedWorld.globals.loggedin = 0 ∧
    LoginFits mixedWorld.process.environment ∧
    ∃ found t, getLogin.run mixedWorld = .done found t ∧
      (found = true ∧ TakenFrom mixedWorld t ∨ found = false ∧ GivenUp mixedWorld t) ∧
      (found = true ↔ EnvironmentPair mixedWorld.process.environment ∨
        ¬ mixedWorld.process.environment.IsSet .bnsProfileUsername ∧
          CommandLinePair mixedWorld.process.commandLine) := by
  have fits : LoginFits mixedWorld.process.environment := by
    constructor <;> decide
  exact ⟨rfl, fits, getLogin_first_taken mixedWorld rfl fits⟩

/-- A user name without a password in the environment hides the pair of the command line,
and is taken all the same. -/
theorem mixed_not_allOrNothing : mixedWorld.globals.loggedin = 0 ∧
    LoginFits mixedWorld.process.environment ∧ ¬ AllOrNothing mixedWorld := by
  have fits : LoginFits mixedWorld.process.environment := by
    constructor <;> decide
  refine ⟨rfl, fits, ?_⟩
  rintro ⟨found, t, run, -, complete⟩
  have pair : CommandLinePair mixedWorld.process.commandLine := by
    constructor <;> decide
  obtain rfl := complete (.inr pair)
  have failed : getLogin.run mixedWorld = .done false _ := rfl
  rw [failed] at run
  cases run

/-- The stored login carried over to a world in which everything else may have changed. -/
def carryLogin (w : World) (g : Globals) : World :=
  withLogin w g.loggedin g.mAccount g.mPassword

def afterCall (g : Globals) (w : World) : Globals :=
  (((getLogin.run (carryLogin w g)).state?).getD (carryLogin w g)).globals

/-- A call, with this stored, in this world returns true and leaves this pair stored. -/
def ReturnsPair (account password : WString) (g : Globals) (w : World) : Prop :=
  ∃ t, getLogin.run (carryLogin w g) = .done true t ∧
    t.globals.mAccount = account ∧ t.globals.mPassword = password

/-- The first call takes the two texts as they are and out of the environment, and every
later one returns them whatever the world is by then. -/
def TakenVerbatim (account password : WString) : Prop :=
  ∀ w : World, w.globals.loggedin = 0 →
    w.process.environment.value .bnsProfileUsername = account →
    w.process.environment.value .bnsProfilePassword = password →
    ∃ t, getLogin.run w = .done true t ∧
      (t.globals.mAccount = account ∧ t.globals.mPassword = password) ∧
      (t.process.environment.value .bnsProfileUsername = [] ∧
        t.process.environment.value .bnsProfilePassword = []) ∧
      ∀ worlds : List World, Along afterCall (ReturnsPair account password) t.globals worlds

theorem stored_returned {account password : WString} (worlds : List World) {g : Globals}
    (loggedin : g.loggedin = 2) (stored : g.mAccount = account ∧ g.mPassword = password) :
    Along afterCall (ReturnsPair account password) g worlds := by
  induction worlds generalizing g with
  | nil => exact trivial
  | cons w worlds ih =>
    have run : getLogin.run (carryLogin w g) = .done true (carryLogin w g) :=
      getLogin_later _ (by
        show g.loggedin ≠ 0
        rw [loggedin]
        decide)
    have after : afterCall g w = (carryLogin w g).globals := by
      rw [afterCall, run]
      rfl
    refine ⟨⟨_, run, stored⟩, ?_⟩
    rw [after]
    exact ih loggedin stored

/-- A first call in a process whose buffers hold no terminator once a text did not fit. -/
def staleWorld (env : Environment) : World :=
  ⟨{ Process.bare with environment := env, staleWide := fun _ => List.replicate 256 1 },
    Panels.blank, Globals.initial⟩

private theorem fits_of_returned {env : Environment} (username : env.IsSet .bnsProfileUsername)
    {found : Bool} {t : World} (run : getLogin.run (staleWorld env) = .done found t) :
    LoginFits env := by
  have noString : bufferString 256 (List.replicate 256 (1 : WChar)) = none := by decide
  have account : (env.value .bnsProfileUsername).length < 256 := by
    rw [getLogin_first _ rfl, readLogin, bind_run] at run
    obtain ⟨_, start, marked, run⟩ := Outcome.andThen_eq_done run
    cases marked
    obtain ⟨mailchar, w, read, -⟩ := Outcome.andThen_eq_done run
    exact fits_of_unterminated noString read
  refine ⟨account, ?_⟩
  rw [getLogin_first _ rfl, readLogin_named (w := staleWorld env) username account,
    passwordFromVariable, bind_run] at run
  obtain ⟨passchar, w, read, -⟩ := Outcome.andThen_eq_done run
  have password := fits_of_unterminated noString read
  rwa [named_password] at password

/-- The pair of the environment is taken verbatim exactly if both texts fit the buffers. -/
theorem takenVerbatim_iff (u p : CText WChar) (username : u.chars ≠ []) (password : p.chars ≠ []) :
    TakenVerbatim u.chars p.chars ↔ u.chars.length < 256 ∧ p.chars.length < 256 := by
  constructor
  · intro verbatim
    let env := (Environment.bare.assign .bnsProfileUsername u).assign .bnsProfilePassword p
    obtain ⟨t, run, -⟩ := verbatim (staleWorld env) rfl rfl rfl
    have set : env.IsSet .bnsProfileUsername := username
    exact fits_of_returned set run
  · intro fits w first account secret
    have complete : EnvironmentPair w.process.environment := by
      rw [EnvironmentPair, Environment.IsSet, Environment.IsSet, account, secret]
      exact ⟨username, password⟩
    have short : LoginFits w.process.environment := by
      rw [LoginFits, account, secret]
      exact fits
    obtain ⟨found, t, run, call⟩ := getLogin_firstCall w first short
    cases call with
    | bothVariables _ =>
      refine ⟨_, run, ⟨account, secret⟩, ⟨?_, ?_⟩, fun worlds => ?_⟩
      · simp
      · simp
      · exact stored_returned worlds rfl ⟨account, secret⟩
    | usernameOnly _ missing => exact absurd complete.2 missing
    | arguments _ _ unset _ _ => exact absurd complete.1 unset
    | argumentOnly _ unset _ _ => exact absurd complete.1 unset
    | nothing unset _ => exact absurd complete.1 unset

theorem takenVerbatim_iff_ascii : wide "name" ≠ [] ∧ wide "secret" ≠ [] ∧
    (TakenVerbatim (wide "name") (wide "secret") ↔
      (wide "name").length < 256 ∧ (wide "secret").length < 256) :=
  ⟨by decide, by decide, takenVerbatim_iff ⟨wide "name", by decide⟩ ⟨wide "secret", by decide⟩
    (by decide) (by decide)⟩

def longName : CText WChar where
  chars := List.replicate 256 97
  nulFree := by
    intro member
    exact absurd (List.eq_of_mem_replicate member) (by decide)

theorem longName_not_verbatim : ¬ TakenVerbatim longName.chars (wide "secret") := by
  intro verbatim
  let env := (Environment.bare.assign .bnsProfileUsername longName).assign .bnsProfilePassword
    ⟨wide "secret", by decide⟩
  have set : env.IsSet .bnsProfileUsername := by
    intro empty
    have length : longName.chars.length = 256 := List.length_replicate
    rw [show longName.chars = [] from empty] at length
    cases length
  obtain ⟨t, run, -⟩ := verbatim (staleWorld env) rfl rfl rfl
  have fits : longName.chars.length < 256 := (fits_of_returned set run).1
  exact absurd fits (by rw [longName, List.length_replicate]; decide)

end LoginHelper.FirstLogin
