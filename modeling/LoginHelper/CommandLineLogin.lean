/- Unit: LoginHelper/CommandLineLogin
   source: the command line branch of GetLogin in src/loginhelper/Lobby.h
   digest: When the user name and password that a command line was written with are read back. -/

import LoginHelper.FirstLogin
import LoginHelper.LoginOptions

set_option autoImplicit false
set_option relaxedAutoImplicit false

namespace LoginHelper.CommandLineLogin

open LoginHelper.Foundation.OrderedRegex
open LoginHelper.Foundation.Execution
open LoginHelper.Windows.ProcessEnvironment
open LoginHelper.CommandLine LoginHelper.LoginOptions LoginHelper.Data LoginHelper.Lobby
open LoginHelper.FirstLogin

/-- A command line with a login: the path of the program, with no option's name in any
letter case in it, and the two options. -/
structure LoginLine where
  program : WString
  username : TypedOption .username
  password : TypedOption .password
  usernameFirst : Bool
  plain : blank ∉ username.value
  elsewhere : ∀ (option : LoginOption) (typed : WString), Spells option.name typed →
    ¬ typed <:+: program

def LoginLine.text (line : LoginLine) : WString :=
  line.program ++
    if line.usernameFirst then line.username.text ++ line.password.text
    else line.password.text ++ line.username.text

/-- The first call, in any world with this command line and no user name in the
environment, returns true with the texts the line was written with. -/
def RoundTrips (line : LoginLine) : Prop :=
  ∀ w : World, w.globals.loggedin = 0 → ¬ w.process.environment.IsSet .bnsProfileUsername →
    w.process.commandLine = line.text →
    ∃ t, getLogin.run w = .done true t ∧
      t.globals.mAccount = line.username.value ∧ t.globals.mPassword = line.password.value

/-- What stands, up to a blank, behind the first place of a text that starts like
`-USERNAME`. -/
def decoy : WString → Option WString
  | [] => none
  | c :: s =>
      if Starts .username (c :: s) then some (((c :: s).drop 11).takeWhile (· ≠ blank))
      else decoy s

/-- No `-USERNAME` in the password comes before the real one, or it has the same value. -/
def Unambiguous (line : LoginLine) : Prop :=
  line.usernameFirst = true ∨
    ∀ value, decoy line.password.value = some value → value = line.username.value

private theorem decoy_unblank {text : WString} (clear : blank ∉ text) : decoy text = none := by
  induction text with
  | nil => rfl
  | cons c text ih =>
    have elsewhere : ¬ Starts .username (c :: text) := by
      intro starts
      rw [starts.blank_front] at clear
      exact clear List.mem_cons_self
    rw [decoy, if_neg elsewhere]
    exact ih fun member => clear (List.mem_cons_of_mem c member)

private theorem usernameArgument_decoy {c : WChar} {text s : WString}
    (starts : Starts .username (c :: text)) (unquoted : quote ∉ c :: text) (ends : Ends s) :
    usernameArgument (c :: (text ++ quote :: s)) = decoy (c :: text) := by
  obtain ⟨typed, separator, rest, split, spelled, separated⟩ := (starts_iff _ _).mp starts
  have value : ((c :: text).drop 11).takeWhile (· ≠ blank) = rest.takeWhile (· ≠ blank) := by
    have length : (typed ++ [separator]).length = 11 := by
      rw [List.length_append, spelled.blank_front.1]
      rfl
    rw [split, ← List.singleton_append, ← List.append_assoc, List.drop_left' length]
  have restUnquoted : quote ∉ rest := by
    intro member
    apply unquoted
    rw [split]
    simp [member]
  have plain : Plain (rest.takeWhile (· ≠ blank)) := by
    constructor
    · intro member
      exact absurd (List.mem_takeWhile_imp member) (by simp)
    · intro member
      exact restUnquoted (List.takeWhile_subset _ member)
  have closes : Closes (rest.dropWhile (· ≠ blank) ++ quote :: s) := by
    cases left : rest.dropWhile (· ≠ blank) with
    | nil => exact .inr ⟨s, rfl, ends⟩
    | cons b left' =>
      have stopped := List.head?_dropWhile_not (· ≠ blank) rest
      rw [left] at stopped
      obtain rfl : b = blank := by simpa using stopped
      exact .inl (ends_blank _)
  rw [decoy, if_pos starts, value, ← List.cons_append, split, List.append_assoc,
    List.cons_append]
  nth_rewrite 1 [← List.takeWhile_append_dropWhile (p := (· ≠ blank)) (l := rest)]
  rw [List.append_assoc]
  exact usernameArgument_bare spelled separated plain closes

private theorem usernameArgument_inside {text s : WString} (unquoted : quote ∉ text)
    (ends : Ends s) :
    usernameArgument (text ++ quote :: s) = (decoy text).or (usernameArgument s) := by
  induction text with
  | nil =>
    have clear : blank ∉ [quote] := by decide
    rw [List.nil_append, ← List.singleton_append, usernameArgument, usernameRegex_split,
      search_unblank s clear]
    rfl
  | cons c text ih =>
    by_cases starts : Starts .username (c :: text)
    · rw [List.cons_append, usernameArgument_decoy starts unquoted ends, decoy, if_pos starts]
      rfl
    · have elsewhere : ¬ Starts .username (c :: (text ++ quote :: s)) := by
        intro found
        rw [← List.cons_append] at found
        exact starts found.before_quote
      rw [List.cons_append, usernameArgument, usernameRegex_split, search_next elsewhere, decoy,
        if_neg starts]
      exact ih fun member => unquoted (List.mem_cons_of_mem c member)

private theorem usernameArgument_password (o : TypedOption .password) {s : WString}
    (ends : Ends s) :
    usernameArgument (o.text ++ s) = (decoy o.value).or (usernameArgument s) := by
  have different : LoginOption.username ≠ .password := by
    rintro ⟨⟩
  cases quoted : o.quoted with
  | false =>
    have clear := o.bare quoted
    rw [decoy_unblank clear, Option.none_or, usernameArgument, usernameRegex_split,
      search_past o different clear]
    rfl
  | true =>
    have clear : blank ∉ [o.separator, quote] := by
      have opening : blank ≠ quote := by decide
      simp [blank_ne_separator o.separated, opening]
    have text : o.text ++ s =
        o.typed ++ ([o.separator, quote] ++ (o.value ++ quote :: s)) := by
      simp [TypedOption.text, TypedOption.written, quoted]
    rw [text, usernameArgument, usernameRegex_split, search_other _ different o.spelled,
      search_unblank _ clear]
    exact usernameArgument_inside o.unquoted ends

theorem usernameArgument_text (line : LoginLine) : usernameArgument line.text =
    some (if line.usernameFirst then line.username.value
      else (decoy line.password.value).getD line.username.value) := by
  obtain ⟨s, start⟩ := line.username.text_blank
  obtain ⟨s', start'⟩ := line.password.text_blank
  have skip (rest : WString) : usernameArgument (line.program ++ blank :: rest) =
      usernameArgument (blank :: rest) := by
    rw [usernameArgument, usernameRegex_split, search_program _ (line.elsewhere .username)]
    rfl
  rw [LoginLine.text]
  split
  · rw [start, List.cons_append, skip, ← List.cons_append, ← start]
    apply usernameArgument_typed line.username line.plain
    rw [start']
    exact ends_blank s'
  · have real : usernameArgument line.username.text = some line.username.value := by
      have found := usernameArgument_typed line.username line.plain ends_nil
      rwa [List.append_nil] at found
    have ends : Ends line.username.text := by
      rw [start]
      exact ends_blank s
    rw [start', List.cons_append, skip, ← List.cons_append, ← start',
      usernameArgument_password line.password ends, real]
    cases decoy line.password.value <;> rfl

theorem passwordArgument_text (line : LoginLine) :
    passwordArgument line.text = some line.password.value := by
  obtain ⟨s, start⟩ := line.username.text_blank
  obtain ⟨s', start'⟩ := line.password.text_blank
  have skip (rest : WString) : passwordArgument (line.program ++ blank :: rest) =
      passwordArgument (blank :: rest) := by
    rw [passwordArgument, passwordRegex_split, search_program _ (line.elsewhere .password)]
    rfl
  have different : LoginOption.password ≠ .username := by
    rintro ⟨⟩
  rw [LoginLine.text]
  split
  · have found := passwordArgument_typed line.password ends_nil
    rw [List.append_nil] at found
    rw [start, List.cons_append, skip, ← List.cons_append, ← start, passwordArgument,
      passwordRegex_split, search_past line.username different line.plain]
    exact found
  · rw [start', List.cons_append, skip, ← List.cons_append, ← start']
    apply passwordArgument_typed line.password
    rw [start]
    exact ends_blank s

private theorem getLogin_arguments {w : World} {account password : WString}
    (first : w.globals.loggedin = 0)
    (unset : ¬ w.process.environment.IsSet .bnsProfileUsername)
    (username : usernameArgument w.process.commandLine = some account)
    (secret : passwordArgument w.process.commandLine = some password) :
    getLogin.run w = .done true (withLogin w 2 account password) := by
  obtain ⟨found, t, run, call⟩ := getLogin_unset w first unset
  cases call with
  | bothVariables complete => exact absurd complete.1 unset
  | usernameOnly present _ => exact absurd present unset
  | arguments account' password' _ username' secret' =>
    obtain rfl : account = account' := Option.some.inj (username.symm.trans username')
    obtain rfl : password = password' := Option.some.inj (secret.symm.trans secret')
    exact run
  | argumentOnly _ _ _ missing =>
    rw [secret] at missing
    cases missing
  | nothing _ missing =>
    rw [username] at missing
    cases missing

private theorem elsewhere_unblank {program : WString} (clear : blank ∉ program)
    (option : LoginOption) (typed : WString) (spelled : Spells option.name typed) :
    ¬ typed <:+: program := by
  intro inside
  obtain ⟨-, letters, rfl, -⟩ := spelled.blank_front
  exact clear (inside.subset List.mem_cons_self)

private theorem RoundTrips.username {line : LoginLine} (roundTrips : RoundTrips line) :
    usernameArgument line.text = some line.username.value := by
  let w : World := ⟨{ Process.bare with commandLine := line.text }, Panels.blank, Globals.initial⟩
  have unset : ¬ w.process.environment.IsSet .bnsProfileUsername := not_not.mpr rfl
  have username := usernameArgument_text line
  obtain ⟨t, run, account, -⟩ := roundTrips w rfl unset rfl
  rw [getLogin_arguments (w := w) rfl unset username (passwordArgument_text line)] at run
  cases run
  rw [username]
  exact congrArg some account

/-- A login read back from the command line is the one that was written, unless the
password comes first and a `-USERNAME` in it has another value. -/
theorem roundTrips_iff (line : LoginLine) : RoundTrips line ↔ Unambiguous line := by
  have username := usernameArgument_text line
  have secret := passwordArgument_text line
  constructor
  · intro roundTrips
    rw [roundTrips.username] at username
    rw [Unambiguous]
    cases order : line.usernameFirst with
    | true => exact .inl rfl
    | false =>
      right
      intro value hidden
      rw [order, hidden] at username
      exact (Option.some.inj username).symm
  · intro clear w first unset written
    rw [← written] at username secret
    refine ⟨_, getLogin_arguments first unset username secret, ?_, rfl⟩
    rw [withLogin_mAccount]
    rcases clear with order | same
    · rw [order]
      rfl
    · split
      · rfl
      · cases hidden : decoy line.password.value with
        | none => rfl
        | some value => exact same value hidden

/-- `Client.exe -password="x y" -UserName:a` -/
def blankLine : LoginLine where
  program := wide "Client.exe"
  username := ⟨wide " -UserName", 58, wide "a", false, by decide, by decide, by decide,
    by decide⟩
  password := ⟨wide " -password", 61, wide "x y", true, by decide, by decide, by decide,
    by decide⟩
  usernameFirst := false
  plain := by decide
  elsewhere := elsewhere_unblank (by decide)

theorem roundTrips_iff_blank : RoundTrips blankLine := by
  have clear : decoy blankLine.password.value = none := by decide
  apply (roundTrips_iff blankLine).mpr
  right
  intro value hidden
  rw [clear] at hidden
  cases hidden

/-- `Client.exe -PASSWORD:"x -USERNAME:b" -USERNAME:a` -/
def hiddenLine : LoginLine where
  program := wide "Client.exe"
  username := ⟨wide " -USERNAME", 58, wide "a", false, rfl, by decide, by decide,
    by decide⟩
  password := ⟨wide " -PASSWORD", 58, wide "x -USERNAME:b", true, rfl, by decide,
    by decide, by decide⟩
  usernameFirst := false
  plain := by decide
  elsewhere := elsewhere_unblank (by decide)

theorem hiddenLine_not_roundTrips : ¬ RoundTrips hiddenLine := by
  intro roundTrips
  have inside : decoy hiddenLine.password.value = some (wide "b") := by decide
  have found := usernameArgument_text hiddenLine
  rw [roundTrips.username, inside] at found
  exact absurd found (by decide)

end LoginHelper.CommandLineLogin
