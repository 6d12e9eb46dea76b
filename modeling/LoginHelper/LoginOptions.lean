/- Unit: LoginHelper/LoginOptions
   source: the regular expressions of GetLogin in src/loginhelper/Lobby.h
   digest: The two options of a login as they can be typed, and where their expressions find what. -/

import LoginHelper.CommandLine

set_option autoImplicit false
set_option relaxedAutoImplicit false

namespace LoginHelper.LoginOptions

open LoginHelper.Foundation.OrderedRegex
open LoginHelper.Windows.ProcessEnvironment
open LoginHelper.CommandLine

def blank : WChar := 32

def quote : WChar := 34

/-- The options of a login. -/
inductive LoginOption
  | username | password

/-- An option's name, with the blank that separates it from what is in front. -/
def LoginOption.name : LoginOption → String
  | .username => " -USERNAME"
  | .password => " -PASSWORD"

def Spells (text : String) (typed : WString) : Prop :=
  typed.map foldCase = (wide text).map foldCase

instance (text : String) (typed : WString) : Decidable (Spells text typed) :=
  inferInstanceAs (Decidable (_ = _))

/-- An option with its value, quoted or not. -/
structure TypedOption (option : LoginOption) where
  typed : WString
  separator : WChar
  value : WString
  quoted : Bool
  spelled : Spells option.name typed
  separated : separator ∈ wide ":="
  unquoted : quote ∉ value
  bare : quoted = false → blank ∉ value

namespace TypedOption

variable {option : LoginOption}

/-- What follows the separator. -/
def written (o : TypedOption option) : WString :=
  if o.quoted then quote :: o.value ++ [quote] else o.value

def text (o : TypedOption option) : WString := o.typed ++ o.separator :: o.written

end TypedOption

def Starts (option : LoginOption) (s : WString) : Prop :=
  Spells option.name (s.take 10) ∧ ∃ c ∈ (s.drop 10).head?, c ∈ wide ":="

instance (option : LoginOption) (s : WString) : Decidable (Starts option s) :=
  inferInstanceAs (Decidable (_ ∧ _))

theorem foldCase_unletter {c d : WChar} (below : d < 97) (folds : foldCase c = d) :
    c = d := by
  unfold foldCase at folds
  split at folds
  · rename_i upper
    have least : (65 : WChar).toNat ≤ c.toNat := UInt16.le_iff_toNat_le.mp upper.1
    have most : c.toNat ≤ (90 : WChar).toNat := UInt16.le_iff_toNat_le.mp upper.2
    have bound : d.toNat < (97 : WChar).toNat := UInt16.lt_iff_toNat_lt.mp below
    have sum : (c + 32).toNat = d.toNat := congrArg UInt16.toNat folds
    rw [UInt16.toNat_add] at sum
    simp only [UInt16.reduceToNat] at least most sum bound
    omega
  · exact folds

theorem Spells.blank_front {option : LoginOption} {typed : WString}
    (spelled : Spells option.name typed) :
    typed.length = 10 ∧ ∃ letters, typed = blank :: letters ∧ blank ∉ letters := by
  have shape : ∃ letters, (wide option.name).map foldCase = blank :: letters ∧
      letters.length = 9 ∧ blank ∉ letters := by
    cases option <;> exact ⟨_, rfl, rfl, by decide⟩
  obtain ⟨folded, names, length, clear⟩ := shape
  have typedFolded : typed.map foldCase = blank :: folded := spelled.trans names
  cases typed with
  | nil => cases typedFolded
  | cons c letters =>
    obtain ⟨head, tail⟩ := List.cons_eq_cons.mp typedFolded
    have count : letters.length = 9 := by rw [← List.length_map foldCase, tail, length]
    refine ⟨by rw [List.length_cons, count], letters, by rw [foldCase_unletter (by decide) head], ?_⟩
    intro member
    apply clear
    rw [← tail]
    exact List.mem_map_of_mem (f := foldCase) member

private theorem name_injective {option other : LoginOption}
    (same : (wide option.name).map foldCase = (wide other.name).map foldCase) : option = other := by
  cases option with
  | username =>
    cases other with
    | username => rfl
    | password => exact absurd same (by decide)
  | password =>
    cases other with
    | username => exact absurd same (by decide)
    | password => rfl

theorem starts_iff (option : LoginOption) (s : WString) :
    Starts option s ↔ ∃ typed separator rest, s = typed ++ separator :: rest ∧
      Spells option.name typed ∧ separator ∈ wide ":=" := by
  constructor
  · rintro ⟨spelled, separator, found, separates⟩
    obtain ⟨rest, after⟩ := List.head?_eq_some_iff.mp found
    refine ⟨s.take 10, separator, rest, ?_, spelled, separates⟩
    rw [← after, List.take_append_drop]
  · rintro ⟨typed, separator, rest, rfl, spelled, separates⟩
    have ten := spelled.blank_front.1
    refine ⟨?_, separator, ?_, separates⟩
    · rwa [List.take_left' ten]
    · rw [List.drop_left' ten]
      rfl

theorem Starts.blank_front {option : LoginOption} {c : WChar} {s : WString}
    (starts : Starts option (c :: s)) : c = blank := by
  obtain ⟨typed, separator, rest, text, spelled, -⟩ := (starts_iff option _).mp starts
  obtain ⟨-, letters, rfl, -⟩ := spelled.blank_front
  exact (List.cons_eq_cons.mp text).1

private theorem Spells.inside {option : LoginOption} {typed front s rest : WString} {c : WChar}
    (spelled : Spells option.name typed) (text : c :: front ++ blank :: s = typed ++ rest) :
    typed <+: c :: front := by
  rcases List.append_eq_append_iff.mp text with ⟨beyond, typedText, restText⟩ | ⟨left, inner, -⟩
  · obtain ⟨-, letters, lettersText, clear⟩ := spelled.blank_front
    cases beyond with
    | nil => exact ⟨[], by rw [List.append_nil, typedText, List.append_nil]⟩
    | cons b beyond =>
      obtain rfl : blank = b := (List.cons_eq_cons.mp restText).1
      rw [lettersText] at typedText
      have member : blank ∈ letters := by
        rw [(List.cons_eq_cons.mp typedText).2]
        simp
      exact absurd member clear
  · exact ⟨left, inner.symm⟩

private theorem Spells.no_quote {option : LoginOption} {typed : WString}
    (spelled : Spells option.name typed) : quote ∉ typed := by
  have clear : quote ∉ (wide option.name).map foldCase := by
    cases option <;> decide
  intro member
  apply clear
  have folded : foldCase quote ∈ typed.map foldCase := List.mem_map_of_mem (f := foldCase) member
  rwa [spelled] at folded

theorem Starts.before_quote {option : LoginOption} {text s : WString}
    (starts : Starts option (text ++ quote :: s)) : Starts option text := by
  obtain ⟨typed, separator, rest, split, spelled, separated⟩ := (starts_iff option _).mp starts
  have noQuote : quote ∉ typed ++ [separator] := by
    intro member
    rcases List.mem_append.mp member with inName | atSeparator
    · exact spelled.no_quote inName
    · obtain rfl := List.mem_singleton.mp atSeparator
      exact absurd separated (by decide)
  have front : text ++ quote :: s = (typed ++ [separator]) ++ rest := by
    rw [split, List.append_assoc, List.singleton_append]
  rw [starts_iff]
  rcases List.append_eq_append_iff.mp front with ⟨beyond, nameText, restText⟩ | ⟨left, inner, -⟩
  · cases beyond with
    | nil =>
      rw [List.append_nil] at nameText
      exact ⟨typed, separator, [], nameText.symm, spelled, separated⟩
    | cons b beyond =>
      obtain rfl : quote = b := (List.cons_eq_cons.mp restText).1
      rw [nameText] at noQuote
      exact absurd (by simp) noQuote
  · refine ⟨typed, separator, left, ?_, spelled, separated⟩
    rw [inner, List.append_assoc, List.singleton_append]

def optionRegex (option : LoginOption) (r : Regex WChar) : Regex WChar :=
  .seq (literal option.name) (.seq (oneOf ":=") r)

section Search

variable {option : LoginOption} {r : Regex WChar}

private theorem ways_option_stuck {s : WString} (elsewhere : ¬ Starts option s) :
    ways (optionRegex option r) s [] = [] := by
  rw [List.eq_nil_iff_forall_not_mem]
  intro x member
  obtain ⟨y, named, further⟩ := List.mem_flatMap.mp member
  obtain ⟨z, separated, -⟩ := List.mem_flatMap.mp further
  obtain ⟨typed, rfl, spelled⟩ : ∃ typed, s = typed ++ y.1 ∧ Spells option.name typed :=
    mem_ways_keyed foldCase named
  apply elsewhere
  rw [starts_iff]
  cases after : y.1 with
  | nil =>
    rw [after] at separated
    cases separated
  | cons separator rest =>
    refine ⟨typed, separator, rest, rfl, spelled, ?_⟩
    by_contra other
    rw [after, oneOf, ways_char_stuck y.2 (by simpa using other)] at separated
    cases separated

theorem search_next {c : WChar} {s : WString} (elsewhere : ¬ Starts option (c :: s)) :
    regexSearch (optionRegex option r) (c :: s) = regexSearch (optionRegex option r) s :=
  regexSearch_next (ways_option_stuck elsewhere)

theorem search_unblank {front : WString} (s : WString) (clear : blank ∉ front) :
    regexSearch (optionRegex option r) (front ++ s) = regexSearch (optionRegex option r) s := by
  induction front with
  | nil => rfl
  | cons c front ih =>
    have elsewhere : ¬ Starts option (c :: (front ++ s)) := by
      intro starts
      rw [starts.blank_front] at clear
      exact clear List.mem_cons_self
    rw [List.cons_append, search_next elsewhere]
    exact ih fun member => clear (List.mem_cons_of_mem c member)

theorem search_program {program : WString} (s : WString)
    (elsewhere : ∀ typed, Spells option.name typed → ¬ typed <:+: program) :
    regexSearch (optionRegex option r) (program ++ blank :: s) =
      regexSearch (optionRegex option r) (blank :: s) := by
  induction program with
  | nil => rfl
  | cons c program ih =>
    have notHere : ¬ Starts option (c :: (program ++ blank :: s)) := by
      intro starts
      obtain ⟨typed, separator, rest, text, spelled, -⟩ := (starts_iff option _).mp starts
      exact elsewhere typed spelled (spelled.inside text).isInfix
    rw [List.cons_append, search_next notHere]
    apply ih
    intro typed spelled inner
    exact elsewhere typed spelled (List.infix_cons inner)

theorem search_other {other : LoginOption} {typed : WString} (s : WString)
    (different : option ≠ other) (spelled : Spells other.name typed) :
    regexSearch (optionRegex option r) (typed ++ s) = regexSearch (optionRegex option r) s := by
  obtain ⟨length, letters, rfl, clear⟩ := spelled.blank_front
  have elsewhere : ¬ Starts option (blank :: (letters ++ s)) := by
    rintro ⟨here, -⟩
    have same : Spells option.name (blank :: letters) := by
      rw [← List.cons_append, List.take_left' length] at here
      exact here
    have names : (wide option.name).map foldCase = (wide other.name).map foldCase :=
      same.symm.trans spelled
    exact different (name_injective names)
  rw [List.cons_append, search_next elsewhere]
  exact search_unblank s clear

end Search

theorem TypedOption.text_blank {option : LoginOption} (o : TypedOption option) :
    ∃ s, o.text = blank :: s := by
  obtain ⟨-, letters, typed, -⟩ := o.spelled.blank_front
  exact ⟨letters ++ o.separator :: o.written, by rw [TypedOption.text, typed, List.cons_append]⟩

theorem blank_ne_separator {separator : WChar} (separated : separator ∈ wide ":=") :
    blank ≠ separator := by
  rintro rfl
  exact absurd separated (by decide)

theorem search_past {option other : LoginOption} {r : Regex WChar}
    (o : TypedOption other) (different : option ≠ other) (clear : blank ∉ o.value) (s : WString) :
    regexSearch (optionRegex option r) (o.text ++ s) = regexSearch (optionRegex option r) s := by
  have value : blank ∉ o.separator :: o.written := by
    have here := blank_ne_separator o.separated
    rw [TypedOption.written]
    split
    · have opening : blank ≠ quote := by decide
      simp [here, opening, clear]
    · simp [here, clear]
  rw [TypedOption.text, List.append_assoc, search_other _ different o.spelled,
    search_unblank s value]

def bareUsername : Regex WChar :=
  .seq (.group 1 (.star (noneOf " \""))) (.seq (literal "\"").optional (.seq switchEnd .epsilon))

def usernameValue : Regex WChar := .seq (literal "\"").optional bareUsername

def quotedPassword : Regex WChar :=
  .sequence [literal "\"", .group 1 (.star (noneOf "\"")), literal "\""]

def passwordValue : Regex WChar :=
  .seq (.alt quotedPassword (.group 2 (.star (noneOf " \"")))) (.seq switchEnd .epsilon)

theorem usernameRegex_split : usernameRegex = optionRegex .username usernameValue := rfl

theorem passwordRegex_split : passwordRegex = optionRegex .password passwordValue := rfl

def Ends (s : WString) : Prop := ∀ c ∈ s.head?, c = blank

private theorem Ends.not_quote {s : WString} (ends : Ends s) : ∀ c ∈ s.head?, c ≠ quote := by
  intro c hc isQuote
  rw [ends c hc] at isQuote
  cases isQuote

theorem ends_nil : Ends [] := by
  intro c hc
  cases hc

theorem ends_blank (s : WString) : Ends (blank :: s) := by
  intro c hc
  exact (Option.some.inj hc).symm

private theorem prefers_literal {text : String} {typed : WString} (spelled : Spells text typed)
    (s : WString) (c : Captures WChar) : Prefers (literal text) (typed ++ s) c (s, c) := by
  have once : ways (literal text) (typed ++ s) c = [(s, c)] := ways_keyed foldCase spelled s c
  rw [Prefers, once]
  rfl

private theorem prefers_quote (s : WString) (c : Captures WChar) :
    Prefers (literal "\"") (quote :: s) c (s, c) := by
  have spelled : Spells "\"" [quote] := rfl
  exact prefers_literal spelled s c

private theorem ways_quote_stuck {s : WString} (other : ∀ ch ∈ s.head?, ch ≠ quote)
    (c : Captures WChar) : ways (literal "\"") s c = [] := by
  have stop : ∀ ch ∈ s.head?, (foldCase ch == foldCase quote) = false := by
    intro ch front
    rw [beq_eq_false_iff_ne]
    intro folds
    exact other ch front (foldCase_unletter (by decide) folds)
  show (ways (.char fun ch => foldCase ch == foldCase quote) s c).flatMap _ = []
  rw [ways_char_stuck c stop, List.flatMap_nil]

private theorem prefers_switchEnd {s : WString} (ends : Ends s) (c : Captures WChar) :
    Prefers switchEnd s c (s.tail, c) := by
  cases s with
  | nil => exact (prefers_endOfInput c).left
  | cons b s =>
    obtain rfl : b = blank := ends b rfl
    have spelled : Spells " " [blank] := rfl
    exact Prefers.right rfl (prefers_literal spelled s c)

private theorem search_here {option : LoginOption} {r : Regex WChar} {typed s : WString}
    {separator : WChar} {x : Success WChar} (spelled : Spells option.name typed)
    (separated : separator ∈ wide ":=") (value : Prefers r s [] x) :
    regexSearch (optionRegex option r) (typed ++ separator :: s) = some x.2 := by
  have accepted : (wide ":=").contains separator = true := List.contains_iff_mem.mpr separated
  have name := prefers_literal spelled (separator :: s) []
  have whole : Prefers (optionRegex option r) (typed ++ separator :: s) [] x :=
    name.seq ((prefers_char s [] accepted).seq value)
  exact regexSearch_front whole

def Plain (s : WString) : Prop := blank ∉ s ∧ quote ∉ s

def Closes (s : WString) : Prop := Ends s ∨ ∃ after, s = quote :: after ∧ Ends after

private theorem Plain.not_quote {value after : WString} (plain : Plain value) (ends : Ends after) :
    ∀ ch ∈ (value ++ after).head?, ch ≠ quote := by
  cases value with
  | nil => exact ends.not_quote
  | cons c value =>
    rintro ch front rfl
    obtain rfl : c = quote := Option.some.inj front
    exact plain.2 List.mem_cons_self

private theorem prefers_plain {value rest : WString} (plain : Plain value)
    (stop : ∀ ch ∈ rest.head?, ch = blank ∨ ch = quote) (c : Captures WChar) :
    Prefers (.star (noneOf " \"")) (value ++ rest) c (rest, c) := by
  have excluded : wide " \"" = [blank, quote] := rfl
  apply prefers_class c
  · intro ch member
    have notBlank : ch ≠ blank := fun same => plain.1 (same ▸ member)
    have notQuote : ch ≠ quote := fun same => plain.2 (same ▸ member)
    simp [excluded, notBlank, notQuote]
  · intro ch front
    rcases stop ch front with rfl | rfl <;> simp [excluded]

private theorem prefers_closing {rest : WString} (closes : Closes rest) (c : Captures WChar) :
    ∃ left, Prefers (.seq (literal "\"").optional (.seq switchEnd .epsilon)) rest c (left, c) := by
  rcases closes with ends | ⟨after, rfl, ends⟩
  · have absent : Prefers (literal "\"").optional rest c (rest, c) :=
      Prefers.right (ways_quote_stuck ends.not_quote c) (prefers_epsilon rest c)
    exact ⟨_, absent.seq ((prefers_switchEnd ends c).seq (prefers_epsilon _ c))⟩
  · have present : Prefers (literal "\"").optional (quote :: after) c (after, c) :=
      (prefers_quote after c).left
    exact ⟨_, present.seq ((prefers_switchEnd ends c).seq (prefers_epsilon _ c))⟩

private theorem prefers_username {value rest : WString} (plain : Plain value)
    (closes : Closes rest) :
    ∃ left, Prefers bareUsername (value ++ rest) [] (left, [(1, value)]) := by
  have stop : ∀ ch ∈ rest.head?, ch = blank ∨ ch = quote := by
    intro ch front
    rcases closes with ends | ⟨after, rfl, -⟩
    · exact .inl (ends ch front)
    · exact .inr (Option.some.inj front).symm
  obtain ⟨left, closing⟩ := prefers_closing closes [(1, value)]
  exact ⟨left, ((prefers_plain plain stop []).group 1).seq closing⟩

private theorem usernameArgument_of_prefers {typed s left value : WString} {separator : WChar}
    (spelled : Spells LoginOption.username.name typed) (separated : separator ∈ wide ":=")
    (found : Prefers usernameValue s [] (left, [(1, value)])) :
    usernameArgument (typed ++ separator :: s) = some value := by
  rw [usernameArgument, usernameRegex_split, search_here spelled separated found]
  rfl

section Username

variable {typed value rest : WString} {separator : WChar}

private theorem usernameArgument_quoted (spelled : Spells LoginOption.username.name typed)
    (separated : separator ∈ wide ":=") (plain : Plain value) (closes : Closes rest) :
    usernameArgument (typed ++ separator :: quote :: (value ++ rest)) = some value := by
  obtain ⟨left, found⟩ := prefers_username plain closes
  have opening : Prefers (literal "\"").optional (quote :: (value ++ rest)) []
      (value ++ rest, []) := (prefers_quote _ []).left
  exact usernameArgument_of_prefers spelled separated (opening.seq found)

theorem usernameArgument_bare (spelled : Spells LoginOption.username.name typed)
    (separated : separator ∈ wide ":=") (plain : Plain value) (closes : Closes rest) :
    usernameArgument (typed ++ separator :: (value ++ rest)) = some value := by
  by_cases opens : ∃ after, value ++ rest = quote :: after
  · -- A quote right behind the separator is taken for an opening one, even if it closes.
    obtain ⟨after, text⟩ := opens
    cases value with
    | cons ch value =>
      obtain rfl : ch = quote := (List.cons_eq_cons.mp text).1
      exact absurd List.mem_cons_self plain.2
    | nil =>
      rcases closes with ends | ⟨beyond, rfl, ends⟩
      · rw [List.nil_append] at text
        exact absurd rfl (ends.not_quote quote (by rw [text]; rfl))
      · exact usernameArgument_quoted spelled separated plain (.inl ends)
  · have noQuote : ∀ ch ∈ (value ++ rest).head?, ch ≠ quote := by
      rintro ch front rfl
      obtain ⟨after, text⟩ := List.head?_eq_some_iff.mp front
      exact opens ⟨after, text⟩
    have opening : Prefers (literal "\"").optional (value ++ rest) [] (value ++ rest, []) :=
      Prefers.right (ways_quote_stuck noQuote []) (prefers_epsilon _ [])
    obtain ⟨left, found⟩ := prefers_username plain closes
    exact usernameArgument_of_prefers spelled separated (opening.seq found)

end Username

theorem usernameArgument_typed (o : TypedOption .username) (plain : blank ∉ o.value)
    {after : WString} (ends : Ends after) : usernameArgument (o.text ++ after) = some o.value := by
  have value : Plain o.value := ⟨plain, o.unquoted⟩
  rw [TypedOption.text, TypedOption.written, List.append_assoc, List.cons_append]
  split
  · rw [List.cons_append, List.cons_append, List.append_assoc, List.singleton_append]
    exact usernameArgument_quoted o.spelled o.separated value (.inr ⟨after, rfl, ends⟩)
  · exact usernameArgument_bare o.spelled o.separated value (.inl ends)

private theorem prefers_password {value after : WString} (unquoted : quote ∉ value) :
    Prefers quotedPassword (quote :: (value ++ quote :: after)) [] (after, [(1, value)]) := by
  have excluded : wide "\"" = [quote] := rfl
  have inside : Prefers (.star (noneOf "\"")) (value ++ quote :: after) []
      (quote :: after, []) := by
    apply prefers_class []
    · intro ch member
      have notQuote : ch ≠ quote := fun same => unquoted (same ▸ member)
      simp [excluded, notQuote]
    · intro ch front
      obtain rfl : quote = ch := Option.some.inj front
      simp [excluded]
  have closing := (prefers_quote after [(1, value)]).seq (prefers_epsilon after [(1, value)])
  exact (prefers_quote _ []).seq ((inside.group 1).seq closing)

theorem passwordArgument_typed (o : TypedOption .password) {after : WString}
    (ends : Ends after) : passwordArgument (o.text ++ after) = some o.value := by
  have closing (c : Captures WChar) : Prefers (.seq switchEnd .epsilon) after c (after.tail, c) :=
    (prefers_switchEnd ends c).seq (prefers_epsilon _ c)
  rw [TypedOption.text, TypedOption.written, List.append_assoc, List.cons_append,
    passwordArgument, passwordRegex_split]
  split
  · rw [List.cons_append, List.cons_append, List.append_assoc, List.singleton_append]
    have found : Prefers passwordValue (quote :: (o.value ++ quote :: after)) []
        (after.tail, [(1, o.value)]) := (prefers_password o.unquoted).left.seq (closing _)
    rw [search_here o.spelled o.separated found]
    rfl
  · rename_i bareText
    have plain : Plain o.value := ⟨o.bare (by simpa using bareText), o.unquoted⟩
    have stop : ∀ ch ∈ after.head?, ch = blank ∨ ch = quote := fun ch front =>
      .inl (ends ch front)
    have unopened : ways quotedPassword (o.value ++ after) [] = [] :=
      ways_seq_stuck _ (ways_quote_stuck (plain.not_quote ends) [])
    have text := (prefers_plain plain stop []).group 2
    have found : Prefers passwordValue (o.value ++ after) [] (after.tail, [(2, o.value)]) :=
      (Prefers.right unopened text).seq (closing _)
    rw [search_here o.spelled o.separated found]
    rfl

end LoginHelper.LoginOptions
