/- Unit: LoginHelper/CommandLineArguments
   source: the regular expressions of LoginOtp.h, Lobby.h and dllmain.cpp
   digest: What each expression reads off a command line, whatever the line, without an expression. -/

import LoginHelper.Foundation.RegexPlaces
import LoginHelper.LoginOptions

set_option autoImplicit false
set_option relaxedAutoImplicit false

namespace LoginHelper.CommandLineArguments

open LoginHelper.Foundation.OrderedRegex LoginHelper.Foundation.RegexPlaces
open LoginHelper.Windows.ProcessEnvironment
open LoginHelper.Windows.Runtime (isDigit)
open LoginHelper.CommandLine LoginHelper.LoginOptions

def Named (name : String) (s behind : WString) : Prop :=
  ∃ typed separator, s = typed ++ separator :: behind ∧ Spells name typed ∧ separator ∈ wide ":="

def OptionalQuote (s : WString) : Prop := s = [] ∨ s = [quote]

/-- A PIN of six digits, with or without a quote on either side. -/
def PinAt (s pin : WString) : Prop :=
  ∃ opening closing rest, Named " -PIN" s (opening ++ (pin ++ (closing ++ rest))) ∧
    OptionalQuote opening ∧ OptionalQuote closing ∧
      pin.length = 6 ∧ (∀ c ∈ pin, isDigit c = true) ∧ Ends rest

/-- A user name without blanks and quotes, with or without a quote on either side. -/
def UsernameAt (s account : WString) : Prop :=
  ∃ opening closing rest, Named " -USERNAME" s (opening ++ (account ++ (closing ++ rest))) ∧
    OptionalQuote opening ∧ OptionalQuote closing ∧ Plain account ∧ Ends rest

/-- A password between quotes, or one without blanks and quotes. -/
def PasswordAt (s password : WString) : Prop :=
  ∃ behind rest, Named " -PASSWORD" s behind ∧ Ends rest ∧
    (quote ∉ password ∧ behind = quote :: (password ++ quote :: rest) ∨
      Plain password ∧ behind = password ++ rest)

/-- The switch stands in the line as a word of its own. -/
def HasWord (name : String) (line : WString) : Prop :=
  ∃ front typed rest, line = front ++ (typed ++ rest) ∧ Spells name typed ∧ Ends rest

section Parts

variable {text rest s : WString} {c c' : Captures WChar}

private theorem takes_literal {wanted : String} :
    Takes (literal wanted) text rest c c' ↔ Spells wanted text ∧ c' = c :=
  takes_keyed foldCase

private theorem spells_mark {mark : String} {d : WChar} (one : wide mark = [d])
    (folded : foldCase d = d) (below : d < 97) : Spells mark text ↔ text = [d] := by
  rw [Spells, one, List.map_singleton, folded]
  constructor
  · intro spelled
    obtain ⟨ch, rfl, folds⟩ := List.map_eq_singleton_iff.mp spelled
    rw [foldCase_unletter below folds]
  · rintro rfl
    rw [List.map_singleton, folded]

private theorem takes_quote :
    Takes (literal "\"").optional text rest c c' ↔ OptionalQuote text ∧ c' = c := by
  rw [takes_optional, takes_literal, spells_mark (d := quote) rfl rfl (by decide), OptionalQuote,
    ← or_and_right, or_comm]

private theorem takes_noneOf {excluded : String} : Takes (.star (noneOf excluded)) text rest c c' ↔
    (∀ ch ∈ text, ch ∉ wide excluded) ∧ c' = c := by
  rw [noneOf, takes_class]
  simp

private theorem takes_unquoted :
    Takes (.star (noneOf "\"")) text rest c c' ↔ quote ∉ text ∧ c' = c := by
  have marks : wide "\"" = [quote] := rfl
  rw [takes_noneOf, marks]
  refine and_congr_left' ⟨fun clear member => clear quote member (List.mem_singleton_self _), ?_⟩
  rintro clear ch member
  rw [List.mem_singleton]
  rintro rfl
  exact clear member

private theorem takes_plain :
    Takes (.star (noneOf " \"")) text rest c c' ↔ Plain text ∧ c' = c := by
  have marks : wide " \"" = [blank, quote] := rfl
  rw [takes_noneOf, marks]
  refine and_congr_left' ⟨fun clear => ⟨fun member => clear blank member (by simp),
    fun member => clear quote member (by simp)⟩, ?_⟩
  rintro plain ch member listed
  rcases List.mem_pair.mp listed with rfl | rfl
  · exact plain.1 member
  · exact plain.2 member

private theorem matchesFront_switchEnd :
    MatchesFront (.seq switchEnd .epsilon) s c c' ↔ Ends s ∧ c' = c := by
  rw [matchesFront_seq]
  constructor
  · rintro ⟨text, rest, between, rfl, takes, final⟩
    obtain rfl := matchesFront_epsilon.mp final
    rcases takes_alt.mp takes with atEnd | separated
    · obtain ⟨rfl, rfl, same⟩ := takes_endOfInput.mp atEnd
      exact ⟨ends_nil, same⟩
    · obtain ⟨spelled, same⟩ := takes_literal.mp separated
      obtain rfl := (spells_mark (d := blank) rfl rfl (by decide)).mp spelled
      exact ⟨ends_blank rest, same⟩
  · rintro ⟨ends, rfl⟩
    cases s with
    | nil =>
      exact ⟨[], [], c', rfl, takes_alt.mpr (.inl (takes_endOfInput.mpr ⟨rfl, rfl, rfl⟩)),
        matchesFront_epsilon.mpr rfl⟩
    | cons b s =>
      obtain rfl : b = blank := ends b rfl
      have takes : Takes (literal " ") [blank] s c' c' := takes_literal.mpr ⟨rfl, rfl⟩
      exact ⟨[blank], s, c', rfl, takes_alt.mpr (.inr takes), matchesFront_epsilon.mpr rfl⟩

private theorem matchesFront_named {name : String} {r : Regex WChar} :
    MatchesFront (.seq (literal name) (.seq (oneOf ":=") r)) s c c' ↔
      ∃ behind, Named name s behind ∧ MatchesFront r behind c c' := by
  rw [matchesFront_seq]
  constructor
  · rintro ⟨typed, after, _, rfl, name, chain⟩
    obtain ⟨spelled, rfl⟩ := takes_literal.mp name
    obtain ⟨_, behind, _, rfl, separated, value⟩ := matchesFront_seq.mp chain
    obtain ⟨separator, rfl, separates, rfl⟩ := takes_char.mp separated
    exact ⟨behind, ⟨typed, separator, rfl, spelled, List.contains_iff_mem.mp separates⟩, value⟩
  · rintro ⟨behind, ⟨typed, separator, rfl, spelled, separates⟩, value⟩
    refine ⟨typed, separator :: behind, c, rfl, takes_literal.mpr ⟨spelled, rfl⟩, ?_⟩
    exact matchesFront_seq.mpr ⟨[separator], behind, c, rfl,
      takes_char.mpr ⟨separator, rfl, List.contains_iff_mem.mpr separates, rfl⟩, value⟩

end Parts

section Options

variable {s : WString} {c : Captures WChar}

private theorem matchesFront_value {r : Regex WChar} {P : WString → Prop}
    (takes : ∀ text rest c c', Takes r text rest c c' ↔ P text ∧ c' = c) :
    MatchesFront (.seq (literal "\"").optional (.seq (.group 1 r)
        (.seq (literal "\"").optional (.seq switchEnd .epsilon)))) s [] c ↔
      ∃ opening value closing rest, s = opening ++ (value ++ (closing ++ rest)) ∧
        OptionalQuote opening ∧ OptionalQuote closing ∧ P value ∧ Ends rest ∧
          c = [(1, value)] := by
  rw [matchesFront_seq]
  constructor
  · rintro ⟨opening, _, _, rfl, opened, chain⟩
    obtain ⟨opens, rfl⟩ := takes_quote.mp opened
    obtain ⟨value, _, _, rfl, group, chain⟩ := matchesFront_seq.mp chain
    obtain ⟨inner, body, rfl⟩ := takes_group.mp group
    obtain ⟨holds, rfl⟩ := (takes ..).mp body
    obtain ⟨closing, rest, _, rfl, closed, final⟩ := matchesFront_seq.mp chain
    obtain ⟨closes, rfl⟩ := takes_quote.mp closed
    obtain ⟨ends, rfl⟩ := matchesFront_switchEnd.mp final
    exact ⟨opening, value, closing, rest, rfl, opens, closes, holds, ends, rfl⟩
  · rintro ⟨opening, value, closing, rest, rfl, opens, closes, holds, ends, rfl⟩
    refine ⟨opening, _, [], rfl, takes_quote.mpr ⟨opens, rfl⟩, ?_⟩
    refine matchesFront_seq.mpr ⟨value, _, [(1, value)], rfl,
      takes_group.mpr ⟨[], (takes ..).mpr ⟨holds, rfl⟩, rfl⟩, ?_⟩
    exact matchesFront_seq.mpr ⟨closing, rest, _, rfl, takes_quote.mpr ⟨closes, rfl⟩,
      matchesFront_switchEnd.mpr ⟨ends, rfl⟩⟩

private theorem pinAt_iff (pin : WString) :
    PinAt s pin ↔ ∃ c, MatchesFront pinRegex s [] c ∧ submatch c 1 = pin := by
  have digits (text rest : WString) (c c' : Captures WChar) :
      Takes ((Regex.char isDigit).times 6) text rest c c' ↔
        (text.length = 6 ∧ ∀ ch ∈ text, isDigit ch = true) ∧ c' = c :=
    (takes_times_class 6).trans and_assoc.symm
  have value {s : WString} {c : Captures WChar} := matchesFront_value (s := s) (c := c) digits
  constructor
  · rintro ⟨opening, closing, rest, named, opens, closes, six, digits, ends⟩
    refine ⟨[(1, pin)], matchesFront_named.mpr ⟨_, named, value.mpr ?_⟩, rfl⟩
    exact ⟨opening, pin, closing, rest, rfl, opens, closes, ⟨six, digits⟩, ends, rfl⟩
  · rintro ⟨c, matched, rfl⟩
    obtain ⟨behind, named, matched⟩ := matchesFront_named.mp matched
    obtain ⟨opening, pin, closing, rest, rfl, opens, closes, ⟨six, digits⟩, ends, rfl⟩ :=
      value.mp matched
    exact ⟨opening, closing, rest, named, opens, closes, six, digits, ends⟩

private theorem usernameAt_iff (account : WString) :
    UsernameAt s account ↔ ∃ c, MatchesFront usernameRegex s [] c ∧ submatch c 1 = account := by
  have value {s : WString} {c : Captures WChar} :=
    matchesFront_value (s := s) (c := c) fun text rest c c' => takes_plain
  constructor
  · rintro ⟨opening, closing, rest, named, opens, closes, plain, ends⟩
    refine ⟨[(1, account)], matchesFront_named.mpr ⟨_, named, value.mpr ?_⟩, rfl⟩
    exact ⟨opening, account, closing, rest, rfl, opens, closes, plain, ends, rfl⟩
  · rintro ⟨c, matched, rfl⟩
    obtain ⟨behind, named, matched⟩ := matchesFront_named.mp matched
    obtain ⟨opening, account, closing, rest, rfl, opens, closes, plain, ends, rfl⟩ :=
      value.mp matched
    exact ⟨opening, closing, rest, named, opens, closes, plain, ends⟩

private theorem takes_quotedPassword {text rest : WString} :
    Takes quotedPassword text rest [] c ↔
      ∃ password, quote ∉ password ∧ text = quote :: (password ++ [quote]) ∧
        c = [(1, password)] := by
  have mark {text rest : WString} {c c' : Captures WChar} :
      Takes (literal "\"") text rest c c' ↔ text = [quote] ∧ c' = c := by
    rw [takes_literal, spells_mark (d := quote) rfl rfl (by decide)]
  constructor
  · intro takes
    obtain ⟨_, _, _, rfl, opened, takes⟩ := takes_seq.mp takes
    obtain ⟨rfl, rfl⟩ := mark.mp opened
    obtain ⟨password, _, _, rfl, group, takes⟩ := takes_seq.mp takes
    obtain ⟨inner, body, rfl⟩ := takes_group.mp group
    obtain ⟨unquoted, rfl⟩ := takes_unquoted.mp body
    obtain ⟨_, _, _, rfl, closed, final⟩ := takes_seq.mp takes
    obtain ⟨rfl, rfl⟩ := mark.mp closed
    obtain ⟨rfl, rfl⟩ := takes_epsilon.mp final
    exact ⟨password, unquoted, rfl, rfl⟩
  · rintro ⟨password, unquoted, rfl, rfl⟩
    refine takes_seq.mpr ⟨[quote], password ++ [quote], [], rfl, mark.mpr ⟨rfl, rfl⟩, ?_⟩
    refine takes_seq.mpr ⟨password, [quote], [(1, password)], rfl,
      takes_group.mpr ⟨[], takes_unquoted.mpr ⟨unquoted, rfl⟩, rfl⟩, ?_⟩
    exact takes_seq.mpr ⟨[quote], [], _, rfl, mark.mpr ⟨rfl, rfl⟩, takes_epsilon.mpr ⟨rfl, rfl⟩⟩

private theorem matchesFront_password : MatchesFront passwordValue s [] c ↔
    ∃ password rest, Ends rest ∧
      (quote ∉ password ∧ s = quote :: (password ++ quote :: rest) ∧ c = [(1, password)] ∨
        Plain password ∧ s = password ++ rest ∧ c = [(2, password)]) := by
  rw [passwordValue, matchesFront_seq]
  constructor
  · rintro ⟨text, rest, between, rfl, takes, final⟩
    obtain ⟨ends, rfl⟩ := matchesFront_switchEnd.mp final
    rcases takes_alt.mp takes with quoted | bare
    · obtain ⟨password, unquoted, rfl, rfl⟩ := takes_quotedPassword.mp quoted
      exact ⟨password, rest, ends, .inl ⟨unquoted, by simp, rfl⟩⟩
    · obtain ⟨inner, body, rfl⟩ := takes_group.mp bare
      obtain ⟨plain, rfl⟩ := takes_plain.mp body
      exact ⟨text, rest, ends, .inr ⟨plain, rfl, rfl⟩⟩
  · rintro ⟨password, rest, ends, ⟨unquoted, rfl, rfl⟩ | ⟨plain, rfl, rfl⟩⟩
    · refine ⟨quote :: (password ++ [quote]), rest, [(1, password)], by simp, ?_,
        matchesFront_switchEnd.mpr ⟨ends, rfl⟩⟩
      exact takes_alt.mpr (.inl (takes_quotedPassword.mpr ⟨password, unquoted, rfl, rfl⟩))
    · refine ⟨password, rest, [(2, password)], rfl, ?_, matchesFront_switchEnd.mpr ⟨ends, rfl⟩⟩
      exact takes_alt.mpr (.inr (takes_group.mpr ⟨[], takes_plain.mpr ⟨plain, rfl⟩, rfl⟩))

private theorem passwordAt_iff (password : WString) :
    PasswordAt s password ↔ ∃ c, MatchesFront passwordRegex s [] c ∧
      (if (captured c 2).isSome then submatch c 2 else submatch c 1) = password := by
  constructor
  · rintro ⟨behind, rest, named, ends, ⟨unquoted, split⟩ | ⟨plain, split⟩⟩
    · exact ⟨[(1, password)], matchesFront_named.mpr ⟨behind, named,
        matchesFront_password.mpr ⟨password, rest, ends, .inl ⟨unquoted, split, rfl⟩⟩⟩, rfl⟩
    · exact ⟨[(2, password)], matchesFront_named.mpr ⟨behind, named,
        matchesFront_password.mpr ⟨password, rest, ends, .inr ⟨plain, split, rfl⟩⟩⟩, rfl⟩
  · rintro ⟨c, matched, rfl⟩
    obtain ⟨behind, named, matched⟩ := matchesFront_named.mp matched
    obtain ⟨password, rest, ends, ⟨unquoted, split, rfl⟩ | ⟨plain, split, rfl⟩⟩ :=
      matchesFront_password.mp matched
    · exact ⟨behind, rest, named, ends, .inl ⟨unquoted, split⟩⟩
    · exact ⟨behind, rest, named, ends, .inr ⟨plain, split⟩⟩

end Options

private theorem cut_unique {p : WChar → Prop} {a b rest after : WString}
    (same : a ++ rest = b ++ after) (here : ∀ ch ∈ a, p ch) (there : ∀ ch ∈ b, p ch)
    (stop : ∀ ch ∈ rest.head?, ¬ p ch) (stop' : ∀ ch ∈ after.head?, ¬ p ch) : a = b := by
  induction a generalizing b with
  | nil =>
    cases b with
    | nil => rfl
    | cons ch b =>
      obtain rfl : rest = ch :: (b ++ after) := same
      exact absurd (there ch List.mem_cons_self) (stop ch rfl)
  | cons ch a ih =>
    cases b with
    | nil =>
      obtain rfl : ch :: (a ++ rest) = after := same
      exact absurd (here ch List.mem_cons_self) (stop' ch rfl)
    | cons ch' b =>
      obtain ⟨rfl, tail⟩ := List.cons_eq_cons.mp same
      rw [ih tail (fun x member => here x (List.mem_cons_of_mem _ member))
        fun x member => there x (List.mem_cons_of_mem _ member)]

private theorem named_unique {name : String} {s behind behind' : WString}
    (named : Named name s behind) (named' : Named name s behind') : behind = behind' := by
  obtain ⟨typed, separator, split, spelled, -⟩ := named
  obtain ⟨typed', separator', split', spelled', -⟩ := named'
  have length : typed.length = typed'.length := by
    have same := congrArg List.length (spelled.trans spelled'.symm)
    rwa [List.length_map, List.length_map] at same
  have tail := (List.append_inj (split.symm.trans split') length).2
  exact (List.cons_eq_cons.mp tail).2

private theorem pinAt_unique (s pin other : WString) (at_pin : PinAt s pin)
    (at_other : PinAt s other) : pin = other := by
  obtain ⟨opening, closing, rest, named, opens, -, six, digits, -⟩ := at_pin
  obtain ⟨opening', closing', rest', named', opens', -, six', digits', -⟩ := at_other
  have split := named_unique named named'
  -- no digit is a quote
  have front {text : WString} (length : text.length = 6) (all : ∀ c ∈ text, isDigit c = true)
      {behind behind' : WString} : text ++ behind ≠ quote :: behind' := by
    intro same
    cases text with
    | nil => cases length
    | cons c text =>
      obtain rfl : c = quote := (List.cons_eq_cons.mp same).1
      exact absurd (all _ List.mem_cons_self) (by decide)
  rcases opens with rfl | rfl
  · rcases opens' with rfl | rfl
    · have same : pin ++ (closing ++ rest) = other ++ (closing' ++ rest') := split
      exact (List.append_inj same (six.trans six'.symm)).1
    · exact absurd split (front six digits)
  · rcases opens' with rfl | rfl
    · exact absurd split.symm (front six' digits')
    · have same : pin ++ (closing ++ rest) = other ++ (closing' ++ rest') :=
        (List.cons_eq_cons.mp split).2
      exact (List.append_inj same (six.trans six'.symm)).1

private theorem plain_stop {closing rest : WString} (closes : OptionalQuote closing)
    (ends : Ends rest) : ∀ ch ∈ (closing ++ rest).head?, ¬ (ch ≠ blank ∧ ch ≠ quote) := by
  rintro ch front ⟨notBlank, notQuote⟩
  rcases closes with rfl | rfl
  · exact notBlank (ends ch front)
  · exact notQuote (Option.some.inj front).symm

private theorem plain_all {s : WString} (plain : Plain s) :
    ∀ ch ∈ s, ch ≠ blank ∧ ch ≠ quote := by
  intro ch member
  constructor
  · rintro rfl
    exact plain.1 member
  · rintro rfl
    exact plain.2 member

private theorem plain_behind_quote {value value' tail closing rest : WString}
    (plain : Plain value) (closes : OptionalQuote closing) (ends : Ends rest)
    (plain' : Plain value') (same : value ++ (closing ++ rest) = quote :: (value' ++ tail)) :
    value = value' := by
  cases value with
  | cons ch value =>
    obtain rfl : ch = quote := (List.cons_eq_cons.mp same).1
    exact absurd List.mem_cons_self plain.2
  | nil =>
    rcases closes with rfl | rfl
    · obtain rfl : rest = quote :: (value' ++ tail) := same
      exact absurd (ends quote rfl) (by decide)
    · obtain rfl : rest = value' ++ tail := (List.cons_eq_cons.mp same).2
      cases value' with
      | nil => rfl
      | cons ch value' =>
        obtain rfl : ch = blank := ends ch rfl
        exact absurd List.mem_cons_self plain'.1

private theorem usernameAt_unique (s account other : WString) (at_account : UsernameAt s account)
    (at_other : UsernameAt s other) : account = other := by
  obtain ⟨opening, closing, rest, named, opens, closes, plain, ends⟩ := at_account
  obtain ⟨opening', closing', rest', named', opens', closes', plain', ends'⟩ := at_other
  have split := named_unique named named'
  have cut (same : account ++ (closing ++ rest) = other ++ (closing' ++ rest')) :
      account = other :=
    cut_unique same (plain_all plain) (plain_all plain') (plain_stop closes ends) (plain_stop closes' ends')
  rcases opens with rfl | rfl
  · rcases opens' with rfl | rfl
    · exact cut split
    · exact plain_behind_quote plain closes ends plain' split
  · rcases opens' with rfl | rfl
    · exact (plain_behind_quote plain' closes' ends' plain split.symm).symm
    · exact cut (List.cons_eq_cons.mp split).2

private theorem passwordAt_unique (s password other : WString)
    (at_password : PasswordAt s password) (at_other : PasswordAt s other) : password = other := by
  obtain ⟨behind, rest, named, ends, written⟩ := at_password
  obtain ⟨behind', rest', named', ends', written'⟩ := at_other
  obtain rfl := named_unique named named'
  -- a quote at the front is neither part of a bare password nor what follows one
  have quoted {bare rest tail : WString} (plain : Plain bare) (ends : Ends rest) :
      quote :: tail ≠ bare ++ rest := by
    intro same
    cases bare with
    | nil =>
      obtain rfl : quote :: tail = rest := same
      exact absurd (ends quote rfl) (by decide)
    | cons ch bare =>
      obtain rfl : quote = ch := (List.cons_eq_cons.mp same).1
      exact plain.2 List.mem_cons_self
  have clear {text : WString} (unquoted : quote ∉ text) : ∀ ch ∈ text, ch ≠ quote := by
    rintro ch member rfl
    exact unquoted member
  have stop (rest : WString) : ∀ ch ∈ (quote :: rest).head?, ¬ ch ≠ quote := by
    intro ch front
    exact not_not.mpr (Option.some.inj front).symm
  rcases written with ⟨unquoted, rfl⟩ | ⟨plain, rfl⟩
  · rcases written' with ⟨unquoted', split⟩ | ⟨plain', split⟩
    · exact cut_unique (List.cons_eq_cons.mp split).2 (clear unquoted) (clear unquoted')
        (stop rest) (stop rest')
    · exact absurd split (quoted plain' ends')
  · rcases written' with ⟨unquoted', split⟩ | ⟨plain', split⟩
    · exact absurd split.symm (quoted plain ends)
    · exact cut_unique split (plain_all plain) (plain_all plain') (plain_stop (.inl rfl) ends)
        (plain_stop (.inl rfl) ends')

theorem hasSwitch_iff {name : String} (line : WString) :
    hasSwitch (.sequence [literal name, switchEnd]) line = true ↔ HasWord name line := by
  let At (s : WString) (_ : Unit) : Prop :=
    ∃ typed rest, s = typed ++ rest ∧ Spells name typed ∧ Ends rest
  have places (s : WString) (value : Unit) : At s value ↔
      ∃ c, MatchesFront (.sequence [literal name, switchEnd]) s [] c ∧ () = value := by
    constructor
    · rintro ⟨typed, rest, rfl, spelled, ends⟩
      refine ⟨[], matchesFront_seq.mpr ⟨typed, rest, [], rfl, ?_, ?_⟩, rfl⟩
      · exact takes_literal.mpr ⟨spelled, rfl⟩
      · exact matchesFront_switchEnd.mpr ⟨ends, rfl⟩
    · rintro ⟨c, matched, -⟩
      obtain ⟨typed, rest, _, rfl, spelled, final⟩ := matchesFront_seq.mp matched
      exact ⟨typed, rest, rfl, (takes_literal.mp spelled).1, (matchesFront_switchEnd.mp final).1⟩
  have first := regexSearch_reads places (fun _ _ _ _ _ => rfl) line ()
  rw [hasSwitch, ← Option.isSome_map (f := fun _ => ()), Option.isSome_iff_exists]
  constructor
  · rintro ⟨_, found⟩
    obtain ⟨front, back, _, rfl, typed, rest, rfl, spelled, ends⟩ :=
      exists_readAtFirst.mp ⟨(), first.mp found⟩
    exact ⟨front, typed, rest, rfl, spelled, ends⟩
  · rintro ⟨front, typed, rest, split, spelled, ends⟩
    have here : At (typed ++ rest) () := ⟨typed, rest, rfl, spelled, ends⟩
    obtain ⟨_, found⟩ := exists_readAtFirst.mpr ⟨front, typed ++ rest, (), split, here⟩
    exact ⟨(), first.mpr found⟩

/-- What the expressions find, in any line: each option is read off the first place where it
stands with a value, whose text is the only one possible there; and a switch is on if it stands
anywhere as a word of its own. -/
theorem arguments_exact (line : WString) :
    (∀ pin, pinArgument line = some pin ↔ ReadAtFirst PinAt line pin) ∧
    (∀ account, usernameArgument line = some account ↔ ReadAtFirst UsernameAt line account) ∧
    (∀ password, passwordArgument line = some password ↔
      ReadAtFirst PasswordAt line password) ∧
    (hasSwitch keepPinRegex line = true ↔ HasWord " -KEEPPIN" line) ∧
    (hasSwitch fixProgramIdRegex line = true ↔ HasWord " -FIXPROGRAMID" line) :=
  ⟨regexSearch_reads (fun _ => pinAt_iff) pinAt_unique line,
    regexSearch_reads (fun _ => usernameAt_iff) usernameAt_unique line,
    regexSearch_reads (fun _ => passwordAt_iff) passwordAt_unique line,
    hasSwitch_iff line, hasSwitch_iff line⟩

end LoginHelper.CommandLineArguments
