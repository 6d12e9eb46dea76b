/- Unit: LoginHelper/CommandLine
   source: the regular expressions of LoginOtp.h, Lobby.h and dllmain.cpp
   digest: The switches looked for in the command line, and what they capture. -/

import LoginHelper.Foundation.OrderedRegex
import LoginHelper.Windows.Runtime

set_option autoImplicit false
set_option relaxedAutoImplicit false

namespace LoginHelper.CommandLine

open LoginHelper.Foundation.OrderedRegex
open LoginHelper.Windows.ProcessEnvironment
open LoginHelper.Windows.Runtime (isDigit)

/-- `std::regex_constants::icase`: both sides of a comparison are put in lower case. -/
def foldCase (c : WChar) : WChar := if 65 ≤ c ∧ c ≤ 90 then c + 32 else c

def literal (text : String) : Regex WChar :=
  .sequence ((wide text).map fun ch => .char fun c => foldCase c == foldCase ch)

def oneOf (text : String) : Regex WChar := .char fun c => (wide text).contains c

def noneOf (text : String) : Regex WChar := .char fun c => !(wide text).contains c

/-- `(?:$| )` -/
def switchEnd : Regex WChar := .alt .endOfInput (literal " ")

/-- ` -PIN[:=]"?([0-9]{6})"?(?:$| )` -/
def pinRegex : Regex WChar :=
  .sequence [literal " -PIN", oneOf ":=", (literal "\"").optional,
    .group 1 ((Regex.char isDigit).times 6), (literal "\"").optional, switchEnd]

/-- ` -USERNAME[:=]"?([^ "]*)"?(?:$| )` -/
def usernameRegex : Regex WChar :=
  .sequence [literal " -USERNAME", oneOf ":=", (literal "\"").optional,
    .group 1 (.star (noneOf " \"")), (literal "\"").optional, switchEnd]

/-- ` -PASSWORD[:=](?:"([^"]*)"|([^ "]*))(?:$| )` -/
def passwordRegex : Regex WChar :=
  .sequence [literal " -PASSWORD", oneOf ":=",
    .alt (.sequence [literal "\"", .group 1 (.star (noneOf "\"")), literal "\""])
      (.group 2 (.star (noneOf " \""))),
    switchEnd]

/-- ` -KEEPPIN(?:$| )` -/
def keepPinRegex : Regex WChar := .sequence [literal " -KEEPPIN", switchEnd]

/-- ` -FIXPROGRAMID(?:$| )` -/
def fixProgramIdRegex : Regex WChar := .sequence [literal " -FIXPROGRAMID", switchEnd]

/-- `matches[index].str()`, empty for a group that took no part. -/
def submatch (m : Captures WChar) (index : Nat) : WString := (captured m index).getD []

/-- The text of `-PIN`. -/
def pinArgument (args : WString) : Option WString :=
  (regexSearch pinRegex args).map fun m => submatch m 1

/-- The text of `-USERNAME`. -/
def usernameArgument (args : WString) : Option WString :=
  (regexSearch usernameRegex args).map fun m => submatch m 1

/-- The text of `-PASSWORD`, unquoted if the second group took part. -/
def passwordArgument (args : WString) : Option WString :=
  (regexSearch passwordRegex args).map fun m =>
    if (captured m 2).isSome then submatch m 2 else submatch m 1

def hasSwitch (switch : Regex WChar) (args : WString) : Bool := (regexSearch switch args).isSome

private theorem literal_groups (P : Nat → WString → Prop) (text : String) :
    GroupsCapture P (literal text) := by
  unfold literal
  induction wide text with
  | nil => exact trivial
  | cons c s ih => exact ⟨trivial, ih⟩

theorem pinArgument_digits {args text : WString} (found : pinArgument args = some text) :
    text.length = 6 ∧ ∀ c ∈ text, isDigit c = true := by
  obtain ⟨m, hm, rfl⟩ := Option.map_eq_some_iff.mp found
  have digits : GroupsCapture
      (fun _ (t : WString) => t.length = 6 ∧ ∀ c ∈ t, isDigit c = true) pinRegex := by
    refine ⟨literal_groups _ _, trivial, ⟨literal_groups _ _, trivial⟩, ⟨?_, ?_⟩,
      ⟨literal_groups _ _, trivial⟩, ⟨trivial, literal_groups _ _⟩, trivial⟩
    · exact ⟨trivial, trivial, trivial, trivial, trivial, trivial, trivial⟩
    · intro s c x hx
      obtain ⟨t, rfl, length, all⟩ := ways_times_char isDigit 6 s c x hx
      rw [List.length_append, Nat.add_sub_cancel, List.take_left]
      exact ⟨length, all⟩
  have always : Always 1 pinRegex := .inr (.inr (.inr (.inl (.inl rfl))))
  obtain ⟨t, ht⟩ := Option.isSome_iff_exists.mp (regexSearch_always always hm)
  rw [submatch, ht]
  exact regexSearch_captured digits hm ht

example : pinArgument (wide "Client.exe -pin:012345 -x") = some (wide "012345") := by decide

end LoginHelper.CommandLine
