/- Unit: LoginHelper/Pe/LoadedModules
   source: include/pe/module.inl
   digest: The search for a loaded module by name, and which names it can be told. -/

import LoginHelper.Ntapi.SourceStrings

set_option autoImplicit false
set_option relaxedAutoImplicit false

namespace LoginHelper.Pe.LoadedModules

open LoginHelper.Foundation.Execution LoginHelper.Foundation.Loops
open LoginHelper.Ntapi.Strings LoginHelper.Ntapi.SourceStrings

/-- `LDR_DATA_TABLE_ENTRY`, as far as the search looks at it. -/
structure LoaderEntry where
  inMemoryOrderLinks : Nat
  dllBase : Nat
  baseDllName : Counted .wchar

/-- The process environment block, with its modules in load order. -/
structure Peb where
  imageBaseAddress : Nat
  inLoadOrderModuleList : List LoaderEntry

section Search

variable (P : Platform) (tolower : CharType.wchar.Value → CharType.wchar.Value)

/-- The entry at which the loop of `get_module` returns. -/
def findEntry (name : List CharType.wchar.Value) :
    List LoaderEntry → Comparing (Option LoaderEntry)
  | [] => pure none
  | module :: rest =>
    if module.inMemoryOrderLinks = 0 then findEntry name rest
    else do
      let other ← definedOr .outsideMemory (basicString (some name))
      if ← iequals P module.baseDllName.toBasicString other tolower then pure (some module)
      else findEntry name rest

/-- `get_module`, 0 being the null pointer. -/
def getModule (peb : Peb) (name : Option (List CharType.wchar.Value)) : Comparing Nat :=
  match name with
  | none => pure peb.imageBaseAddress
  | some name => do
    match ← findEntry P tolower name peb.inLoadOrderModuleList with
    | some module => pure module.dllBase
    | none => pure 0

end Search

/-- Two texts that `tolower` cannot tell apart. -/
def SameUpToCase (tolower : CharType.wchar.Value → CharType.wchar.Value)
    (text text' : List CharType.wchar.Value) : Prop :=
  List.Forall₂ (fun a b => tolower a = tolower b) text text'

/-- The base name of a module, as the loader keeps it. -/
def LoaderEntry.name (module : LoaderEntry) : List CharType.wchar.Value :=
  characters module.baseDllName.toBasicString

def MatchesWhole (source : SourceString .wchar) : Prop :=
  ∀ (P : Platform) (tolower : CharType.wchar.Value → CharType.wchar.Value) (peb : Peb)
    (before : List Read),
    Returns (getModule P tolower peb (some source.memory)) before fun address _ =>
      address = 0 ∨ ∃ module ∈ peb.inLoadOrderModuleList,
        module.dllBase = address ∧ SameUpToCase tolower module.name source.text

section Names

variable (P : Platform) (tolower : CharType.wchar.Value → CharType.wchar.Value)
variable (source : SourceString .wchar)

theorem iequals_entry (module : LoaderEntry) (before : List Read) :
    Returns (iequals P module.baseDllName.toBasicString (counted source).toBasicString tolower)
      before fun result log =>
        (result = true ↔
          SameUpToCase tolower module.name (characters (counted source).toBasicString)) ∧
        AddsWithin module.baseDllName (counted source) before log :=
  iequals_returns P module.baseDllName (counted source) before tolower

private theorem findEntry_returns (entries : List LoaderEntry) (before : List Read) :
    Returns (findEntry P tolower source.memory entries) before fun found _ =>
      ∀ module, found = some module → module ∈ entries ∧
        SameUpToCase tolower module.name (characters (counted source).toBasicString) := by
  induction entries generalizing before with
  | nil => exact returns_pure (by nofun)
  | cons entry rest ih =>
    have later (before : List Read) : Returns (findEntry P tolower source.memory rest) before
        fun found _ => ∀ module, found = some module → module ∈ entry :: rest ∧
          SameUpToCase tolower module.name (characters (counted source).toBasicString) := by
      apply (ih before).mono
      intro found log all module hit
      exact ⟨List.mem_cons_of_mem _ (all module hit).1, (all module hit).2⟩
    rw [findEntry]
    split
    case isTrue => exact later before
    case isFalse =>
      rw [basicString_source, definedOr_some]
      apply (iequals_entry P tolower source entry before).bind
      rintro result log ⟨decided, -⟩
      cases result with
      | true =>
        apply returns_pure
        rintro module ⟨⟩
        exact ⟨List.mem_cons_self, decided.mp rfl⟩
      | false => exact later log

private def namesake : LoaderEntry := ⟨1, 1, counted source⟩

private theorem sameUpToCase_refl (text : List CharType.wchar.Value) :
    SameUpToCase tolower text text := by
  rw [SameUpToCase, List.forall₂_same]
  exact fun _ _ => rfl

private theorem namesake_found (before : List Read) :
    Returns (getModule P tolower ⟨0, [namesake source]⟩ (some source.memory)) before
      fun address _ => address = 1 := by
  have found : Returns (findEntry P tolower source.memory [namesake source]) before
      fun found _ => found = some (namesake source) := by
    have initialized : (namesake source).inMemoryOrderLinks ≠ 0 := Nat.one_ne_zero
    rw [findEntry, if_neg initialized, basicString_source, definedOr_some]
    apply (iequals_entry P tolower source (namesake source) before).bind
    rintro result log ⟨decided, -⟩
    obtain rfl := decided.mpr (sameUpToCase_refl tolower _)
    exact returns_pure rfl
  apply found.bind
  rintro _ log rfl
  exact returns_pure rfl

private theorem matchesWhole_of_fits (fits : Fits source) : MatchesWhole source := by
  intro P tolower peb before
  have whole : characters (counted source).toBasicString = source.text :=
    (charactersAgree_iff source).mpr fits
  apply (findEntry_returns P tolower source peb.inLoadOrderModuleList before).bind
  intro found log hit
  cases found with
  | none => exact returns_pure (.inl rfl)
  | some module =>
    obtain ⟨loaded, same⟩ := hit module rfl
    rw [whole] at same
    exact returns_pure (.inr ⟨module, loaded, rfl, same⟩)

theorem matchesWhole_iff : MatchesWhole source ↔ Fits source := by
  refine ⟨?_, matchesWhole_of_fits source⟩
  intro whole
  obtain ⟨address, _, run, hit⟩ := whole .x64 id ⟨0, [namesake source]⟩ []
  obtain ⟨address', _, run', one⟩ := namesake_found .x64 id source []
  obtain ⟨rfl, -⟩ := Outcome.done.inj (run.symm.trans run')
  subst one
  obtain ⟨module, loaded, -, same⟩ := hit.resolve_left (by decide)
  obtain rfl := List.mem_singleton.mp loaded
  have lengths := same.length_eq
  rw [LoaderEntry.name, (namesake source).baseDllName.characters_length] at lengths
  exact (counted_count_iff source).mp lengths

end Names

/-- The counted string has the size and the characters of its source, and is empty when
the source is. -/
structure Denotes {T : CharType} (source : SourceString T) (s : BasicString T) : Prop where
  size : SizeAgrees source s
  characters : CharactersAgree source s
  empty : EmptyAgrees source s

/-- As the name of a module, a source of wide characters stands for all of them. -/
def NameAgrees : (T : CharType) → SourceString T → Prop
  | .char, _ => True
  | .wchar, source => MatchesWhole source

/-- The string built from the source denotes it, also when it is the name of a module. -/
def Law (T : CharType) (source : SourceString T) : Prop :=
  (∃ s, basicString (some source.memory) = some s ∧ Denotes source s) ∧ NameAgrees T source

private theorem nameAgrees_iff {T : CharType} (source : SourceString T) :
    NameAgrees T source ↔ (T = .wchar → Fits source) := by
  cases T with
  | char => exact iff_of_true trivial nofun
  | wchar => exact (matchesWhole_iff source).trans ⟨fun fits _ => fits, fun fits => fits rfl⟩

private theorem not_denotes {T : CharType} (source : SourceString T) :
    ¬ ∃ s, basicString (some source.memory) = some s ∧ Denotes source s := by
  rintro ⟨s, built, denotes⟩
  obtain rfl := Option.some.inj ((basicString_source source).symm.trans built)
  have fits : source.bytes < 65536 := (sizeAgrees_iff source).mp denotes.size
  obtain ⟨some, whole⟩ := (emptyAgrees_iff source).mp denotes.empty
  have characters : 0 < source.text.length := List.length_pos_of_ne_nil some
  have bytes : 0 < source.bytes := Nat.mul_pos characters T.size_pos
  exact absurd (Nat.le_of_dvd bytes whole) (Nat.not_le_of_lt fits)

/-- No source string meets the law: `empty` is inverted, and agrees with the source only
where the length field has wrapped to 0. Size, characters and name agree exactly when the
text fits. -/
theorem law_fails (T : CharType) (source : SourceString T) :
    ¬ Law T source ∧
      (∃ s, basicString (some source.memory) = some s ∧
        (SizeAgrees source s ↔ Fits source) ∧ (CharactersAgree source s ↔ Fits source) ∧
        (EmptyAgrees source s ↔ source.text ≠ [] ∧ 65536 ∣ source.bytes)) ∧
      (NameAgrees T source ↔ (T = .wchar → Fits source)) := by
  refine ⟨fun law => not_denotes source law.1, ?_, nameAgrees_iff source⟩
  exact ⟨_, basicString_source source, sizeAgrees_iff source, charactersAgree_iff source,
    emptyAgrees_iff source⟩

private theorem ntdll_noNul :
    (0 : CharType.wchar.Value) ∉ ([110, 116, 100, 108, 108] : List CharType.wchar.Value) := by
  decide

/-- `L"ntdll"` -/
def ntdll : SourceString .wchar := ⟨[110, 116, 100, 108, 108], [], ntdll_noNul⟩

/-- `ntdll` is not empty, and its counted string says it is. -/
theorem law_fails_ntdll : ¬ Law .wchar ntdll := by
  rintro ⟨⟨s, built, denotes⟩, -⟩
  have constructed : basicString (some ntdll.memory) = some ⟨10, 10, some ntdll.memory⟩ := rfl
  obtain rfl := Option.some.inj (constructed.symm.trans built)
  have none : ntdll.text = [] := denotes.empty.mp (by decide)
  cases none

end LoginHelper.Pe.LoadedModules
