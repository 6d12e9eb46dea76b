/- Unit: LoginHelper/Pe/ModuleNames
   source: include/pe/module.inl
   digest: The names of a loaded module, and finding the module again by its name. -/

import LoginHelper.Pe.LoadedModules

set_option autoImplicit false
set_option relaxedAutoImplicit false

namespace LoginHelper.Pe.ModuleNames

open LoginHelper.Foundation.Execution LoginHelper.Foundation.Loops
open LoginHelper.Ntapi.Strings LoginHelper.Ntapi.SourceStrings
open LoginHelper.Pe.LoadedModules

/-- `LDR_DATA_TABLE_ENTRY` with both of its names. -/
structure NamedEntry extends LoaderEntry where
  fullDllName : Counted .wchar

/-- `std::wstring(name.Buffer, name.Length / sizeof(wchar_t))` -/
def wstring (name : BasicString .wchar) : List CharType.wchar.Value :=
  (memory name).take ((sizeBytes name).toNat / CharType.wchar.size)

/-- The loop over the loader's list that `base_name` and `full_name` have in common. -/
def nameAt (name : NamedEntry → BasicString .wchar) (this : Nat) :
    List NamedEntry → List CharType.wchar.Value
  | [] => []
  | module :: rest => if module.dllBase = this then wstring (name module) else nameAt name this rest

def baseName : Nat → List NamedEntry → List CharType.wchar.Value :=
  nameAt fun module => module.baseDllName.toBasicString

def fullName : Nat → List NamedEntry → List CharType.wchar.Value :=
  nameAt fun module => module.fullDllName.toBasicString

theorem wstring_counted (s : Counted .wchar) : wstring s.toBasicString = characters s.toBasicString :=
  s.characters_eq.symm

theorem nameAt_own {name : NamedEntry → BasicString .wchar} {entries : List NamedEntry}
    (bases : (entries.map fun module => module.dllBase).Nodup) {module : NamedEntry}
    (loaded : module ∈ entries) :
    nameAt name module.dllBase entries = wstring (name module) := by
  induction entries with
  | nil => cases loaded
  | cons first rest ih =>
    rw [List.map_cons, List.nodup_cons] at bases
    rw [nameAt]
    rcases List.mem_cons.mp loaded with rfl | later
    · rw [if_pos rfl]
    · have other : first.dllBase ≠ module.dllBase := by
        intro same
        apply bases.1
        rw [same]
        exact List.mem_map_of_mem later
      rw [if_neg other]
      exact ih bases.2 later

def Answers (tolower : CharType.wchar.Value → CharType.wchar.Value)
    (text : List CharType.wchar.Value) (module : LoaderEntry) : Prop :=
  module.inMemoryOrderLinks ≠ 0 ∧ SameUpToCase tolower module.name text

/-- A search that goes through the modules compares the name with one initialised module after
another, and each comparison reads characters of these two strings only. -/
inductive SearchReads (name : Counted .wchar) : List LoaderEntry → List Read → List Read → Prop
  | over (modules : List LoaderEntry) (log : List Read) : SearchReads name modules log log
  | passed (module : LoaderEntry) {rest : List LoaderEntry} {before after : List Read}
      (raw : module.inMemoryOrderLinks = 0) (later : SearchReads name rest before after) :
      SearchReads name (module :: rest) before after
  | compared (module : LoaderEntry) {rest : List LoaderEntry} {before log after : List Read}
      (initialized : module.inMemoryOrderLinks ≠ 0)
      (within : AddsWithin module.baseDllName name before log)
      (later : SearchReads name rest log after) :
      SearchReads name (module :: rest) before after

section Search

variable (P : Platform) (tolower : CharType.wchar.Value → CharType.wchar.Value)
variable (source : SourceString .wchar)

private theorem findEntry_first (fits : Fits source) {earlier later : List LoaderEntry}
    {module : LoaderEntry} (none : ∀ m ∈ earlier, ¬ Answers tolower source.text m)
    (answers : Answers tolower source.text module) (before : List Read) :
    Returns (findEntry P tolower source.memory (earlier ++ module :: later)) before
      fun found log => found = some module ∧
        SearchReads (counted source) (earlier ++ module :: later) before log := by
  have whole : characters (counted source).toBasicString = source.text :=
    (charactersAgree_iff source).mpr fits
  induction earlier generalizing before with
  | nil =>
    rw [List.nil_append, findEntry, if_neg answers.1, basicString_source, definedOr_some]
    apply (iequals_entry P tolower source module before).bind
    rintro result log ⟨decided, within⟩
    rw [whole] at decided
    obtain rfl := decided.mpr answers.2
    exact returns_pure ⟨rfl, .compared module answers.1 within (.over later log)⟩
  | cons m earlier ih =>
    have rest := ih fun m' member => none m' (List.mem_cons_of_mem _ member)
    rw [List.cons_append, findEntry]
    split
    case isTrue raw =>
      apply (rest before).mono
      rintro found log ⟨hit, reads⟩
      exact ⟨hit, .passed m raw reads⟩
    case isFalse initialized =>
      rw [basicString_source, definedOr_some]
      apply (iequals_entry P tolower source m before).bind
      rintro result log ⟨decided, within⟩
      rw [whole] at decided
      cases result with
      | true => exact (none m List.mem_cons_self ⟨initialized, decided.mp rfl⟩).elim
      | false =>
        apply (rest log).mono
        rintro found last ⟨hit, reads⟩
        exact ⟨hit, .compared m initialized within reads⟩

private theorem getModule_first (fits : Fits source) {entries earlier later : List NamedEntry}
    {module : NamedEntry} (split : entries = earlier ++ module :: later)
    (none : ∀ m ∈ earlier, ¬ Answers tolower source.text m.toLoaderEntry)
    (answers : Answers tolower source.text module.toLoaderEntry) (image : Nat) (before : List Read) :
    Returns (getModule P tolower ⟨image, entries.map NamedEntry.toLoaderEntry⟩ (some source.memory))
      before fun address log => address = module.dllBase ∧
        SearchReads (counted source) (entries.map NamedEntry.toLoaderEntry) before log := by
  have nobody : ∀ m ∈ earlier.map NamedEntry.toLoaderEntry, ¬ Answers tolower source.text m := by
    intro m member
    obtain ⟨entry, listed, rfl⟩ := List.mem_map.mp member
    exact none entry listed
  rw [getModule, split, List.map_append, List.map_cons]
  apply (findEntry_first P tolower source fits nobody answers before).bind
  rintro _ log ⟨rfl, reads⟩
  exact returns_pure ⟨rfl, reads⟩

end Search

private theorem name_fits (module : LoaderEntry) (beyond : List CharType.wchar.Value)
    (noNul : (0 : CharType.wchar.Value) ∉ module.name) :
    Fits (⟨module.name, beyond, noNul⟩ : SourceString .wchar) := by
  have small := module.baseDllName.length.toNat_lt
  have bytes : module.baseDllName.count * CharType.wchar.size =
    module.baseDllName.length.toNat := module.baseDllName.count_mul
  rw [Fits, SourceString.bytes]
  show module.name.length * _ < _
  rw [LoaderEntry.name, module.baseDllName.characters_length, bytes]
  exact small

private theorem first_answer {tolower : CharType.wchar.Value → CharType.wchar.Value}
    {text : List CharType.wchar.Value} {entries : List NamedEntry}
    (some : ∃ m ∈ entries, Answers tolower text m.toLoaderEntry) :
    ∃ earlier m later, entries = earlier ++ m :: later ∧
      Answers tolower text m.toLoaderEntry ∧
        ∀ m' ∈ earlier, ¬ Answers tolower text m'.toLoaderEntry := by
  induction entries with
  | nil => simp at some
  | cons m rest ih =>
    by_cases answers : Answers tolower text m.toLoaderEntry
    · exact ⟨[], m, rest, rfl, answers, List.forall_mem_nil _⟩
    · obtain ⟨m', listed, answers'⟩ := some
      have behind : m' ∈ rest := by
        rcases List.mem_cons.mp listed with rfl | behind
        · exact (answers answers').elim
        · exact behind
      obtain ⟨earlier, first, later, rfl, answers', none⟩ := ih ⟨m', behind, answers'⟩
      exact ⟨m :: earlier, first, later, rfl, answers', List.forall_mem_cons.mpr ⟨answers, none⟩⟩

/-- Where no two modules have one base, both names of an initialised module are the loader's. If
its base name has no NUL in it, the name finds the module again exactly if no initialised module
before it in the load order has that name up to case, and each comparison reads characters of
its two strings only. -/
theorem getModule_baseName {entries earlier later : List NamedEntry} {module : NamedEntry}
    (loaded : entries = earlier ++ module :: later)
    (bases : (entries.map fun m => m.dllBase).Nodup)
    (initialized : module.inMemoryOrderLinks ≠ 0)
    (noNul : (0 : CharType.wchar.Value) ∉ module.name) (P : Platform)
    (tolower : CharType.wchar.Value → CharType.wchar.Value) (image : Nat)
    (beyond : List CharType.wchar.Value) (before : List Read) :
    baseName module.dllBase entries = module.name ∧
    fullName module.dllBase entries = characters module.fullDllName.toBasicString ∧
    Returns (getModule P tolower ⟨image, entries.map NamedEntry.toLoaderEntry⟩
        (some (baseName module.dllBase entries ++ 0 :: beyond))) before
      fun address log =>
        (address = module.dllBase ↔
          ∀ m ∈ earlier, m.inMemoryOrderLinks ≠ 0 → ¬ SameUpToCase tolower m.name module.name) ∧
        SearchReads (counted ⟨module.name, beyond, noNul⟩)
          (entries.map NamedEntry.toLoaderEntry) before log := by
  have member : module ∈ entries := by rw [loaded]; simp
  have own : baseName module.dllBase entries = module.name :=
    (nameAt_own bases member).trans (wstring_counted module.baseDllName)
  refine ⟨own, (nameAt_own bases member).trans (wstring_counted module.fullDllName), ?_⟩
  have fits := name_fits module.toLoaderEntry beyond noNul
  have itself : Answers tolower module.name module.toLoaderEntry := by
    refine ⟨initialized, ?_⟩
    rw [SameUpToCase, List.forall₂_same]
    exact fun _ _ => rfl
  rw [own]
  by_cases taken : ∃ m ∈ earlier, Answers tolower module.name m.toLoaderEntry
  · obtain ⟨front, first, middle, rfl, answers, none⟩ := first_answer taken
    have split : entries = front ++ first :: (middle ++ module :: later) := by simp [loaded]
    apply (getModule_first P tolower ⟨module.name, beyond, noNul⟩ fits split none answers image
      before).mono
    rintro address log ⟨rfl, reads⟩
    have other : first.dllBase ≠ module.dllBase := by
      rw [loaded] at bases
      intro same
      simp [List.nodup_append, same] at bases
    refine ⟨?_, reads⟩
    constructor
    · exact fun same => (other same).elim
    · exact fun free => (free first (by simp) answers.1 answers.2).elim
  · have none : ∀ m ∈ earlier, ¬ Answers tolower module.name m.toLoaderEntry :=
      fun m listed answers => taken ⟨m, listed, answers⟩
    apply (getModule_first P tolower ⟨module.name, beyond, noNul⟩ fits loaded none itself image
      before).mono
    rintro address log ⟨rfl, reads⟩
    refine ⟨?_, reads⟩
    exact iff_of_true rfl fun m listed links same => none m listed ⟨links, same⟩

private def entryOf (base : Nat) (source : SourceString .wchar) : NamedEntry :=
  ⟨⟨1, base, counted source⟩, counted source⟩

private theorem gameName_noNul :
    (0 : CharType.wchar.Value) ∉ ([66, 78, 83, 82] : List CharType.wchar.Value) := by
  decide

/-- `L"BNSR"` -/
private def game : NamedEntry := entryOf 1 ⟨[66, 78, 83, 82], [], gameName_noNul⟩

private def library : NamedEntry := entryOf 2 ntdll

private theorem library_noNul : (0 : CharType.wchar.Value) ∉ library.name := by decide

theorem getModule_baseName_ntdll :
    baseName 2 [game, library] = library.name ∧
    fullName 2 [game, library] = characters library.fullDllName.toBasicString ∧
    Returns (getModule .x64 id ⟨1, [game, library].map NamedEntry.toLoaderEntry⟩
        (some (baseName 2 [game, library] ++ [0]))) [] fun address log =>
          (address = 2 ↔
            ∀ m ∈ [game], m.inMemoryOrderLinks ≠ 0 → ¬ SameUpToCase id m.name library.name) ∧
          SearchReads (counted ⟨library.name, [], library_noNul⟩)
            ([game, library].map NamedEntry.toLoaderEntry) [] log := by
  have loaded : [game, library] = [game] ++ library :: [] := rfl
  exact getModule_baseName loaded (by decide) Nat.one_ne_zero library_noNul .x64 id 1 [] []

end LoginHelper.Pe.ModuleNames
