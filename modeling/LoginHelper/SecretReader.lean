/- Unit: LoginHelper/SecretReader
   source: src/loginhelper/totp.h, src/loginhelper/libcppotp/bytes.cpp
   digest: Which secrets the plugin reads, and how long the keys are. -/

import LoginHelper.CppTotp.Base32Reader
import LoginHelper.CppTotp.Otp

set_option autoImplicit false
set_option relaxedAutoImplicit false

namespace LoginHelper.SecretReader

open LoginHelper.Foundation.Base32
open LoginHelper.CppTotp.Bytes
open LoginHelper.CppTotp.Base32Reader
open LoginHelper.CppTotp.Otp (readSecret normalizedBase32String)
open LoginHelper.Windows.ProcessEnvironment (NString narrow)

def WellFormed (g : NString) : Prop := ∃ ds, GroupOf ds g

def completed (last : NString) : NString := last ++ List.replicate (8 - last.length) padChar

/-- What the reader does with a text when it reads it as the standard asks. -/
structure ReadsExactly (secret : NString) : Prop where
  accepts : (∃ key, readSecret secret = .ok key) ↔
    ∃ count, IsText (normalizedBase32String secret) count
  length : ∀ key count, readSecret secret = .ok key →
    IsText (normalizedBase32String secret) count → key.length = 5 * count / 8

/-- A text of several groups, each well formed once the padding missing at the end is
there, with padding in a group before the last. -/
def Pasted (text : NString) : Prop :=
  ∃ (gs : List NString) (last : NString), text = gs.flatten ++ last ∧
    0 < last.length ∧ last.length ≤ 8 ∧ (∀ g ∈ gs, WellFormed g) ∧ WellFormed (completed last) ∧
    ∃ g ∈ gs, padChar ∈ g

theorem WellFormed.length {g : NString} (h : WellFormed g) : g.length = 8 :=
  h.elim fun _ => GroupOf.length

theorem completed_length {last : NString} (bound : last.length ≤ 8) : (completed last).length = 8 := by
  rw [completed, List.length_append, List.length_replicate]
  omega

theorem exists_groupsOf {gs : List NString} (groups : ∀ g ∈ gs, WellFormed g) :
    ∃ dss, List.Forall₂ GroupOf dss gs := by
  induction gs with
  | nil => exact ⟨[], .nil⟩
  | cons g gs ih =>
    obtain ⟨ds, group⟩ := groups g List.mem_cons_self
    obtain ⟨dss, rest⟩ := ih fun h member => groups h (List.mem_cons_of_mem g member)
    exact ⟨ds :: dss, .cons group rest⟩

theorem wellFormed_of_groupsOf {dss : List (List Nat)} {gs : List NString}
    (groups : List.Forall₂ GroupOf dss gs) : ∀ g ∈ gs, WellFormed g := by
  induction groups with
  | nil => exact fun g member => absurd member List.not_mem_nil
  | cons group rest ih =>
    intro g member
    rcases List.mem_cons.mp member with rfl | later
    · exact ⟨_, group⟩
    · exact ih g later

section Groups

variable {gs : List NString} {last : NString} (eight : ∀ g ∈ gs, g.length = 8)
  (positive : 0 < last.length) (bound : last.length ≤ 8)

include eight positive bound

theorem fromUnpaddedBase32_flatten :
    fromUnpaddedBase32 (gs.flatten ++ last) = fromBase32 (gs ++ [completed last]).flatten := by
  rw [fromUnpaddedBase32_eq, fill_groups eight positive bound, List.flatten_append,
    List.flatten_singleton]
  rfl

theorem accepts_iff : (∃ key, fromUnpaddedBase32 (gs.flatten ++ last) = .ok key) ↔
    (∀ g ∈ gs, WellFormed g) ∧ WellFormed (completed last) := by
  have all : ∀ g ∈ gs ++ [completed last], g.length = 8 := by
    intro g member
    rcases List.mem_append.mp member with early | final
    · exact eight g early
    · rw [List.mem_singleton.mp final]
      exact completed_length bound
  rw [fromUnpaddedBase32_flatten eight positive bound]
  constructor
  · rintro ⟨key, read⟩
    obtain ⟨dss, groups, -⟩ := groups_of_fromBase32 all read
    have formed := wellFormed_of_groupsOf groups
    exact ⟨fun g member => formed g (List.mem_append_left _ member),
      formed _ (List.mem_append_right _ (List.mem_singleton_self _))⟩
  · rintro ⟨early, final⟩
    have formed : ∀ g ∈ gs ++ [completed last], WellFormed g := fun g member =>
      (List.mem_append.mp member).elim (early g) fun h => List.mem_singleton.mp h ▸ final
    obtain ⟨dss, groups⟩ := exists_groupsOf formed
    exact ⟨_, fromBase32_groups groups⟩

end Groups

/-- Every group of the text is well formed, with the padding missing at the end. -/
def Grouped (text : NString) : Prop :=
  ∃ gs : List NString, fill text = gs.flatten ∧ ∀ g ∈ gs, WellFormed g

theorem readSecret_iff (secret : NString) :
    (∃ key, readSecret secret = .ok key) ↔ Grouped (normalizedBase32String secret) := by
  rw [readSecret, fromUnpaddedBase32_eq]
  constructor
  · rintro ⟨key, read⟩
    obtain ⟨gs, flat, eight⟩ := exists_groups _ (fill_length (normalizedBase32String secret))
    rw [← flat] at read
    obtain ⟨dss, groups, -⟩ := groups_of_fromBase32 eight read
    exact ⟨gs, flat.symm, wellFormed_of_groupsOf groups⟩
  · rintro ⟨gs, flat, formed⟩
    obtain ⟨dss, groups⟩ := exists_groupsOf formed
    rw [flat]
    exact ⟨_, fromBase32_groups groups⟩

theorem wellFormed_symbols {g : NString} (eight : g.length = 8) :
    (∀ c ∈ g, IsSymbol c) ↔ WellFormed g ∧ padChar ∉ g := by
  constructor
  · intro symbols
    obtain ⟨ds, small, same⟩ := exists_symbols symbols
    have length : ds.length = 8 := by rw [← eight, ← same, List.length_map]
    refine ⟨⟨ds, small, by rw [length]; decide, by rw [length, same]; simp⟩, fun member => ?_⟩
    exact isSymbol_ne_pad (symbols _ member) rfl
  · rintro ⟨⟨ds, group⟩, unpadded⟩ c hc
    rw [group.text] at hc unpadded
    rcases List.mem_append.mp hc with char | pad
    · obtain ⟨d, hd, rfl⟩ := List.mem_map.mp char
      exact isSymbol_symbol (group.small d hd)
    · have same := List.eq_of_mem_replicate pad
      exact absurd (List.mem_append_right _ (same ▸ pad)) unpadded

theorem decoded_length {dss : List (List Nat)} {gs : List NString} {ds : List Nat}
    (groups : List.Forall₂ GroupOf dss gs) (full : ∀ g ∈ gs, padChar ∉ g) :
    ((dss ++ [ds]).flatMap decodeGroup).length = 5 * (8 * gs.length + ds.length) / 8 := by
  have front : (dss.flatMap decodeGroup).length = 5 * gs.length := by
    induction groups with
    | nil => rfl
    | cons group rest ih =>
      rename_i ds g dss gs
      have count := group.count_cases
      have eight : ds.length = 8 := by
        by_contra fewer
        obtain ⟨n, pads⟩ : ∃ n, 8 - ds.length = n + 1 := ⟨8 - ds.length - 1, by omega⟩
        apply full g List.mem_cons_self
        rw [group.text, pads]
        exact List.mem_append_right _ List.mem_cons_self
      rw [List.flatMap_cons, List.length_append, decodeGroup_length, eight,
        ih fun h member => full h (List.mem_cons_of_mem g member), List.length_cons, byteCount]
      omega
  rw [List.flatMap_append, List.length_append, front, List.flatMap_singleton, decodeGroup_length,
    byteCount]
  omega

theorem not_readsExactly_of_pasted {secret : NString}
    (pasted : Pasted (normalizedBase32String secret)) : ¬ ReadsExactly secret := by
  intro exact
  obtain ⟨gs, last, text, positive, bound, groups, final, g, member, padded⟩ := pasted
  have eight : ∀ g ∈ gs, g.length = 8 := fun g hg => (groups g hg).length
  have read : ∃ key, readSecret secret = .ok key := by
    rw [readSecret, text]
    exact (accepts_iff eight positive bound).mpr ⟨groups, final⟩
  obtain ⟨count, standard⟩ := exact.accepts.mp read
  rw [text] at standard
  have symbols := ((isText_groups eight positive bound count).mp standard).1 g member
  exact isSymbol_ne_pad (symbols _ padded) rfl

private theorem readsExactly_empty {secret : NString} (empty : normalizedBase32String secret = []) :
    ReadsExactly secret := by
  have read : readSecret secret = .ok [] := by
    rw [readSecret, empty]
    rfl
  constructor
  · refine iff_of_true ⟨[], read⟩ ⟨0, ?_⟩
    rw [empty]
    exact ⟨[], 0, rfl, by simp, rfl, by decide, by decide⟩
  · rintro key count other ⟨letters, pads, text, -, length, -, -⟩
    rw [read] at other
    cases other
    rw [empty] at text
    have none : letters = [] := (List.append_eq_nil_iff.mp text.symm).1
    rw [none] at length
    rw [← length]
    rfl

private theorem key_length {gs : List NString} {last : NString} (eight : ∀ g ∈ gs, g.length = 8)
    (positive : 0 < last.length) (bound : last.length ≤ 8) {key : ByteString} {count : Nat}
    (read : fromUnpaddedBase32 (gs.flatten ++ last) = .ok key)
    (standard : IsText (gs.flatten ++ last) count) : key.length = 5 * count / 8 := by
  obtain ⟨symbols, ds, group, rfl⟩ := (isText_groups eight positive bound count).mp standard
  have formed (g : NString) (member : g ∈ gs) : WellFormed g ∧ padChar ∉ g :=
    (wellFormed_symbols (eight g member)).mp (symbols g member)
  obtain ⟨dss, groups⟩ := exists_groupsOf fun g member => (formed g member).1
  have all : List.Forall₂ GroupOf (dss ++ [ds]) (gs ++ [completed last]) :=
    List.rel_append groups (.cons group .nil)
  rw [fromUnpaddedBase32_flatten eight positive bound, fromBase32_groups all] at read
  rw [← Except.ok.inj read]
  exact decoded_length groups fun g member => (formed g member).2

/-- The reader takes exactly the Base32 texts, padded or not, unless the secret is pasted
from pieces of which one before the last is padded. -/
theorem readsExactly_iff (secret : NString) :
    ReadsExactly secret ↔ ¬ Pasted (normalizedBase32String secret) := by
  constructor
  · exact fun exact pasted => not_readsExactly_of_pasted pasted exact
  intro whole
  by_cases empty : normalizedBase32String secret = []
  · exact readsExactly_empty empty
  obtain ⟨gs, last, text, eight, positive, bound⟩ := exists_last empty
  constructor
  · rw [readSecret, text, accepts_iff eight positive bound]
    constructor
    · rintro ⟨groups, ds, group⟩
      refine ⟨_, (isText_groups eight positive bound _).mpr ⟨fun g member => ?_, ds, group, rfl⟩⟩
      refine (wellFormed_symbols (eight g member)).mpr ⟨groups g member, fun padded => ?_⟩
      exact whole ⟨gs, last, text, positive, bound, groups, ⟨ds, group⟩, g, member, padded⟩
    · rintro ⟨count, standard⟩
      obtain ⟨symbols, ds, group, -⟩ := (isText_groups eight positive bound count).mp standard
      exact ⟨fun g member => ((wellFormed_symbols (eight g member)).mp (symbols g member)).1,
        ds, group⟩
  · intro key count read standard
    rw [readSecret, text] at read
    rw [text] at standard
    exact key_length eight positive bound read standard

/-- Two padded pieces, one after the other. -/
theorem twoPieces_not_exact : ¬ ReadsExactly (narrow "MY======MY======") := by
  have piece : GroupOf [12, 24] (narrow "MY======") := by
    refine ⟨by decide, by decide, by decide⟩
  refine not_readsExactly_of_pasted ⟨[narrow "MY======"], narrow "MY======", by decide, by decide,
    by decide, ?_, ⟨_, piece⟩, _, List.mem_singleton_self _, by decide⟩
  intro g member
  rw [List.mem_singleton.mp member]
  exact ⟨_, piece⟩

end LoginHelper.SecretReader
