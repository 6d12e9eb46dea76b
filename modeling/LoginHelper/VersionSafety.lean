/- Unit: LoginHelper/VersionSafety
   source: src/loginhelper/versioninfo.c
   digest: The walk through any resource ends, reads only inside it, and points inside the block it selects. -/

import LoginHelper.VersionInfo

set_option autoImplicit false
set_option relaxedAutoImplicit false

namespace LoginHelper.VersionSafety

open LoginHelper.Foundation.Execution LoginHelper.Foundation.Loops
open LoginHelper.Windows.ProcessEnvironment
open LoginHelper.VersionInfo

/-- The read lies in the resource, and once the header has been accepted also in its first
`wTotLen` bytes and in the block that is searched. -/
structure Safe (data : List UInt8) (a : Access) : Prop where
  resource : a.pos + a.size ≤ data.length
  version : ∀ b, a.block = some b → a.pos + a.size ≤ wordAt data 0
  searched : ∀ b, a.block = some b → b ≤ a.pos ∧ a.pos + a.size ≤ b + wordAt data b

def AllSafe (data : List UInt8) (log : List Access) : Prop := ∀ a ∈ log, Safe data a

/-- Failure and no pointer, or the length of the selected block's value, which was the last
thing read, and a pointer into that block. -/
inductive Answered (data : List UInt8) : Answer → List Access → Prop
  | failed (log : List Access) : Answered data Answer.failed log
  | found (block pos : Nat) (log : List Access) (resource : wordAt data 0 ≤ data.length)
      (version : block + wordAt data block ≤ wordAt data 0) (lo : block ≤ pos)
      (hi : pos < block + wordAt data block) :
      Answered data ⟨wordAt data (block + 2), some pos⟩ (⟨block + 2, 2, some block⟩ :: log)

/-- The locals describe a block of the version resource: its key ends inside it, and so
does its value. -/
structure Selected (data : List UInt8) (c : Cursor) : Prop where
  version : c.block + wordAt data c.block ≤ wordAt data 0
  key : 8 + c.cb ≤ wordAt data c.block
  off : c.off = dwordUp (8 + c.cb)
  len : c.len = c.off + wordAt data (c.block + 2)
  value : c.len ≤ wordAt data c.block

section Walks

variable {data : List UInt8}

private theorem AllSafe.cons {log : List Access} {a : Access} (all : AllSafe data log)
    (safe : Safe data a) : AllSafe data (a :: log) := by
  intro b member
  rcases List.mem_cons.mp member with rfl | old
  · exact safe
  · exact all b old

private theorem safe_searched {block : Nat} (lo hi : Nat) (resource : wordAt data 0 ≤ data.length)
    (version : block + wordAt data block ≤ wordAt data 0) (from_ : block ≤ lo)
    (upto : hi ≤ block + wordAt data block) {a : Access} (start : lo ≤ a.pos)
    (stop : a.pos + a.size ≤ hi) (same : a.block = some block) : Safe data a := by
  refine ⟨by omega, fun b _ => by omega, fun b here => ?_⟩
  rw [same] at here
  obtain rfl := Option.some.inj here
  exact ⟨by omega, by omega⟩

private theorem AllSafe.within {log log' : List Access} {block : Option Nat} {lo hi : Nat}
    (all : AllSafe data log) (within : ReadsWithin lo hi block log log')
    (each : ∀ a : Access, lo ≤ a.pos → a.pos + a.size ≤ hi → a.block = block → Safe data a) :
    AllSafe data log' := by
  intro a member
  rcases within a member with old | ⟨start, stop, same⟩
  · exact all a old
  · exact each a start stop same

private theorem safe_header {a : Access} (none : a.block = none) (inside : a.pos + a.size ≤ data.length) :
    Safe data a :=
  ⟨inside, fun b here => (by rw [none] at here; cases here),
    fun b here => (by rw [none] at here; cases here)⟩

/-- A header that is accepted describes a block that is all of the version resource. -/
def HeaderPost (data : List UInt8) (head : Option Cursor) (log : List Access) : Prop :=
  AllSafe data log ∧ ∀ c, head = some c → wordAt data 0 ≤ data.length ∧ Selected data c

private theorem headerPost_none {log : List Access} (all : AllSafe data log) :
    HeaderPost data none log := ⟨all, fun c here => by cases here⟩

private theorem acceptSignature_returns {totLen cb : Nat} (tot : totLen = wordAt data 0)
    (resource : totLen ≤ data.length) (large : 92 ≤ totLen) (val : wordAt data 2 = 52)
    (key : 8 + cb ≤ totLen) (off : dwordUp (8 + cb) = 40) {log : List Access}
    (all : AllSafe data log) :
    Returns (acceptSignature data totLen 52 cb) log (HeaderPost data) := by
  apply returns_bind_of_run (readDword_run (by omega) log)
  have read := all.cons (safe_header (a := ⟨40, 4, none⟩) rfl (show 40 + 4 ≤ data.length by omega))
  by_cases signature : dwordAt data 40 ≠ 0xFEEF04BD
  · rw [if_pos signature]
    exact returns_pure (headerPost_none read)
  rw [if_neg signature, if_neg (by omega)]
  refine returns_pure ⟨read, fun c here => ?_⟩
  obtain rfl := Option.some.inj here
  refine ⟨by omega, ?_, ?_, off.symm, ?_, ?_⟩
  · show 0 + wordAt data 0 ≤ wordAt data 0
    omega
  · show 8 + cb ≤ wordAt data 0
    omega
  · show 40 + 52 = 40 + wordAt data (0 + 2)
    rw [Nat.zero_add, val]
  · show 40 + 52 ≤ wordAt data 0
    omega

private theorem acceptKey_returns {totLen : Nat} (tot : totLen = wordAt data 0)
    (resource : totLen ≤ data.length) (large : 92 ≤ totLen) (val : wordAt data 2 = 52)
    {log : List Access} (all : AllSafe data log) :
    Returns (acceptKey data totLen 52) log (HeaderPost data) := by
  apply (stringCbLengthW_returns data none 6 (totLen - 6) (by omega) log).bind
  rintro r log' ⟨key, within⟩
  have read : AllSafe data log' := all.within within fun a start stop same =>
    safe_header same (by omega)
  cases r with
  | none => exact returns_pure (headerPost_none read)
  | some cb =>
    obtain ⟨k, small, rfl, -, -⟩ := key
    show Returns (if dwordUp (8 + 2 * k) ≠ 40 then pure none
      else acceptSignature data totLen 52 (2 * k)) log' (HeaderPost data)
    by_cases off : dwordUp (8 + 2 * k) ≠ 40
    · rw [if_pos off]
      exact returns_pure (headerPost_none read)
    · rw [if_neg off]
      exact acceptSignature_returns tot resource large val (by omega) (not_not.mp off) read

theorem acceptHeader_returns (nonempty : 2 ≤ data.length) :
    Returns (acceptHeader data) [] (HeaderPost data) := by
  apply returns_bind_of_run (readWord_run (by omega) _)
  have first : AllSafe data [⟨0, 2, none⟩] := by
    intro a member
    obtain rfl := List.mem_singleton.mp member
    exact safe_header rfl (by show 0 + 2 ≤ data.length; omega)
  by_cases outside : data.length < wordAt data 0 ∨ wordAt data 0 < 92 ∨ 0x7fff < wordAt data 0
  · rw [if_pos outside]
    exact returns_pure (headerPost_none first)
  rw [if_neg outside]
  push Not at outside
  obtain ⟨resource, large, -⟩ := outside
  apply returns_bind_of_run (readWord_run (by omega) _)
  have second := first.cons (safe_header (a := ⟨4, 2, none⟩) rfl (show 4 + 2 ≤ data.length by omega))
  by_cases type : wordAt data 4 ≠ 0
  · rw [if_pos type]
    exact returns_pure (headerPost_none second)
  rw [if_neg type]
  apply returns_bind_of_run (readWord_run (by omega) _)
  have third := second.cons (safe_header (a := ⟨2, 2, none⟩) rfl (show 2 + 2 ≤ data.length by omega))
  by_cases val : wordAt data 2 ≠ 52
  · rw [if_pos val]
    exact returns_pure (headerPost_none third)
  · rw [if_neg val, not_not.mp val]
    exact acceptKey_returns rfl resource large (not_not.mp val) third

def WalkInv (data : List UInt8) (block : Nat) (s : Walk) (log : List Access) : Prop :=
  block ≤ s.sub ∧ AllSafe data log

def WalkPost (data : List UInt8) (found : Option Cursor) (log : List Access) : Prop :=
  AllSafe data log ∧ ∀ c, found = some c → Selected data c

private theorem walkPost_none {log : List Access} (all : AllSafe data log) :
    WalkPost data none log := ⟨all, fun c here => by cases here⟩

section Children

variable (compare : Compare) {start : WString} {cch : Int} {block stop : Nat}

private theorem choose_returns (resource : wordAt data 0 ≤ data.length)
    (version : block + wordAt data block ≤ wordAt data 0) {found : Cursor} {s : Walk} {next : Nat}
    (selected : Selected data found) (after : block ≤ found.block)
    (room : found.block + wordAt data found.block ≤ block + wordAt data block)
    (forward : s.sub < next) (below : s.sub < stop) (behind : block ≤ s.sub) {log : List Access}
    (all : AllSafe data log) :
    Returns (choose compare data start cch block next found s.index) log
      (RoundPost (WalkInv data block) (fun s => stop - s.sub) (WalkPost data) s) := by
  have taken {log : List Access} (all : AllSafe data log) : WalkPost data (some found) log :=
    ⟨all, fun c here => Option.some.inj here ▸ selected⟩
  have passed {log : List Access} (all : AllSafe data log) (index : Int) :
      WalkInv data block ⟨next, index⟩ log ∧ stop - next < stop - s.sub :=
    ⟨⟨by show block ≤ next; omega, all⟩, by omega⟩
  unfold choose
  by_cases numbered : 0 ≤ s.index
  · rw [if_pos numbered]
    by_cases zero : s.index = 0
    · rw [if_pos zero]
      exact returns_pure (taken all)
    · rw [if_neg zero]
      exact returns_pure (passed all _)
  rw [if_neg numbered]
  have key := selected.key
  apply returns_bind_of_run (touch_run (by omega) log)
  have read := all.cons (safe_searched (a := ⟨found.block + 6, found.cb, some block⟩)
    (found.block + 6) (found.block + 6 + found.cb) resource version (by omega) (by omega)
    (le_refl _) (le_refl _) rfl)
  dsimp only
  split
  · exact returns_pure (walkPost_none read)
  split
  · exact returns_pure (taken read)
  · exact returns_pure (passed read _)

private theorem visit_returns (resource : wordAt data 0 ≤ data.length)
    (version : block + wordAt data block ≤ wordAt data 0)
    (end_ : stop = block + wordAt data block) (s : Walk) (log : List Access)
    (inv : WalkInv data block s log) :
    Returns (visit compare data start cch block stop s) log
      (RoundPost (WalkInv data block) (fun s => stop - s.sub) (WalkPost data) s) := by
  obtain ⟨behind, all⟩ := inv
  unfold visit
  by_cases beyond : stop < s.sub ∨ stop - s.sub < 8
  · rw [if_pos beyond]
    exact returns_pure (walkPost_none all)
  rw [if_neg beyond]
  push Not at beyond
  have inside {a : Access} (lo : s.sub ≤ a.pos) (hi : a.pos + a.size ≤ stop)
      (same : a.block = some block) : Safe data a :=
    safe_searched s.sub stop resource version behind (by omega) lo hi same
  apply returns_bind_of_run (readWord_run (by omega) log)
  have first := all.cons (inside (a := ⟨s.sub, 2, some block⟩) (le_refl _)
    (show s.sub + 2 ≤ stop by omega) rfl)
  by_cases wrong : wordAt data s.sub < 8 ∨ stop - s.sub < wordAt data s.sub
  · rw [if_pos wrong]
    exact returns_pure (walkPost_none first)
  rw [if_neg wrong]
  push Not at wrong
  refine (stringCbLengthW_returns data (some block) (s.sub + 6) (wordAt data s.sub - 6)
    (by omega) _).bind ?_
  rintro r log' ⟨key, within⟩
  have second : AllSafe data log' := first.within within fun a lo hi same =>
    inside (by omega) (by omega) same
  cases r with
  | none => exact returns_pure (walkPost_none second)
  | some cb =>
    obtain ⟨k, small, rfl, -, -⟩ := key
    apply returns_bind_of_run (readWord_run (by omega) log')
    have third := second.cons (inside (a := ⟨s.sub + 2, 2, some block⟩)
      (show s.sub ≤ s.sub + 2 by omega) (show s.sub + 2 + 2 ≤ stop by omega) rfl)
    by_cases long : wordAt data s.sub < dwordUp (8 + 2 * k) + wordAt data (s.sub + 2)
    · rw [if_pos long]
      exact returns_pure (walkPost_none third)
    rw [if_neg long]
    have step := le_dwordUp (wordAt data s.sub)
    refine choose_returns compare resource version
      ⟨?_, ?_, rfl, rfl, ?_⟩ ?_ ?_ (by omega) (by omega) behind third
    · show s.sub + wordAt data s.sub ≤ wordAt data 0
      omega
    · show 8 + 2 * k ≤ wordAt data s.sub
      omega
    · show dwordUp (8 + 2 * k) + wordAt data (s.sub + 2) ≤ wordAt data s.sub
      omega
    · exact behind
    · show s.sub + wordAt data s.sub ≤ block + wordAt data block
      omega

end Children

def PathInv (data : List UInt8) (p : Position) (log : List Access) : Prop :=
  Selected data p.cursor ∧ AllSafe data log

private theorem descendOnce_returns (compare : Compare) (resource : wordAt data 0 ≤ data.length)
    {fuel : Nat} (enough : data.length < fuel) (p : Position) (log : List Access)
    (inv : PathInv data p log) :
    Returns (descendOnce compare data fuel p) log
      (RoundPost (PathInv data) (fun p => p.path.length) (WalkPost data) p) := by
  obtain ⟨selected, all⟩ := inv
  have version := selected.version
  have key := selected.key
  unfold descendOnce
  cases rest : p.path.dropWhile (· == separator) with
  | nil => exact returns_pure ⟨all, fun c here => Option.some.inj here ▸ selected⟩
  | cons c tail =>
    apply returns_bind_of_run (readWord_run (by omega) log)
    have first := all.cons (safe_searched (a := ⟨p.cursor.block, 2, some p.cursor.block⟩)
      p.cursor.block (p.cursor.block + 2) resource version (le_refl _) (by omega)
      (le_refl _) (le_refl _) rfl)
    let stop := p.cursor.block + wordAt data p.cursor.block
    let length := ((c :: tail).takeWhile (· != separator)).length
    have walk : Returns (loop Fault.endless (visit compare data (c :: tail)
        (BitVec.ofNat 32 length).toInt p.cursor.block stop) fuel
          ⟨p.cursor.block + dwordUp p.cursor.len, componentIndex (c :: tail) length⟩)
        (⟨p.cursor.block, 2, some p.cursor.block⟩ :: log) (WalkPost data) :=
      loop_returns Fault.endless (WalkInv data p.cursor.block) (fun s => stop - s.sub) (WalkPost data)
        (visit_returns compare resource version rfl)
        (by show stop - (p.cursor.block + dwordUp p.cursor.len) < fuel; omega)
        ⟨by show p.cursor.block ≤ p.cursor.block + _; omega, first⟩
    apply walk.bind
    rintro found log' ⟨read, good⟩
    cases found with
    | none => exact returns_pure (walkPost_none read)
    | some cursor =>
      exact returns_pure ⟨⟨good cursor rfl, read⟩, (rest_shorter rest).2⟩

private theorem answer_returns (resource : wordAt data 0 ≤ data.length) {c : Cursor}
    (selected : Selected data c) {log : List Access} (all : AllSafe data log) :
    Returns (answer data c) log fun a log' => AllSafe data log' ∧ Answered data a log' := by
  have version := selected.version
  have key := selected.key
  have inside {pos : Nat} (lo : c.block ≤ pos) (hi : pos + 2 ≤ c.block + wordAt data c.block) :
      Safe data ⟨pos, 2, some c.block⟩ :=
    safe_searched pos (pos + 2) resource version lo hi (le_refl _) (le_refl _) rfl
  apply returns_bind_of_run (readWord_run (by omega) log)
  apply returns_bind_of_run (readWord_run (by omega) _)
  refine returns_pure ⟨(all.cons (inside (le_refl _) (by omega))).cons
    (inside (by omega) (by omega)), ?_⟩
  refine .found c.block _ _ resource version ?_ ?_
  · split <;> omega
  · split <;> omega

/-- On every resource the function returns, every read is safe, and the pointer it leaves
is null or inside the block it has selected. -/
theorem getModuleVersionInfo_safe (compare : Compare) (data : List UInt8)
    (nonempty : 2 ≤ data.length) (path : CText WChar) (fuel : Nat)
    (enough : data.length + path.chars.length < fuel) :
    ∃ a log, (getModuleVersionInfo compare fuel true (some path) (some data)).run [] = .done a log ∧
      AllSafe data log ∧ Answered data a log := by
  rw [getModuleVersionInfo_entered compare fuel path (by omega)]
  apply (acceptHeader_returns nonempty).bind
  rintro head log ⟨all, accepted⟩
  cases head with
  | none => exact returns_pure ⟨all, .failed log⟩
  | some head =>
    obtain ⟨resource, selected⟩ := accepted head rfl
    refine (loop_returns Fault.endless (PathInv data) (fun p => p.path.length) (WalkPost data)
      (descendOnce_returns compare resource (by omega)) (by show path.chars.length < fuel; omega)
      ⟨selected, all⟩).bind ?_
    rintro found log' ⟨read, good⟩
    cases found with
    | none => exact returns_pure ⟨read, .failed log'⟩
    | some cursor => exact answer_returns resource (good cursor rfl) read

end Walks

def hostileVersion : List UInt8 :=
  [0x68, 0, 52, 0, 0, 0] ++ (wide "VS_VERSION_INFO").flatMap (fun c => [c.toUInt8, 0]) ++
    [0, 0, 0, 0, 0xBD, 0x04, 0xEF, 0xFE] ++ List.replicate 48 0 ++ [0xFF, 0xFF] ++
    List.replicate 10 0

theorem getModuleVersionInfo_safe_hostile : ∃ a log,
    (getModuleVersionInfo asciiCompare 200 true (some ⟨wide "\\*", by decide⟩)
      (some hostileVersion)).run [] = .done a log ∧
      AllSafe hostileVersion log ∧ Answered hostileVersion a log :=
  getModuleVersionInfo_safe asciiCompare hostileVersion (by decide) ⟨wide "\\*", by decide⟩ 200
    (by decide)

end LoginHelper.VersionSafety
