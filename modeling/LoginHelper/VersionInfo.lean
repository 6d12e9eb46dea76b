/- Unit: LoginHelper/VersionInfo
   source: src/loginhelper/versioninfo.c
   digest: The walk through a version resource, with every read of it recorded. -/

import LoginHelper.Foundation.Loops
import LoginHelper.Windows.Runtime

set_option autoImplicit false
set_option relaxedAutoImplicit false

namespace LoginHelper.VersionInfo

open LoginHelper.Foundation.Execution LoginHelper.Foundation.Loops
open LoginHelper.Windows.ProcessEnvironment
open LoginHelper.Windows.Runtime (wcstol)

-- Positions are counted from the first byte of the resource.
/-- One read of the resource. `block` is the block being searched at that time, once the
header has been accepted. -/
structure Access where
  pos : Nat
  size : Nat
  block : Option Nat
  deriving DecidableEq

inductive Fault
  | outsideResource
  | endless
  deriving DecidableEq

abbrev Reader (α : Type) : Type := Exec Empty Fault (List Access) α

def byteAt (data : List UInt8) (pos : Nat) : Nat := (data.getD pos 0).toNat

def wordAt (data : List UInt8) (pos : Nat) : Nat := byteAt data pos + 256 * byteAt data (pos + 1)

def dwordAt (data : List UInt8) (pos : Nat) : Nat :=
  wordAt data pos + 65536 * wordAt data (pos + 2)

section Reads

variable (data : List UInt8) (block : Option Nat)

def touch (pos size : Nat) : Reader Unit := do
  let log ← readState
  if pos + size ≤ data.length then modifyState fun _ => ⟨pos, size, block⟩ :: log
  else goUndefined .outsideResource

def readWord (pos : Nat) : Reader Nat := do
  touch data block pos 2
  pure (wordAt data pos)

def readDword (pos : Nat) : Reader Nat := do
  touch data block pos 4
  pure (dwordAt data pos)

/-- The characters from the `i`-th one on, at most `n` of them, up to a NUL. -/
def scan (s : Nat) : Nat → Nat → Reader (Option Nat)
  | 0, _ => pure none
  | n + 1, i => do
    let c ← readWord data block (s + 2 * i)
    if c = 0 then pure (some (2 * i)) else scan s n (i + 1)

/-- `StringCbLengthW(s, cbMax, &cb)`: the bytes before the NUL, or failure without one. -/
def stringCbLengthW (s cbMax : Nat) : Reader (Option Nat) := scan data block s (cbMax / 2) 0

end Reads

/-- `DWORDUP(x)` -/
def dwordUp (x : Nat) : Nat := (x + 3) / 4 * 4

/-- The locals that describe a block: where it is, the offsets of its value and of the
value's end, and the size of its key. -/
structure Cursor where
  block : Nat
  off : Nat
  len : Nat
  cb : Nat

/-- `head->vsf.dwSignature != VS_FFI_SIGNATURE || (len = off + head->wValLen) > head->wTotLen` -/
def acceptSignature (data : List UInt8) (totLen valLen cb : Nat) : Reader (Option Cursor) := do
  let signature ← readDword data none 40
  if signature ≠ 0xFEEF04BD then pure none
  else if totLen < 40 + valLen then pure none
  else pure (some ⟨0, 40, 40 + valLen, cb⟩)

/-- The conditions on `head->szKey`, and those behind them. -/
def acceptKey (data : List UInt8) (totLen valLen : Nat) : Reader (Option Cursor) := do
  match ← stringCbLengthW data none 6 (totLen - 6) with
  | none => pure none
  | some cb => if dwordUp (8 + cb) ≠ 40 then pure none else acceptSignature data totLen valLen cb

/-- The conditions on `head`; `sizeof * head` is 92. -/
def acceptHeader (data : List UInt8) : Reader (Option Cursor) := do
  let totLen ← readWord data none 0
  if data.length < totLen ∨ totLen < 92 ∨ 0x7fff < totLen then pure none
  else do
    let type ← readWord data none 4
    if type ≠ 0 then pure none
    else do
      let valLen ← readWord data none 2
      if valLen ≠ 52 then pure none else acceptKey data totLen valLen

-- `compare` is `CompareStringEx(LOCALE_NAME_INVARIANT, NORM_IGNORECASE, ...)`: the text at
-- `start` with its count, the key with its count.
abbrev Compare : Type := WString → Int → WString → Int → Int

/-- What the comparison comes to on texts of ASCII characters: 2 when they agree in lower
case, 1 or 3 when the first comes before or after the second. -/
def asciiCompare : Compare := fun start cch key count =>
  let lower (c : WChar) : WChar := if 65 ≤ c ∧ c ≤ 90 then c + 32 else c
  let a := (start.take cch.toNat).map lower
  let b := (key.take count.toNat).map lower
  if a = b then 2 else if a < b then 1 else 3

def separator : WChar := 92

/-- `index` of the component of `start` that has `length` characters. -/
def componentIndex (start : WString) (length : Nat) : Int :=
  if start.take length = wide "*" then 0
  else if start.head? = some 35 then
    let r := wcstol (start.drop 1)
    if r.consumed + 1 = length then r.value else -1
  else -1

def keyText (data : List UInt8) (pos cb : Nat) : WString :=
  (List.range (cb / 2)).map fun i => UInt16.ofNat (wordAt data (pos + 2 * i))

/-- `sub` and `index`, which step from child to child. -/
structure Walk where
  sub : Nat
  index : Int

section Descent

variable (compare : Compare) (data : List UInt8)

def choose (start : WString) (cch : Int) (block next : Nat) (found : Cursor) (index : Int) :
    Reader (Round Walk (Option Cursor)) :=
  if 0 ≤ index then
    if index = 0 then pure (.leave (some found)) else pure (.again ⟨next, index - 1⟩)
  else do
    touch data (some block) (found.block + 6) found.cb
    let ncmp := compare start cch (keyText data (found.block + 6) found.cb) ((found.cb / 2 : Nat) : Int)
    -- a failed comparison returns -1, and so does a loop that ends without a match
    if ncmp = 0 then pure (.leave none)
    else if ncmp = 2 then pure (.leave (some found))
    else pure (.again ⟨next, index⟩)

def visitKey (start : WString) (cch : Int) (block totLen cb : Nat) (s : Walk) :
    Reader (Round Walk (Option Cursor)) := do
  let off := dwordUp (8 + cb)
  let valLen ← readWord data (some block) (s.sub + 2)
  if totLen < off + valLen then pure (.leave none)
  else
    choose compare data start cch block (s.sub + dwordUp totLen) ⟨s.sub, off, off + valLen, cb⟩ s.index

/-- One round of the loop over the children; `stop` is the end of the block. -/
def visit (start : WString) (cch : Int) (block stop : Nat) (s : Walk) :
    Reader (Round Walk (Option Cursor)) :=
  if stop < s.sub ∨ stop - s.sub < 8 then pure (.leave none)
  else do
    let totLen ← readWord data (some block) s.sub
    if totLen < 8 ∨ stop - s.sub < totLen then pure (.leave none)
    else do
      match ← stringCbLengthW data (some block) (s.sub + 6) (totLen - 6) with
      | none => pure (.leave none)
      | some cb => visitKey compare data start cch block totLen cb s

/-- `pwszSubBlock`, and the block reached so far. -/
structure Position where
  path : WString
  cursor : Cursor

/-- One round of the loop over the path; the loop over the children is given `fuel`. -/
def descendOnce (fuel : Nat) (p : Position) : Reader (Round Position (Option Cursor)) :=
  match p.path.dropWhile (· == separator) with
  | [] => pure (.leave (some p.cursor))
  | c :: rest => do
    let start := c :: rest
    let totLen ← readWord data (some p.cursor.block) p.cursor.block
    let length := (start.takeWhile (· != separator)).length
    let cch := (BitVec.ofNat 32 length).toInt
    let found ← loop Fault.endless (visit compare data start cch p.cursor.block (p.cursor.block + totLen))
      fuel ⟨p.cursor.block + dwordUp p.cursor.len, componentIndex start length⟩
    match found with
    | none => pure (.leave none)
    | some cursor => pure (.again ⟨start.dropWhile (· != separator), cursor⟩)

/-- What the function returns, and what it leaves in `*ppv`. -/
structure Answer where
  returned : Int
  ppv : Option Nat
  deriving DecidableEq

def Answer.failed : Answer := ⟨-1, none⟩

def answer (c : Cursor) : Reader Answer := do
  let totLen ← readWord data (some c.block) c.block
  let valLen ← readWord data (some c.block) (c.block + 2)
  pure ⟨valLen, some (if c.off < totLen then c.block + c.off else c.block + 6 + c.cb)⟩

/-- The end of the function once the descent is over: it has failed, or has a block. -/
def conclude : Option Cursor → Reader Answer
  | none => pure Answer.failed
  | some cursor => answer data cursor

def lookup (fuel : Nat) (path : WString) : Reader Answer := do
  match ← acceptHeader data with
  | none => pure Answer.failed
  | some head =>
    let found ← loop Fault.endless (descendOnce compare data fuel) fuel ⟨path, head⟩
    conclude data found

end Descent

/-- `GetModuleVersionInfo`. `ppv` and `pwszSubBlock` may be null, and there may be no
resource to be found or loaded. Both loops are cut off after `fuel` rounds. -/
def getModuleVersionInfo (compare : Compare) (fuel : Nat) (ppv : Bool)
    (pwszSubBlock : Option (CText WChar)) (resource : Option (List UInt8)) : Reader Answer :=
  if ppv = false then pure Answer.failed
  else
    match pwszSubBlock, resource with
    | some path, some data =>
      if data.length = 0 then pure Answer.failed else lookup compare data fuel path.chars
    | _, _ => pure Answer.failed

theorem getModuleVersionInfo_entered (compare : Compare) (fuel : Nat) (path : CText WChar)
    {data : List UInt8} (nonempty : data.length ≠ 0) :
    getModuleVersionInfo compare fuel true (some path) (some data) =
      lookup compare data fuel path.chars := by
  unfold getModuleVersionInfo
  rw [if_neg (by decide)]
  exact if_neg nonempty

theorem le_dwordUp (x : Nat) : x ≤ dwordUp x := by
  unfold dwordUp
  omega

/-- Each round of the loop over the path takes at least one character of a component. -/
theorem rest_shorter {path rest : WString} {c : WChar}
    (start : path.dropWhile (· == separator) = c :: rest) :
    c ≠ separator ∧ ((c :: rest).dropWhile (· != separator)).length < path.length := by
  have head := List.head?_dropWhile_not (· == separator) path
  rw [start] at head
  have inner : c ≠ separator := by simpa using head
  have dropped : ((c :: rest).dropWhile (· != separator)).length ≤ rest.length := by
    rw [List.dropWhile_cons, if_pos (by simpa using inner)]
    exact List.length_dropWhile_le _ _
  have whole := List.length_dropWhile_le (· == separator) path
  rw [start, List.length_cons] at whole
  exact ⟨inner, by omega⟩

section ReadSpecs

variable {data : List UInt8} {block : Option Nat}

theorem touch_run {pos size : Nat} (inside : pos + size ≤ data.length) (log : List Access) :
    (touch data block pos size).run log = .done () (⟨pos, size, block⟩ :: log) := by
  simp [touch, inside]

theorem readWord_run {pos : Nat} (inside : pos + 2 ≤ data.length) (log : List Access) :
    (readWord data block pos).run log = .done (wordAt data pos) (⟨pos, 2, block⟩ :: log) := by
  simp [readWord, touch_run inside]

theorem readDword_run {pos : Nat} (inside : pos + 4 ≤ data.length) (log : List Access) :
    (readDword data block pos).run log = .done (dwordAt data pos) (⟨pos, 4, block⟩ :: log) := by
  simp [readDword, touch_run inside]

/-- The first NUL among `n` characters, as the number of bytes before it. -/
def KeyLength (data : List UInt8) (s n : Nat) : Option Nat → Prop
  | none => ∀ j < n, wordAt data (s + 2 * j) ≠ 0
  | some cb => ∃ k < n, cb = 2 * k ∧ wordAt data (s + 2 * k) = 0 ∧
      ∀ j < k, wordAt data (s + 2 * j) ≠ 0

/-- Every read since `log` lies in this range, and is made for this block. -/
def ReadsWithin (lo hi : Nat) (block : Option Nat) (log log' : List Access) : Prop :=
  ∀ a ∈ log', a ∈ log ∨ lo ≤ a.pos ∧ a.pos + a.size ≤ hi ∧ a.block = block

private theorem scan_returns (s : Nat) (n i : Nat) (inside : s + 2 * (i + n) ≤ data.length)
    (before : ∀ j < i, wordAt data (s + 2 * j) ≠ 0) (log : List Access) :
    Returns (scan data block s n i) log fun r log' =>
      KeyLength data s (i + n) r ∧ ReadsWithin s (s + 2 * (i + n)) block log log' := by
  induction n generalizing i log with
  | zero => exact returns_pure ⟨before, fun a member => .inl member⟩
  | succ n ih =>
    have range : s + 2 * i + 2 ≤ data.length := by omega
    apply returns_bind_of_run (readWord_run range log)
    have here : ReadsWithin s (s + 2 * (i + (n + 1))) block log (⟨s + 2 * i, 2, block⟩ :: log) := by
      intro a member
      rcases List.mem_cons.mp member with rfl | old
      · exact .inr ⟨by show s ≤ s + 2 * i; omega, by show s + 2 * i + 2 ≤ _; omega, rfl⟩
      · exact .inl old
    by_cases zero : wordAt data (s + 2 * i) = 0
    · rw [if_pos zero]
      exact returns_pure ⟨⟨i, by omega, rfl, zero, before⟩, here⟩
    · rw [if_neg zero]
      have earlier : ∀ j < i + 1, wordAt data (s + 2 * j) ≠ 0 := by
        intro j hj
        rcases Nat.lt_succ_iff_lt_or_eq.mp hj with less | rfl
        · exact before j less
        · exact zero
      apply (ih (i + 1) (by omega) earlier _).mono
      rintro r log' ⟨key, within⟩
      rw [show i + 1 + n = i + (n + 1) by omega] at key within
      refine ⟨key, fun a member => ?_⟩
      rcases within a member with old | new
      · exact here a old
      · exact .inr new

theorem stringCbLengthW_returns (data : List UInt8) (block : Option Nat) (s cbMax : Nat)
    (inside : s + cbMax ≤ data.length) (log : List Access) :
    Returns (stringCbLengthW data block s cbMax) log fun r log' =>
      KeyLength data s (cbMax / 2) r ∧ ReadsWithin s (s + cbMax) block log log' := by
  apply (scan_returns s (cbMax / 2) 0 (by omega) (fun j hj => absurd hj (by omega)) log).mono
  rintro r log' ⟨key, within⟩
  rw [Nat.zero_add] at key within
  refine ⟨key, fun a member => (within a member).imp_right ?_⟩
  rintro ⟨lo, hi, same⟩
  exact ⟨lo, by omega, same⟩

end ReadSpecs

end LoginHelper.VersionInfo
