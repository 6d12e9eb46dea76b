/- Unit: LoginHelper/VersionTree
   source: src/loginhelper/versioninfo.c
   digest: Version trees and their resources, paths, and the node that a path leads to. -/

import LoginHelper.VersionInfo

set_option autoImplicit false
set_option relaxedAutoImplicit false

namespace LoginHelper.VersionTree

open LoginHelper.Windows.ProcessEnvironment
open LoginHelper.Windows.Runtime (wcstol wcstol_stop)
open LoginHelper.VersionInfo

/-- The value of a node: bytes, or characters. -/
inductive Value
  | binary (bytes : List UInt8)
  | text (chars : WString)

namespace Value

/-- `wType` -/
def type : Value → Nat
  | .binary _ => 0
  | .text _ => 1

/-- `wValLen`, which counts the bytes of the one kind and the characters of the other. -/
def length : Value → Nat
  | .binary bytes => bytes.length
  | .text chars => chars.length

def bytes : Value → List UInt8
  | .binary bytes => bytes
  | .text chars => chars.flatMap fun c : WChar => [c.toUInt8, (c >>> 8).toUInt8]

end Value

/-- A node of a version tree, with the place of its block in the resource. -/
structure Block where
  start : Nat
  totLen : Nat
  key : CText WChar
  value : Value
  children : List Block

namespace Block

variable (b : Block)

def keyEnd : Nat := dwordUp (8 + 2 * b.key.chars.length)

def valueEnd : Nat := b.keyEnd + b.value.bytes.length

def HoldsText : Prop := b.children = [] ∧ ∃ c chars, b.value = .text (c :: chars)

/-- Where the value is: at the terminator of the key when the block ends behind the key. -/
def valuePosition : Nat :=
  if b.totLen = b.keyEnd then b.start + 6 + 2 * b.key.chars.length else b.start + b.keyEnd

end Block

/-- The blocks follow each other from `pos` on, each at an aligned distance behind the one
before it, and the last one reaches up to `stop`. -/
def Consecutive : Nat → List Block → Nat → Prop
  | pos, [], stop => stop ≤ pos
  | pos, b :: rest, stop =>
    b.start = pos ∧ pos + b.totLen ≤ stop ∧ Consecutive (pos + dwordUp b.totLen) rest stop

instance decidableConsecutive : (pos : Nat) → (blocks : List Block) → (stop : Nat) →
    Decidable (Consecutive pos blocks stop)
  | pos, [], stop => inferInstanceAs (Decidable (stop ≤ pos))
  | pos, b :: rest, stop =>
    have := decidableConsecutive (pos + dwordUp b.totLen) rest stop
    inferInstanceAs (Decidable (_ ∧ _ ∧ Consecutive (pos + dwordUp b.totLen) rest stop))

def StoredAt (data : List UInt8) (pos : Nat) (bytes : List UInt8) : Prop :=
  ∀ i (h : i < bytes.length), byteAt data (pos + i) = bytes[i].toNat

instance (data : List UInt8) (pos : Nat) (bytes : List UInt8) :
    Decidable (StoredAt data pos bytes) :=
  inferInstanceAs (Decidable (∀ i, ∀ h : i < bytes.length, byteAt data (pos + i) = bytes[i].toNat))

/-- The resource holds the block of one node. Padding may hold anything. -/
structure BlockAt (data : List UInt8) (b : Block) : Prop where
  inside : b.start + b.totLen ≤ data.length
  totLen : wordAt data b.start = b.totLen
  valLen : wordAt data (b.start + 2) = b.value.length
  type : wordAt data (b.start + 4) = b.value.type
  key : ∀ i (h : i < b.key.chars.length),
    wordAt data (b.start + 6 + 2 * i) = b.key.chars[i].toNat
  terminator : wordAt data (b.start + 6 + 2 * b.key.chars.length) = 0
  value : StoredAt data (b.start + b.keyEnd) b.value.bytes
  covered : b.valueEnd ≤ b.totLen
  plain : b.children ≠ [] → b.value.type = 0 ∨ b.value.bytes = []
  placed : Consecutive (b.start + dwordUp b.valueEnd) b.children (b.start + b.totLen)

/-- The resource holds the block and those of all nodes below it. -/
inductive Laid (data : List UInt8) : Block → Prop
  | block (b : Block) (here : BlockAt data b) (children : ∀ c ∈ b.children, Laid data c) :
      Laid data b

/-- The root of a version resource. -/
structure IsVersion (b : Block) : Prop where
  start : b.start = 0
  small : b.totLen ≤ 0x7fff
  key : b.key.chars = wide "VS_VERSION_INFO"
  fixedFileInfo : ∃ rest, b.value = .binary ([0xBD, 0x04, 0xEF, 0xFE] ++ rest) ∧ rest.length = 48

/-- A component of a path: the text from its first character on, and how many of its
characters are the component. -/
structure Component where
  start : WString
  length : Nat

def Component.text (c : Component) : WString := c.start.take c.length

/-- The components: one begins at each character that is no separator and has none before
it. `previous` is the character before the path, as it were. -/
def components (previous : WChar) : WString → List Component
  | [] => []
  | c :: rest =>
    if previous = separator ∧ c ≠ separator then
      ⟨c :: rest, ((c :: rest).takeWhile (· != separator)).length⟩ :: components c rest
    else components c rest

/-- The number a component asks for: 0 with `*`, and with `#` the one written behind it. -/
def Component.number (c : Component) : Option Nat :=
  if c.text = wide "*" then some 0
  else if c.text.head? = some 35 then
    let r := wcstol c.text.tail
    if r.consumed = c.text.tail.length ∧ 0 ≤ r.value then some r.value.toNat else none
  else none

section Lookup

variable (compare : Compare)

def Component.Matches (c : Component) (key : WString) : Prop :=
  compare c.start (BitVec.ofNat 32 c.length).toInt key key.length = 2

instance (c : Component) (key : WString) : Decidable (c.Matches compare key) :=
  inferInstanceAs (Decidable (_ = _))

def Component.pick (c : Component) (children : List Block) : Option Block :=
  match c.number with
  | some n => children[n]?
  | none => children.find? fun b => c.Matches compare b.key.chars

/-- The node that the components lead to. -/
def descend (b : Block) : List Component → Option Block
  | [] => some b
  | c :: rest => (c.pick compare b.children).bind fun child => descend child rest

/-- What the function ought to answer for a node, or for none. -/
def expected : Option Block → Answer
  | some b => ⟨b.value.length, some b.valuePosition⟩
  | none => Answer.failed

end Lookup

theorem components_dropWhile (path : WString) :
    components separator path = components separator (path.dropWhile (· == separator)) := by
  induction path with
  | nil => rfl
  | cons c rest ih =>
    by_cases sep : c = separator
    · rw [List.dropWhile_cons, if_pos (by simpa using sep), ← ih, components,
        if_neg (fun h => h.2 sep), sep]
    · rw [List.dropWhile_cons, if_neg (by simpa using sep)]

private theorem components_inside (path : WString) {previous : WChar}
    (inner : previous ≠ separator) :
    components previous path = components separator (path.dropWhile (· != separator)) := by
  induction path generalizing previous with
  | nil => rfl
  | cons c rest ih =>
    rw [components, if_neg (fun h => inner h.1)]
    by_cases sep : c = separator
    · rw [List.dropWhile_cons, if_neg (by simpa using sep), components,
        if_neg (fun h => h.2 sep)]
    · rw [List.dropWhile_cons, if_pos (by simpa using sep), ih sep]

theorem components_start {c : WChar} (inner : c ≠ separator) (rest : WString) :
    components separator (c :: rest) =
      ⟨c :: rest, ((c :: rest).takeWhile (· != separator)).length⟩ ::
        components separator ((c :: rest).dropWhile (· != separator)) := by
  rw [components, if_pos ⟨rfl, inner⟩, List.dropWhile_cons, if_pos (by simpa using inner),
    components_inside rest inner]

private theorem splitOnP_separator (rest : WString) :
    (separator :: rest).splitOnP (· == separator) = [] :: rest.splitOnP (· == separator) :=
  List.splitOnP_append_cons [] rest (by decide)

theorem components_text (path : WString) :
    (components separator path).map Component.text =
      (path.splitOnP (· == separator)).filter (· ≠ []) := by
  induction length : path.length using Nat.strong_induction_on generalizing path with
  | _ n ih =>
    subst length
    cases path with
    | nil => rfl
    | cons c rest =>
      by_cases sep : c = separator
      · subst sep
        rw [components, if_neg (fun h => h.2 rfl), splitOnP_separator]
        exact ih rest.length (Nat.lt_succ_self _) rest rfl
      · have start : (c :: rest).dropWhile (· == separator) = c :: rest :=
          List.dropWhile_cons_of_neg (by simpa using sep)
        have shorter := (rest_shorter start).2
        have split : (c :: rest).takeWhile (· != separator) ++
            (c :: rest).dropWhile (· != separator) = c :: rest := List.takeWhile_append_dropWhile
        have text : Component.text ⟨c :: rest, ((c :: rest).takeWhile (· != separator)).length⟩ =
            (c :: rest).takeWhile (· != separator) :=
          (List.prefix_iff_eq_take.mp (List.takeWhile_prefix _)).symm
        have inner : ∀ x ∈ (c :: rest).takeWhile (· != separator), (x == separator) = false := by
          intro x member
          simpa using List.mem_takeWhile_imp member
        have nonempty : (c :: rest).takeWhile (· != separator) ≠ [] := by
          rw [List.takeWhile_cons, if_pos (by simpa using sep)]
          exact List.cons_ne_nil _ _
        rw [components_start sep rest, List.map_cons, text, ih _ shorter _ rfl]
        generalize (c :: rest).takeWhile (· != separator) = first at *
        cases behind : (c :: rest).dropWhile (· != separator) with
        | nil =>
          rw [behind, List.append_nil] at split
          rw [← split, List.splitOnP_eq_singleton inner]
          simp [nonempty]
        | cons s later =>
          have head := List.head?_dropWhile_not (· != separator) (c :: rest)
          rw [behind] at head
          obtain rfl : s = separator := by simpa using head
          rw [behind] at split
          rw [← split, List.splitOnP_append_cons_of_forall_mem inner separator (by decide),
            splitOnP_separator]
          simp [nonempty]

/-- The rest of a path behind a component is empty or begins with a separator, and no
number goes on behind it. -/
private theorem wcstol_component (t : WString) (p : WString) :
    wcstol (t ++ p.dropWhile (· != separator)) = wcstol t := by
  cases rest : p.dropWhile (· != separator) with
  | nil => rw [List.append_nil]
  | cons c rest' =>
    have head := List.head?_dropWhile_not (· != separator) p
    rw [rest] at head
    have sep : c = separator := by simpa using head
    subst sep
    exact wcstol_stop (by decide) (by decide) (by decide) t rest'

theorem componentIndex_number {c : WChar} (inner : c ≠ separator) (rest : WString) :
    let start := c :: rest
    let component : Component := ⟨start, (start.takeWhile (· != separator)).length⟩
    (∃ n : Nat, componentIndex start component.length = n ∧ component.number = some n) ∨
      componentIndex start component.length < 0 ∧ component.number = none := by
  intro start component
  have text : component.text = start.takeWhile (· != separator) :=
    (List.prefix_iff_eq_take.mp (List.takeWhile_prefix _)).symm
  have head : start.takeWhile (· != separator) = c :: rest.takeWhile (· != separator) := by
    rw [List.takeWhile_cons, if_pos (by simpa using inner)]
  have same : wcstol (start.drop 1) = wcstol (rest.takeWhile (· != separator)) := by
    have split : start.drop 1 =
        rest.takeWhile (· != separator) ++ rest.dropWhile (· != separator) :=
      List.takeWhile_append_dropWhile.symm
    rw [split, wcstol_component]
  have length : component.length = (rest.takeWhile (· != separator)).length + 1 := by
    show (start.takeWhile (· != separator)).length = _
    rw [head, List.length_cons]
  have first : start.take component.length = component.text := rfl
  have starred : component.text = c :: rest.takeWhile (· != separator) := text.trans head
  have number : component.number =
      if c :: rest.takeWhile (· != separator) = wide "*" then some 0
      else if some c = some 35 then
        let r := wcstol (rest.takeWhile (· != separator))
        if r.consumed = (rest.takeWhile (· != separator)).length ∧ 0 ≤ r.value then
          some r.value.toNat
        else none
      else none := by
    unfold Component.number
    rw [starred]
    rfl
  have index : componentIndex start component.length =
      if c :: rest.takeWhile (· != separator) = wide "*" then 0
      else if some c = some 35 then
        let r := wcstol (rest.takeWhile (· != separator))
        if r.consumed + 1 = (rest.takeWhile (· != separator)).length + 1 then r.value else -1
      else -1 := by
    unfold componentIndex
    rw [first, starred, same, length]
    rfl
  rw [number, index]
  generalize rest.takeWhile (· != separator) = t
  dsimp only
  generalize wcstol t = r
  by_cases star : c :: t = wide "*"
  · rw [if_pos star, if_pos star]
    exact .inl ⟨0, rfl, rfl⟩
  rw [if_neg star, if_neg star]
  by_cases hash : some c = some 35
  · rw [if_pos hash, if_pos hash]
    by_cases whole : r.consumed = t.length
    · rw [if_pos (by omega)]
      by_cases positive : 0 ≤ r.value
      · exact .inl ⟨r.value.toNat, (Int.toNat_of_nonneg positive).symm, if_pos ⟨whole, positive⟩⟩
      · exact .inr ⟨by omega, if_neg fun h => positive h.2⟩
    · rw [if_neg (by omega)]
      exact .inr ⟨by decide, if_neg fun h => whole h.1⟩
  · rw [if_neg hash, if_neg hash]
    exact .inr ⟨by decide, rfl⟩

theorem Value.length_le (v : Value) : v.length ≤ v.bytes.length := by
  cases v with
  | binary bytes => exact le_refl _
  | text chars =>
    show chars.length ≤ (chars.flatMap _).length
    induction chars with
    | nil => exact Nat.zero_le _
    | cons c chars ih =>
      rw [List.flatMap_cons, List.length_append]
      simp only [List.length_cons, List.length_nil]
      omega

theorem Value.length_eq {v : Value} (plain : v.type = 0 ∨ v.bytes = []) :
    v.length = v.bytes.length := by
  cases v with
  | binary bytes => rfl
  | text chars =>
    rcases plain with wrong | empty
    · cases wrong
    · have bound := Value.length_le (.text chars)
      rw [empty, List.length_nil] at bound
      rw [empty, List.length_nil]
      omega

def Block.cursor (b : Block) : Cursor :=
  ⟨b.start, b.keyEnd, b.keyEnd + b.value.length, 2 * b.key.chars.length⟩

section Blocks

variable {data : List UInt8} {b : Block}

theorem Laid.here (laid : Laid data b) : BlockAt data b := by
  cases laid with
  | block b here children => exact here

theorem Laid.child (laid : Laid data b) : ∀ c ∈ b.children, Laid data c := by
  cases laid with
  | block b here children => exact children

namespace BlockAt

variable (at_ : BlockAt data b)

include at_

theorem keyEnd_le : b.keyEnd ≤ b.totLen := by
  have covered := at_.covered
  unfold Block.valueEnd at covered
  omega

theorem key_room : 8 + 2 * b.key.chars.length ≤ b.totLen :=
  (le_dwordUp _).trans at_.keyEnd_le

theorem value_room : b.keyEnd + b.value.length ≤ b.totLen := by
  have covered := at_.covered
  have counted := Value.length_le b.value
  unfold Block.valueEnd at covered
  omega

theorem keyLength {r : Option Nat}
    (scanned : KeyLength data (b.start + 6) ((b.totLen - 6) / 2) r) :
    r = some (2 * b.key.chars.length) := by
  have room := at_.key_room
  have chars (i : Nat) (h : i < b.key.chars.length) : wordAt data (b.start + 6 + 2 * i) ≠ 0 := by
    rw [at_.key i h]
    intro zero
    have nul : b.key.chars[i] = 0 := UInt16.toNat_inj.mp zero
    exact b.key.nulFree (nul ▸ List.getElem_mem h)
  cases r with
  | none => exact absurd at_.terminator (scanned _ (by omega))
  | some cb =>
    obtain ⟨k, -, rfl, zero, before⟩ := scanned
    rcases Nat.lt_trichotomy k b.key.chars.length with less | same | more
    · exact absurd zero (chars k less)
    · rw [same]
    · exact absurd at_.terminator (before _ more)

theorem keyText : keyText data (b.start + 6) (2 * b.key.chars.length) = b.key.chars := by
  unfold VersionInfo.keyText
  apply List.ext_getElem
  · simp
  · intro i h h'
    rw [List.getElem_map, List.getElem_range, at_.key i h']
    exact UInt16.ofNat_toNat

end BlockAt

namespace IsVersion

variable (version : IsVersion b)

include version

theorem key_length : b.key.chars.length = 15 := by
  rw [version.key]
  rfl

theorem keyEnd : b.keyEnd = 40 := by
  rw [Block.keyEnd, version.key_length]
  rfl

theorem value_length : b.value.length = 52 := by
  obtain ⟨rest, value, size⟩ := version.fixedFileInfo
  rw [value]
  show ([0xBD, 0x04, 0xEF, 0xFE] ++ rest : List UInt8).length = 52
  simp [size]

theorem type : b.value.type = 0 := by
  obtain ⟨rest, value, -⟩ := version.fixedFileInfo
  rw [value]
  rfl

theorem signature (at_ : BlockAt data b) : dwordAt data 40 = 0xFEEF04BD := by
  obtain ⟨rest, value, -⟩ := version.fixedFileInfo
  have bytes : b.value.bytes = [0xBD, 0x04, 0xEF, 0xFE] ++ rest := by rw [value]; rfl
  have byte (i : Nat) (h : i < 4) : byteAt data (40 + i) =
      (([0xBD, 0x04, 0xEF, 0xFE] ++ rest : List UInt8).getD i 0).toNat := by
    have room : i < b.value.bytes.length := by rw [bytes]; simp; omega
    have read := at_.value i room
    rw [version.start, Nat.zero_add, version.keyEnd] at read
    rw [read, ← bytes, List.getD_eq_getElem _ _ room]
  have b0 : byteAt data 40 = 0xBD := byte 0 (by decide)
  have b1 : byteAt data 41 = 0x04 := byte 1 (by decide)
  have b2 : byteAt data 42 = 0xEF := byte 2 (by decide)
  have b3 : byteAt data 43 = 0xFE := byte 3 (by decide)
  simp only [dwordAt, wordAt, Nat.add_assoc, Nat.reduceAdd]
  omega

end IsVersion

end Blocks

end LoginHelper.VersionTree
