/- Unit: LoginHelper/VersionLookup
   source: src/loginhelper/versioninfo.c
   digest: On a version tree laid out in its resource, the walk answers for the node that the path leads to. -/

import LoginHelper.VersionTree

set_option autoImplicit false
set_option relaxedAutoImplicit false

namespace LoginHelper.VersionLookup

open LoginHelper.Foundation.Execution LoginHelper.Foundation.Loops
open LoginHelper.Windows.ProcessEnvironment
open LoginHelper.VersionInfo LoginHelper.VersionTree

section Walks

variable (compare : Compare) {data : List UInt8}

theorem visit_block {b : Block} (start : WString) (cch : Int) (block : Nat) {stop : Nat} {s : Walk}
    (at_ : BlockAt data b) (reached : b.start = s.sub) (fits : s.sub + b.totLen ≤ stop)
    (log : List Access) :
    ∃ log', (visit compare data start cch block stop s).run log =
      (choose compare data start cch block (s.sub + dwordUp b.totLen) b.cursor s.index).run log' := by
  have inside := at_.inside
  have room := at_.key_room
  have value := at_.value_room
  have totLen := at_.totLen
  have valLen := at_.valLen
  rw [reached] at inside totLen valLen
  obtain ⟨r, log', scan, scanned, -⟩ := stringCbLengthW_returns data (some block)
    (s.sub + 6) (b.totLen - 6) (by omega) (⟨s.sub, 2, some block⟩ :: log)
  obtain rfl := at_.keyLength (by rw [reached]; exact scanned)
  refine ⟨⟨s.sub + 2, 2, some block⟩ :: log', ?_⟩
  rw [visit, if_neg (by omega), bind_run, readWord_run (by omega), Outcome.andThen_done, totLen,
    ite_run, if_neg (by omega), bind_run, scan, Outcome.andThen_done]
  show (visitKey compare data start cch block b.totLen (2 * b.key.chars.length) s).run log' = _
  rw [visitKey, bind_run, readWord_run (by omega), Outcome.andThen_done, valLen, ite_run,
    if_neg (by show ¬ b.totLen < b.keyEnd + b.value.length; omega), ← reached]
  rfl

/-- The child the loop is after: the one the index counts down to, or the first that matches. -/
def pickFrom (start : WString) (cch : Int) : Int → List Block → Option Block
  | _, [] => none
  | index, b :: rest =>
    if 0 ≤ index then if index = 0 then some b else pickFrom start cch (index - 1) rest
    else if compare start cch b.key.chars b.key.chars.length = 2 then some b
    else pickFrom start cch index rest

private theorem pickFrom_number (start : WString) (cch : Int) (n : Nat) (children : List Block) :
    pickFrom compare start cch n children = children[n]? := by
  induction children generalizing n with
  | nil => rfl
  | cons b rest ih =>
    rw [pickFrom, if_pos (by omega)]
    cases n with
    | zero => rfl
    | succ n =>
      rw [if_neg (by omega), show ((n + 1 : Nat) : Int) - 1 = (n : Int) by omega, ih,
        List.getElem?_cons_succ]

private theorem pickFrom_named (start : WString) (cch : Int) {index : Int} (named : index < 0)
    (children : List Block) : pickFrom compare start cch index children =
      children.find? fun b => decide (compare start cch b.key.chars b.key.chars.length = 2) := by
  induction children with
  | nil => rfl
  | cons b rest ih =>
    rw [pickFrom, if_neg (by omega), List.find?_cons]
    by_cases same : compare start cch b.key.chars b.key.chars.length = 2
    · rw [if_pos same, decide_eq_true same]
    · rw [if_neg same, decide_eq_false same, ih]

theorem pick_eq {c : WChar} (inner : c ≠ separator) (rest : WString) (children : List Block) :
    let start := c :: rest
    let length := (start.takeWhile (· != separator)).length
    (Component.mk start length).pick compare children =
      pickFrom compare start (BitVec.ofNat 32 length).toInt (componentIndex start length)
        children := by
  intro start length
  unfold Component.pick
  rcases componentIndex_number inner rest with ⟨n, index, number⟩ | ⟨named, number⟩
  · rw [number, index, pickFrom_number]
  · rw [number, pickFrom_named compare start _ named]
    rfl

private theorem choose_block (compares : ∀ text n key m, compare text n key m ≠ 0)
    (start : WString) (cch : Int) (block next : Nat) {b : Block} (at_ : BlockAt data b)
    (index : Int) (log : List Access) :
    Returns (choose compare data start cch block next b.cursor index) log fun round _ =>
      round = if 0 ≤ index then
          if index = 0 then .leave (some b.cursor) else .again ⟨next, index - 1⟩
        else if compare start cch b.key.chars b.key.chars.length = 2 then .leave (some b.cursor)
        else .again ⟨next, index⟩ := by
  unfold choose
  by_cases numbered : 0 ≤ index
  · rw [if_pos numbered, if_pos numbered]
    by_cases zero : index = 0
    · rw [if_pos zero, if_pos zero]
      exact returns_pure rfl
    · rw [if_neg zero, if_neg zero]
      exact returns_pure rfl
  rw [if_neg numbered, if_neg numbered]
  have inside := at_.inside
  have room := at_.key_room
  have key : keyText data (b.cursor.block + 6) b.cursor.cb = b.key.chars := at_.keyText
  have count : b.cursor.cb / 2 = b.key.chars.length := Nat.mul_div_cancel_left _ (by decide)
  refine returns_bind_of_run (touch_run (by
    show b.start + 6 + 2 * b.key.chars.length ≤ data.length
    omega) log) ?_
  rw [key, count]
  dsimp only
  rw [if_neg (compares _ _ _ _)]
  by_cases same : compare start cch b.key.chars b.key.chars.length = 2
  · rw [if_pos same, if_pos same]
    exact returns_pure rfl
  · rw [if_neg same, if_neg same]
    exact returns_pure rfl

theorem visit_loop (compares : ∀ text n key m, compare text n key m ≠ 0)
    {start : WString} {cch : Int} {block stop pos fuel : Nat} {children : List Block} {index : Int}
    (placed : Consecutive pos children stop) (laid : ∀ c ∈ children, Laid data c)
    (enough : stop - pos < fuel) (log : List Access) :
    Returns (loop Fault.endless (visit compare data start cch block stop) fuel ⟨pos, index⟩) log
      fun found _ => found = (pickFrom compare start cch index children).map Block.cursor := by
  let inv (s : Walk) (_ : List Access) : Prop := ∃ rest, Consecutive s.sub rest stop ∧
    (∀ c ∈ rest, Laid data c) ∧
    pickFrom compare start cch s.index rest = pickFrom compare start cch index children
  refine loop_returns Fault.endless inv (fun s => stop - s.sub) _ ?_ enough
    ⟨children, placed, laid, rfl⟩
  rintro s log ⟨rest, placed, laid, same⟩
  cases rest with
  | nil =>
    have beyond : stop ≤ s.sub := placed
    unfold visit
    rw [if_pos (by omega)]
    apply returns_pure
    show none = Option.map _ _
    rw [← same]
    rfl
  | cons b rest =>
    obtain ⟨reached, fits, placed⟩ := placed
    have at_ := (laid b List.mem_cons_self).here
    obtain ⟨log', run⟩ := visit_block compare start cch block at_ reached fits log
    obtain ⟨round, log'', chosen, rfl⟩ :=
      choose_block compare compares start cch block (s.sub + dwordUp b.totLen) at_ s.index log'
    refine ⟨_, log'', run.trans chosen, ?_⟩
    have room := at_.key_room
    have step := le_dwordUp b.totLen
    have later : ∀ c ∈ rest, Laid data c := fun c member => laid c (List.mem_cons_of_mem b member)
    rw [pickFrom] at same
    -- the cases of the loop are those of `pickFrom`
    split
    · rename_i numbered
      rw [if_pos numbered] at same
      split
      · rename_i zero
        rw [if_pos zero] at same
        show some b.cursor = Option.map _ _
        rw [← same]
        rfl
      · rename_i more
        rw [if_neg more] at same
        exact ⟨⟨rest, placed, later, same⟩, by show stop - (s.sub + _) < stop - s.sub; omega⟩
    · rename_i named
      rw [if_neg named] at same
      split
      · rename_i equal
        rw [if_pos equal] at same
        show some b.cursor = Option.map _ _
        rw [← same]
        rfl
      · rename_i other
        rw [if_neg other] at same
        exact ⟨⟨rest, placed, later, same⟩, by show stop - (s.sub + _) < stop - s.sub; omega⟩

/-- No part of the path but the whole leads to a leaf with characters in it. -/
def Clear (b : Block) (path : List Component) : Prop :=
  ∀ before after, path = before ++ after → after ≠ [] →
    ∀ n, descend compare b before = some n → ¬ n.HoldsText

variable {compare}

private theorem Clear.here {b : Block} {c : Component} {path : List Component}
    (clear : Clear compare b (c :: path)) : ¬ b.HoldsText :=
  clear [] (c :: path) rfl (List.cons_ne_nil c path) b rfl

private theorem Clear.child {b child : Block} {c : Component} {path : List Component}
    (clear : Clear compare b (c :: path)) (picked : c.pick compare b.children = some child) :
    Clear compare child path := by
  intro before after split nonempty n reached
  apply clear (c :: before) after (by rw [split]; rfl) nonempty n
  rw [descend, picked]
  exact reached

private theorem pick_mem {c : Component} {children : List Block} {child : Block}
    (picked : c.pick compare children = some child) : child ∈ children := by
  unfold Component.pick at picked
  split at picked
  · exact List.mem_of_getElem? picked
  · exact List.mem_of_find?_eq_some picked

/-- The children of a block begin where the walk looks for them, unless the block is a
leaf with characters in it. -/
private theorem BlockAt.children_at {b : Block} (at_ : BlockAt data b) (clear : ¬ b.HoldsText) :
    b.keyEnd + b.value.length = b.valueEnd := by
  have plain : b.value.type = 0 ∨ b.value.bytes = [] := by
    by_cases leaf : b.children = []
    · cases value : b.value with
      | binary bytes => exact .inl rfl
      | text chars =>
        cases chars with
        | nil => exact .inr rfl
        | cons c chars => exact absurd ⟨leaf, c, chars, value⟩ clear
    · exact at_.plain leaf
  rw [Block.valueEnd, Value.length_eq plain]

private theorem BlockAt.children_placed {b : Block} (at_ : BlockAt data b)
    (start : b.keyEnd + b.value.length = b.valueEnd) :
    Consecutive (b.cursor.block + dwordUp b.cursor.len) b.children
      (b.cursor.block + wordAt data b.cursor.block) := by
  show Consecutive (b.start + dwordUp (b.keyEnd + b.value.length)) b.children
    (b.start + wordAt data b.start)
  rw [start, at_.totLen]
  exact at_.placed

private theorem descendOnce_loop (compares : ∀ text n key m, compare text n key m ≠ 0) {b : Block}
    (laid : Laid data b) {path : WString} (clear : Clear compare b (components separator path))
    {fuel : Nat} (enough : data.length + path.length < fuel) (log : List Access) :
    Returns (loop Fault.endless (descendOnce compare data fuel) fuel ⟨path, b.cursor⟩) log
      fun found _ =>
        found = (descend compare b (components separator path)).map Block.cursor ∧
        ∀ n, descend compare b (components separator path) = some n → Laid data n := by
  let target := descend compare b (components separator path)
  let inv (p : Position) (_ : List Access) : Prop := ∃ n, p.cursor = n.cursor ∧ Laid data n ∧
    Clear compare n (components separator p.path) ∧
    descend compare n (components separator p.path) = target
  refine loop_returns Fault.endless inv (fun p => p.path.length) _ ?_
    (show path.length < fuel by omega) ⟨b, rfl, laid, clear, rfl⟩
  rintro ⟨left, _⟩ log ⟨n, rfl, laid, clear, same⟩
  have at_ := laid.here
  have inside := at_.inside
  have room := at_.key_room
  simp only at clear same
  rw [components_dropWhile] at clear same
  unfold descendOnce
  cases rest : left.dropWhile (· == separator) with
  | nil =>
    rw [rest] at same
    refine returns_pure ⟨?_, fun m reached => ?_⟩
    · show some n.cursor = Option.map Block.cursor target
      rw [← same]
      rfl
    · have reached : target = some m := reached
      rw [← same] at reached
      obtain rfl := Option.some.inj reached
      exact laid
  | cons c tail =>
    obtain ⟨inner, shorter⟩ := rest_shorter rest
    rw [rest, components_start inner] at clear same
    have start := BlockAt.children_at at_ clear.here
    have header : n.cursor.block + 2 ≤ data.length := by
      show n.start + 2 ≤ data.length
      omega
    have short : n.cursor.block + wordAt data n.cursor.block ≤ data.length := by
      show n.start + wordAt data n.start ≤ data.length
      rw [at_.totLen]
      exact inside
    refine returns_bind_of_run (readWord_run header log) ?_
    refine (visit_loop compare compares (BlockAt.children_placed at_ start) laid.child
      (by omega) _).bind ?_
    rintro found log' rfl
    rw [← pick_eq compare inner tail]
    rw [descend] at same
    cases picked : (Component.mk (c :: tail) ((c :: tail).takeWhile (· != separator)).length).pick
        compare n.children with
    | none =>
      rw [picked] at same
      refine returns_pure ⟨?_, fun m reached => ?_⟩
      · show none = Option.map Block.cursor target
        rw [← same]
        rfl
      · have reached : target = some m := reached
        rw [← same] at reached
        cases reached
    | some child =>
      rw [picked] at same
      exact returns_pure ⟨⟨child, rfl, laid.child child (pick_mem picked), clear.child picked, same⟩,
        shorter⟩

theorem acceptHeader_version {root : Block} (at_ : BlockAt data root) (version : IsVersion root) :
    ∃ log, (acceptHeader data).run [] = .done (some root.cursor) log := by
  have zero := version.start
  have small := version.small
  have chars := version.key_length
  have keyEnd := version.keyEnd
  have length := version.value_length
  have inside := at_.inside
  have room := at_.value_room
  have totLen := at_.totLen
  have valLen := at_.valLen
  have type := at_.type
  rw [zero] at inside totLen valLen type
  rw [Nat.zero_add] at valLen type
  rw [version.type] at type
  obtain ⟨r, log, scan, scanned, -⟩ := stringCbLengthW_returns data none 6
    (root.totLen - 6) (by omega) [⟨2, 2, none⟩, ⟨4, 2, none⟩, ⟨0, 2, none⟩]
  obtain rfl := at_.keyLength (by rw [zero, Nat.zero_add]; exact scanned)
  rw [chars] at scan
  refine ⟨⟨40, 4, none⟩ :: log, ?_⟩
  have reached : (⟨0, 40, 40 + 52, 30⟩ : Cursor) = root.cursor := by
    rw [Block.cursor, zero, keyEnd, length, chars]
  rw [acceptHeader, bind_run, readWord_run (by omega), Outcome.andThen_done, totLen, ite_run,
    if_neg (by omega), bind_run, readWord_run (by omega), Outcome.andThen_done, type, ite_run,
    if_neg (by decide), bind_run, readWord_run (by omega), Outcome.andThen_done, valLen, length,
    ite_run, if_neg (by decide), acceptKey, bind_run, scan, Outcome.andThen_done]
  show (acceptSignature data root.totLen 52 30).run log = _
  rw [acceptSignature, bind_run, readDword_run (by omega), Outcome.andThen_done,
    version.signature at_, ite_run, if_neg (by decide), ite_run, if_neg (by omega),
    ← reached]
  rfl

theorem answer_block {b : Block} (at_ : BlockAt data b) (log : List Access) :
    ∃ log', (answer data b.cursor).run log = .done (expected (some b)) log' := by
  have inside := at_.inside
  have room := at_.key_room
  have full := at_.keyEnd_le
  have position : (if b.cursor.off < b.totLen then b.cursor.block + b.cursor.off
      else b.cursor.block + 6 + b.cursor.cb) = b.valuePosition := by
    unfold Block.valuePosition
    show (if b.keyEnd < b.totLen then b.start + b.keyEnd
      else b.start + 6 + 2 * b.key.chars.length) = _
    by_cases ends : b.totLen = b.keyEnd
    · rw [if_neg (by omega), if_pos ends]
    · rw [if_pos (by omega), if_neg ends]
  refine ⟨⟨b.start + 2, 2, some b.start⟩ :: ⟨b.start, 2, some b.start⟩ :: log, ?_⟩
  rw [answer, bind_run, readWord_run (by show b.start + 2 ≤ data.length; omega),
    Outcome.andThen_done, bind_run, readWord_run (by show b.start + 2 + 2 ≤ data.length; omega),
    Outcome.andThen_done, pure_run, show wordAt data b.cursor.block = b.totLen from at_.totLen,
    position, show wordAt data (b.cursor.block + 2) = b.value.length from at_.valLen]
  rfl

private theorem expected_failed (found : Option Block) :
    expected found = Answer.failed ↔ found = none := by
  cases found with
  | none => exact ⟨fun _ => rfl, fun _ => rfl⟩
  | some b =>
    constructor
    · intro same
      have negative : (b.value.length : Int) = -1 := congrArg Answer.returned same
      omega
    · intro absent
      cases absent

/-- On a version tree the function answers for the node that the path leads to, and fails
exactly when a component selects no child. -/
theorem getModuleVersionInfo_lookup (compare : Compare)
    (compares : ∀ text n key m, compare text n key m ≠ 0) (data : List UInt8) (root : Block)
    (laid : Laid data root) (version : IsVersion root) (path : CText WChar)
    (clear : Clear compare root (components separator path.chars)) (fuel : Nat)
    (enough : data.length + path.chars.length < fuel) :
    ∃ a log, (getModuleVersionInfo compare fuel true (some path) (some data)).run [] = .done a log ∧
      a = expected (descend compare root (components separator path.chars)) ∧
      (a = Answer.failed ↔ descend compare root (components separator path.chars) = none) := by
  have inside := laid.here.inside
  have room := laid.here.key_room
  rw [getModuleVersionInfo_entered compare fuel path (by omega)]
  obtain ⟨log, header⟩ := acceptHeader_version laid.here version
  obtain ⟨found, log', walk, rfl, reached⟩ := descendOnce_loop compares laid clear enough log
  have unfolded : (lookup compare data fuel path.chars).run [] =
      (conclude data ((descend compare root (components separator path.chars)).map
        Block.cursor)).run log' := by
    rw [lookup, bind_run, header, Outcome.andThen_done]
    show ((loop Fault.endless (descendOnce compare data fuel) fuel ⟨path.chars, root.cursor⟩).run
      log).andThen _ = _
    rw [walk]
    rfl
  cases target : descend compare root (components separator path.chars) with
  | none =>
    rw [target] at unfolded
    exact ⟨_, log', unfolded, rfl, expected_failed none⟩
  | some b =>
    rw [target] at unfolded
    obtain ⟨log'', answered⟩ := answer_block (reached b target).here log'
    exact ⟨_, log'', unfolded.trans answered, rfl, expected_failed (some b)⟩

end Walks

/-- A version resource with two children: bytes under `A`, a character under `B`. -/
def twoChildren : List UInt8 :=
  [0x7A, 0, 52, 0, 0, 0] ++ (wide "VS_VERSION_INFO").flatMap (fun c => [c.toUInt8, 0]) ++
    [0, 0, 0, 0, 0xBD, 0x04, 0xEF, 0xFE] ++ List.replicate 48 0 ++
    [13, 0, 1, 0, 0, 0, 65, 0, 0, 0, 0, 0, 7, 0, 0, 0] ++
    [14, 0, 1, 0, 1, 0, 66, 0, 0, 0, 0, 0, 120, 0]

def childA : Block := ⟨92, 13, ⟨wide "A", by decide⟩, .binary [7], []⟩

def childB : Block := ⟨108, 14, ⟨wide "B", by decide⟩, .text (wide "x"), []⟩

def rootAB : Block :=
  ⟨0, 122, ⟨wide "VS_VERSION_INFO", by decide⟩,
    .binary ([0xBD, 0x04, 0xEF, 0xFE] ++ List.replicate 48 0), [childA, childB]⟩

private theorem rootAB_laid : Laid twoChildren rootAB := by
  have a : BlockAt twoChildren childA :=
    ⟨by decide, by decide, by decide, by decide, by decide, by decide, by decide, by decide,
      by decide, by decide⟩
  have b : BlockAt twoChildren childB :=
    ⟨by decide, by decide, by decide, by decide, by decide, by decide, by decide, by decide,
      by decide, by decide⟩
  have root : BlockAt twoChildren rootAB :=
    ⟨by decide, by decide, by decide, by decide, by decide +kernel, by decide, by decide +kernel,
      by decide, fun _ => .inl rfl, by decide⟩
  refine .block _ root ?_
  intro c member
  rcases List.mem_cons.mp member with rfl | member
  · exact .block _ a fun c none => absurd none List.not_mem_nil
  · obtain rfl := List.mem_singleton.mp member
    exact .block _ b fun c none => absurd none List.not_mem_nil

private theorem asciiCompare_succeeds (text : WString) (n : Int) (key : WString) (m : Int) :
    asciiCompare text n key m ≠ 0 := by
  unfold asciiCompare
  dsimp only
  split
  · decide
  · split <;> decide

theorem getModuleVersionInfo_lookup_twoChildren : ∃ log,
    (getModuleVersionInfo asciiCompare 200 true (some ⟨wide "\\b", by decide⟩)
      (some twoChildren)).run [] = .done ⟨1, some 120⟩ log := by
  have clear : Clear asciiCompare rootAB (components separator (wide "\\b")) := by
    rintro before after split nonempty n reached ⟨leaf, -⟩
    cases before with
    | nil =>
      obtain rfl := Option.some.inj reached
      cases leaf
    | cons c before =>
      have length := congrArg List.length split
      have one : (components separator (wide "\\b")).length = 1 := by decide
      rw [one, List.length_append, List.length_cons] at length
      exact nonempty (List.length_eq_zero_iff.mp (by omega))
  obtain ⟨a, log, run, rfl, -⟩ := getModuleVersionInfo_lookup asciiCompare asciiCompare_succeeds
    twoChildren rootAB rootAB_laid
    ⟨rfl, by decide, rfl, List.replicate 48 0, rfl, List.length_replicate⟩
    ⟨wide "\\b", by decide⟩ clear 200 (by decide)
  have answer : expected (descend asciiCompare rootAB (components separator (wide "\\b"))) =
      ⟨1, some 120⟩ := by decide +kernel
  exact ⟨log, answer ▸ run⟩

end LoginHelper.VersionLookup
