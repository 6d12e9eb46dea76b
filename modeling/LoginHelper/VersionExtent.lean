/- Unit: LoginHelper/VersionExtent
   source: src/loginhelper/versioninfo.c
   digest: Where values end, and the texts along a path whose end the walk mistakes. -/

import LoginHelper.VersionBlocks

set_option autoImplicit false
set_option relaxedAutoImplicit false

namespace LoginHelper.VersionExtent

open LoginHelper.Foundation.Execution LoginHelper.Foundation.Loops
open LoginHelper.Foundation.Records
open LoginHelper.Windows.ProcessEnvironment
open LoginHelper.VersionInfo LoginHelper.VersionTree LoginHelper.VersionBlocks

section Extent

variable (data : List UInt8)

def valueSize (b : Nat) : Nat :=
  if wordAt data (b + 4) = 1 then 2 * wordAt data (b + 2) else wordAt data (b + 2)

/-- The byte at `i` belongs to the value of the block at `b`. -/
def InValue (b i : Nat) : Prop :=
  b + keyEnd data b ≤ i ∧ i < b + keyEnd data b + valueSize data b

def OffValue (a : Access) : Prop :=
  ∀ b, a.block = some b → ∀ i, a.pos ≤ i → i < a.pos + a.size → ¬ InValue data b i

def AllOffValue (log : List Access) : Prop := ∀ a ∈ log, OffValue data a

/-- The block of an answer, which was the last one read, holds the whole of its value, and
so does the resource behind the pointer. -/
def ValueInside (a : Answer) (log : List Access) : Prop :=
  ∀ pos, a.ppv = some pos → ∃ b earlier, log = ⟨b + 2, 2, some b⟩ :: earlier ∧
    keyEnd data b + valueSize data b ≤ wordAt data b ∧ pos + valueSize data b ≤ data.length

/-- No value reaches out of the block that is answered for, and none is taken for blocks. -/
def ExtentHonoured (compare : Compare) (fuel : Nat) (path : CText WChar) : Prop :=
  ∀ a log, (getModuleVersionInfo compare fuel true (some path) (some data)).run [] = .done a log →
    ValueInside data a log ∧ AllOffValue data log

/-- The function goes on behind the header. -/
structure HeaderAccepted : Prop where
  resource : wordAt data 0 ≤ data.length
  large : 92 ≤ wordAt data 0
  small : wordAt data 0 ≤ 0x7fff
  type : wordAt data 4 = 0
  valLen : wordAt data 2 = 52
  key : (keyChars data 0).isSome
  keyEnd : keyEnd data 0 = 40
  signature : dwordAt data 40 = 0xFEEF04BD

/-- A text that goes on behind the place its length in bytes points to, with room for the
head of a block there. -/
structure TextOverrun (b : Nat) : Prop where
  text : wordAt data (b + 4) = 1
  long : 3 ≤ wordAt data (b + 2)
  room : dwordUp (lenEnd data b) + 8 ≤ wordAt data b

/-- A text with more characters than its block has room for. -/
structure TextCut (b : Nat) : Prop where
  text : wordAt data (b + 4) = 1
  short : wordAt data b < keyEnd data b + 2 * wordAt data (b + 2)

/-- From the block at `b` on no text is in the way, and the path does not end at a cut one. -/
def Unobstructed (compare : Compare) : Nat → List Component → Prop
  | b, [] => ¬ TextCut data b
  | b, c :: rest => ¬ TextOverrun data b ∧
      ∀ child, select compare data c (childrenOf data b) = some child →
        Unobstructed compare child rest

end Extent

section Walks

variable {data : List UInt8}

private theorem AllOffValue.cons {a : Access} {log : List Access} :
    AllOffValue data (a :: log) ↔ OffValue data a ∧ AllOffValue data log := List.forall_mem_cons

private theorem offValue_head {b pos : Nat} (head : pos + 2 ≤ b + 8) :
    OffValue data ⟨pos, 2, some b⟩ := by
  rintro _ ⟨⟩ i - last ⟨first, -⟩
  dsimp only at last
  have key := le_dwordUp (8 + 2 * keyLength data b)
  rw [keyEnd] at first
  omega

/-- Looking at the children of a block reads from its value exactly when the value is a text
that overruns them. -/
private theorem allOffValue_children {b : Nat} {log log' : List Access}
    (grown : Adds (ChildRead b (b + dwordUp (lenEnd data b)) (b + wordAt data b))
      (⟨b, 2, some b⟩ :: log) log')
    (first : b + dwordUp (lenEnd data b) + 8 ≤ b + wordAt data b →
      ⟨b + dwordUp (lenEnd data b), 2, some b⟩ ∈ log') :
    AllOffValue data log' ↔ AllOffValue data log ∧ ¬ TextOverrun data b := by
  have aligned : keyEnd data b % 4 = 0 := Nat.mul_mod_left _ 4
  constructor
  · intro all
    refine ⟨fun a member => all a (grown.kept (List.mem_cons_of_mem _ member)), ?_⟩
    rintro ⟨text, long, room⟩
    refine all _ (first (by omega)) b rfl (b + dwordUp (lenEnd data b)) (le_refl _)
      (Nat.lt_add_of_pos_right Nat.two_pos) ⟨?_, ?_⟩
    · have step := le_dwordUp (lenEnd data b)
      unfold lenEnd at step ⊢
      omega
    · rw [valueSize, if_pos text]
      unfold lenEnd dwordUp
      omega
  · rintro ⟨all, clear⟩ a member
    rcases grown.old_or_new member with old | new
    · rcases List.mem_cons.mp old with rfl | old
      · exact offValue_head (by omega)
      · exact all a old
    · intro b' searched i start _ inValue
      rw [new.made] at searched
      obtain rfl := Option.some.inj searched
      have behind := new.behind
      have room := new.room
      have last := inValue.2
      have step := le_dwordUp (lenEnd data b)
      unfold valueSize at last
      split at last
      case isTrue text =>
        have short : ¬ 3 ≤ wordAt data (b + 2) := fun long => clear ⟨text, long, by omega⟩
        unfold lenEnd dwordUp at behind
        omega
      case isFalse =>
        unfold lenEnd at step behind
        omega

private def Unsearched (a : Access) : Prop := a.block = none

private theorem acceptHeader_adds : (acceptHeader data).Keeps (Adds Unsearched) := by
  have frame := adds_isFrame Unsearched
  apply keeps_bind frame (readWord_adds rfl)
  intro totLen
  apply keeps_ite _ (keeps_pure frame _)
  apply keeps_bind frame (readWord_adds rfl)
  intro type
  apply keeps_ite _ (keeps_pure frame _)
  apply keeps_bind frame (readWord_adds rfl)
  intro valLen
  apply keeps_ite _ (keeps_pure frame _)
  apply keeps_bind frame (stringCbLengthW_adds fun _ => rfl)
  intro key
  cases key with
  | none => exact keeps_pure frame _
  | some cb =>
    apply keeps_ite _ (keeps_pure frame _)
    apply keeps_bind frame (readDword_adds rfl)
    intro signature
    exact keeps_ite _ (keeps_pure frame _) (keeps_ite _ (keeps_pure frame _) (keeps_pure frame _))

def HeaderDecided (data : List UInt8) (head : Option Cursor) : Prop :=
  HeaderAccepted data ∧ head = some (cursorAt data 0) ∨ ¬ HeaderAccepted data ∧ head = none

private theorem acceptSignature_decides {k : Nat} (resource : wordAt data 0 ≤ data.length)
    (large : 92 ≤ wordAt data 0) (small : wordAt data 0 ≤ 0x7fff) (type : wordAt data 4 = 0)
    (valLen : wordAt data 2 = 52) (key : keyChars data 0 = some k) (off : dwordUp (8 + 2 * k) = 40)
    (log : List Access) :
    Returns (acceptSignature data (wordAt data 0) (wordAt data 2) (2 * k)) log
      fun head _ => HeaderDecided data head := by
  have length : keyLength data 0 = k := by rw [keyLength, key, Option.getD_some]
  have end_ : keyEnd data 0 = 40 := by rw [keyEnd, length, off]
  apply returns_bind_of_run (readDword_run (by omega) log)
  split
  case isTrue other => exact returns_pure (.inr ⟨fun accepted => other accepted.signature, rfl⟩)
  case isFalse signature =>
    rw [if_neg (by omega)]
    refine returns_pure (.inl ⟨⟨resource, large, small, type, valLen, ?_, end_, ?_⟩, ?_⟩)
    · rw [key]
      rfl
    · exact not_not.mp signature
    · rw [cursorAt, lenEnd, end_, length]

private theorem acceptKey_decides (resource : wordAt data 0 ≤ data.length)
    (large : 92 ≤ wordAt data 0) (small : wordAt data 0 ≤ 0x7fff) (type : wordAt data 4 = 0)
    (valLen : wordAt data 2 = 52) (log : List Access) :
    Returns (acceptKey data (wordAt data 0) (wordAt data 2)) log
      fun head _ => HeaderDecided data head := by
  apply (stringCbLengthW_returns data none 6 (wordAt data 0 - 6) (by omega) log).bind
  rintro r log' ⟨scanned, -⟩
  obtain rfl := firstNul_eq scanned
  cases key : keyChars data 0 with
  | none =>
    rw [show firstNul data 6 ((wordAt data 0 - 6) / 2) = none from key]
    refine returns_pure (.inr ⟨fun accepted => ?_, rfl⟩)
    have some := accepted.key
    rw [key] at some
    cases some
  | some k =>
    rw [show firstNul data 6 ((wordAt data 0 - 6) / 2) = some k from key]
    show Returns (if dwordUp (8 + 2 * k) ≠ 40 then pure none
      else acceptSignature data (wordAt data 0) (wordAt data 2) (2 * k)) log' _
    split
    case isTrue other =>
      refine returns_pure (.inr ⟨fun accepted => other ?_, rfl⟩)
      have end_ := accepted.keyEnd
      rwa [keyEnd, keyLength, key, Option.getD_some] at end_
    case isFalse off =>
      exact acceptSignature_decides resource large small type valLen key (not_not.mp off) log'

private theorem acceptHeader_decides (readable : 2 ≤ data.length) (log : List Access) :
    Returns (acceptHeader data) log fun head log' =>
      HeaderDecided data head ∧ Adds Unsearched log log' := by
  refine returns_keeps ?_ acceptHeader_adds
  have refused {log : List Access} (h : ¬ HeaderAccepted data) :
      Returns (pure none : Reader (Option Cursor)) log fun head _ => HeaderDecided data head :=
    returns_pure (.inr ⟨h, rfl⟩)
  apply returns_bind_of_run (readWord_run (by omega) log)
  split
  case isTrue outside =>
    exact refused fun ⟨resource, large, small, _, _, _, _, _⟩ => by omega
  case isFalse inside =>
    apply returns_bind_of_run (readWord_run (by omega) _)
    split
    case isTrue other => exact refused fun accepted => other accepted.type
    case isFalse type =>
      apply returns_bind_of_run (readWord_run (by omega) _)
      split
      case isTrue other => exact refused fun accepted => other accepted.valLen
      case isFalse valLen =>
        exact acceptKey_decides (by omega) (by omega) (by omega) (not_not.mp type)
          (not_not.mp valLen) _

section Path

variable (compare : Compare) (target : Prop)

def PathInv (data : List UInt8) (p : Position) (log : List Access) : Prop :=
  ∃ b, p.cursor = cursorAt data b ∧ WellFormed data b (wordAt data 0) ∧
    (target ↔ AllOffValue data log ∧
      Unobstructed data compare b (components separator p.path))

def PathPost (data : List UInt8) : Option Cursor → List Access → Prop
  | none, log => target ↔ AllOffValue data log
  | some c, log => ∃ b, c = cursorAt data b ∧ WellFormed data b (wordAt data 0) ∧
      (target ↔ AllOffValue data log ∧ ¬ TextCut data b)

private theorem descendOnce_decides (resource : wordAt data 0 ≤ data.length) {fuel : Nat}
    (enough : data.length < fuel) (p : Position) (log : List Access)
    (inv : PathInv compare target data p log) :
    Returns (descendOnce compare data fuel p) log
      (RoundPost (PathInv compare target data) (fun p => p.path.length) (PathPost target data)
        p) := by
  obtain ⟨path, _⟩ := p
  obtain ⟨b, rfl, here, decides⟩ := inv
  have large := here.large
  have fits := here.fits
  dsimp only at decides
  rw [components_dropWhile] at decides
  unfold descendOnce
  cases rest : path.dropWhile (· == separator) with
  | nil =>
    rw [rest] at decides
    exact returns_pure ⟨b, rfl, here, decides⟩
  | cons c tail =>
    obtain ⟨inner, shorter⟩ := rest_shorter rest
    rw [rest, components_start inner] at decides
    apply returns_bind_of_run (readWord_run (by show b + 2 ≤ data.length; omega) log)
    refine (visit_loop_selects compare (c :: tail) _ (by show b + wordAt data b ≤ _; omega)
      (by show b + wordAt data b - _ < fuel; omega) _ _).bind ?_
    rintro found log' ⟨same, grown, first⟩
    rw [← select_eq compare data inner tail] at same
    have searched : target ↔ AllOffValue data log' ∧
        ∀ child, select compare data ⟨c :: tail, ((c :: tail).takeWhile (· != separator)).length⟩
          (childrenOf data b) = some child → Unobstructed data compare child
            (components separator ((c :: tail).dropWhile (· != separator))) := by
      rw [allOffValue_children grown first, and_assoc]
      exact decides
    have same : found = (select compare data
        ⟨c :: tail, ((c :: tail).takeWhile (· != separator)).length⟩ (childrenOf data b)).map
          (cursorAt data) := same
    cases selected : select compare data
        ⟨c :: tail, ((c :: tail).takeWhile (· != separator)).length⟩ (childrenOf data b) with
    | none =>
      rw [selected] at searched same
      obtain rfl := same
      exact returns_pure (searched.trans (and_iff_left fun child absent => by cases absent))
    | some child =>
      rw [selected] at searched same
      obtain rfl := same
      have inside : WellFormed data child (wordAt data 0) :=
        (siblings_wellFormed (select_mem compare selected)).mono fits
      refine returns_pure ⟨⟨child, rfl, inside, searched.trans ?_⟩, shorter⟩
      exact and_congr_right fun _ => ⟨fun all => all child rfl, fun onward _ same => by
        obtain rfl := Option.some.inj same
        exact onward⟩

end Path

private theorem not_textCut_iff {b : Nat} (value : lenEnd data b ≤ wordAt data b) :
    ¬ TextCut data b ↔ keyEnd data b + valueSize data b ≤ wordAt data b := by
  unfold valueSize
  split
  case isTrue text =>
    constructor
    · intro whole
      by_contra short
      exact whole ⟨text, by omega⟩
    · intro inside cut
      exact absurd cut.short (Nat.not_lt_of_le inside)
  case isFalse bytes => exact iff_of_true (fun cut => bytes cut.text) value

private theorem pointer_room {b : Nat} (value : lenEnd data b ≤ wordAt data b)
    (inside : keyEnd data b + valueSize data b ≤ wordAt data b) :
    (if keyEnd data b < wordAt data b then b + keyEnd data b
      else b + 6 + 2 * keyLength data b) + valueSize data b ≤ b + wordAt data b := by
  split
  case isTrue => omega
  case isFalse full =>
    have key : 8 + 2 * keyLength data b ≤ keyEnd data b := le_dwordUp _
    have empty : valueSize data b = 0 := by
      unfold lenEnd at value
      unfold valueSize
      split <;> omega
    omega

private theorem answer_decides {target : Prop} (resource : wordAt data 0 ≤ data.length)
    {c : Cursor} {log : List Access} (reached : PathPost target data (some c) log) :
    Returns (answer data c) log fun a log' =>
      target ↔ ValueInside data a log' ∧ AllOffValue data log' := by
  obtain ⟨b, rfl, here, decides⟩ := reached
  have large := here.large
  have fits := here.fits
  apply returns_bind_of_run (readWord_run (by show b + 2 ≤ data.length; omega) log)
  apply returns_bind_of_run (readWord_run (by show b + 2 + 2 ≤ data.length; omega) _)
  refine returns_pure (decides.trans ?_)
  rw [not_textCut_iff here.value, AllOffValue.cons, AllOffValue.cons]
  have totLen : OffValue data ⟨b, 2, some b⟩ := offValue_head (by omega)
  have valLen : OffValue data ⟨b + 2, 2, some b⟩ := offValue_head (by omega)
  constructor
  · rintro ⟨all, inside⟩
    refine ⟨?_, valLen, totLen, all⟩
    rintro pos ⟨⟩
    have room := pointer_room here.value inside
    exact ⟨b, _, rfl, inside, room.trans (by omega)⟩
  · rintro ⟨answered, -, -, all⟩
    obtain ⟨b', earlier, last, inside, -⟩ := answered _ rfl
    have same : b + 2 = b' + 2 := congrArg Access.pos (List.cons.inj last).1
    obtain rfl : b = b' := by omega
    exact ⟨all, inside⟩

private theorem failed_decides {target : Prop} {log : List Access}
    (decides : target ↔ AllOffValue data log) :
    target ↔ ValueInside data Answer.failed log ∧ AllOffValue data log :=
  decides.trans (and_iff_right fun pos none => by cases none).symm

private theorem lookup_decides (compare : Compare) (path : WString) {fuel : Nat}
    (readable : 2 ≤ data.length) (enough : data.length + path.length < fuel) :
    Returns (lookup compare data fuel path) [] fun a log =>
      (HeaderAccepted data → Unobstructed data compare 0 (components separator path)) ↔
        ValueInside data a log ∧ AllOffValue data log := by
  apply (acceptHeader_decides readable []).bind
  rintro head log ⟨decided, grown⟩
  have off : AllOffValue data log := by
    intro a member b searched
    rcases grown.old_or_new member with old | new
    · cases old
    · rw [new] at searched
      cases searched
  rcases decided with ⟨accepted, rfl⟩ | ⟨refused, rfl⟩
  · have condition : (HeaderAccepted data →
        Unobstructed data compare 0 (components separator path)) ↔
          AllOffValue data log ∧ Unobstructed data compare 0 (components separator path) :=
      ⟨fun h => ⟨off, h accepted⟩, fun h _ => h.2⟩
    have large := accepted.large
    have value : lenEnd data 0 = 92 := by
      rw [lenEnd, accepted.keyEnd, Nat.zero_add, accepted.valLen]
    have root : WellFormed data 0 (wordAt data 0) :=
      ⟨by omega, by omega, by omega, accepted.key, by omega⟩
    refine (loop_returns Fault.endless (PathInv compare _ data) (fun p => p.path.length)
      (PathPost _ data) (descendOnce_decides compare _ accepted.resource (by omega))
      (by show path.length < fuel; omega) ⟨0, rfl, root, condition⟩).bind ?_
    intro found log' reached
    cases found with
    | none => exact returns_pure (failed_decides reached)
    | some c => exact answer_decides accepted.resource reached
  · exact returns_pure (failed_decides ⟨fun _ => off, fun _ accepted => absurd accepted refused⟩)

private theorem refused_of_short (short : data.length < 2) : ¬ HeaderAccepted data := by
  intro accepted
  have resource := accepted.resource
  have large := accepted.large
  omega

private theorem one_byte_undefined (compare : Compare) (fuel : Nat) (path : CText WChar)
    (one : data.length = 1) :
    (getModuleVersionInfo compare fuel true (some path) (some data)).run [] =
      .undefined .outsideResource := by
  simp [getModuleVersionInfo, lookup, acceptHeader, readWord, touch, one, goUndefined,
    Outcome.andThen]

end Walks

/-- The extents of values are honoured exactly when the path leads past no text that goes on
behind its length in bytes where a block could begin, and to no text that its own block cuts
off: lengths of texts count characters, and the walk takes them for bytes. -/
theorem extentHonoured_iff (compare : Compare) (data : List UInt8) (path : CText WChar)
    (fuel : Nat) (enough : data.length + path.chars.length < fuel) :
    (data.length ≠ 1 → ∃ a log,
      (getModuleVersionInfo compare fuel true (some path) (some data)).run [] = .done a log) ∧
    (ExtentHonoured data compare fuel path ↔
      (HeaderAccepted data → Unobstructed data compare 0 (components separator path.chars))) := by
  rcases Nat.lt_or_ge data.length 2 with short | readable
  · have refused := refused_of_short short
    rw [iff_true_right fun accepted => absurd accepted refused]
    by_cases one : data.length = 1
    · refine ⟨fun other => absurd one other, ?_⟩
      intro a log run
      rw [one_byte_undefined compare fuel path one] at run
      cases run
    · have entered : getModuleVersionInfo compare fuel true (some path) (some data) =
          pure Answer.failed := by
        unfold getModuleVersionInfo
        rw [if_neg (by decide)]
        exact if_pos (by omega)
      rw [entered]
      refine ⟨fun _ => ⟨_, _, rfl⟩, ?_⟩
      intro a log run
      rw [entered] at run
      cases run
      exact ⟨nofun, List.forall_mem_nil _⟩
  · have nonempty : data.length ≠ 0 := by omega
    obtain ⟨a, log, run, decides⟩ := lookup_decides compare path.chars readable enough
    rw [ExtentHonoured, getModuleVersionInfo_entered compare fuel path nonempty]
    refine ⟨fun _ => ⟨a, log, run⟩, ?_⟩
    rw [decides]
    constructor
    · intro honoured
      exact honoured a log run
    · intro holds a' log' run'
      obtain ⟨rfl, rfl⟩ := Outcome.done.inj (run.symm.trans run')
      exact holds

/-- A version resource whose last block, a text under `B`, is cut off in the middle: of its
four characters it holds two. -/
def cutText : List UInt8 :=
  [0x6C, 0, 52, 0, 0, 0] ++ (wide "VS_VERSION_INFO").flatMap (fun c => [c.toUInt8, 0]) ++
    [0, 0, 0, 0, 0xBD, 0x04, 0xEF, 0xFE] ++ List.replicate 48 0 ++
    [16, 0, 4, 0, 1, 0, 66, 0, 0, 0, 0, 0, 120, 0, 121, 0]

private theorem pathB_noNul : (0 : WChar) ∉ wide "\\B" := by decide

def pathB : CText WChar := ⟨wide "\\B", pathB_noNul⟩

theorem extentHonoured_iff_cutText :
    (cutText.length ≠ 1 → ∃ a log,
      (getModuleVersionInfo asciiCompare 200 true (some pathB) (some cutText)).run [] =
        .done a log) ∧
    (ExtentHonoured cutText asciiCompare 200 pathB ↔ (HeaderAccepted cutText →
      Unobstructed cutText asciiCompare 0 (components separator pathB.chars))) :=
  extentHonoured_iff asciiCompare cutText pathB 200 (by decide)

private def ending : Outcome Empty Fault (List Access) Answer → Option (Answer × Option Access)
  | .done a log => some (a, log.head?)
  | .threw _ _ => none
  | .undefined _ => none

/-- The function answers for the cut text, and its value goes on behind the resource. -/
theorem cutText_not_honoured : ¬ ExtentHonoured cutText asciiCompare 200 pathB := by
  intro honoured
  have ends : ending ((getModuleVersionInfo asciiCompare 200 true (some pathB)
      (some cutText)).run []) = some (⟨4, some 104⟩, some ⟨94, 2, some 92⟩) := by decide +kernel
  cases run : (getModuleVersionInfo asciiCompare 200 true (some pathB) (some cutText)).run [] with
  | done a log =>
    rw [run] at ends
    obtain ⟨rfl, head⟩ := Prod.mk.inj (Option.some.inj ends)
    obtain ⟨b, earlier, rfl, -, room⟩ := (honoured _ log run).1 104 rfl
    have last : (⟨b + 2, 2, some b⟩ : Access) = ⟨94, 2, some 92⟩ := Option.some.inj head
    obtain rfl : b = 92 := Option.some.inj (congrArg Access.block last)
    exact absurd room (by decide +kernel)
  | threw e log => cases e
  | undefined fault =>
    rw [run] at ends
    cases ends

end LoginHelper.VersionExtent
