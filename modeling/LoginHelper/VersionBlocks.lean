/- Unit: LoginHelper/VersionBlocks
   source: src/loginhelper/versioninfo.c
   digest: The blocks of any resource, and what the walk over them finds and reads. -/

import LoginHelper.Foundation.Records
import LoginHelper.VersionTree

set_option autoImplicit false
set_option relaxedAutoImplicit false

namespace LoginHelper.VersionBlocks

open LoginHelper.Foundation.Execution LoginHelper.Foundation.Loops
open LoginHelper.Foundation.Records
open LoginHelper.Windows.ProcessEnvironment
open LoginHelper.VersionInfo LoginHelper.VersionTree

section Bytes

variable (data : List UInt8) (b : Nat)

/-- The first NUL among `n` characters. -/
def firstNul (s n : Nat) : Option Nat := (List.range n).find? fun j => wordAt data (s + 2 * j) = 0

def keyChars : Option Nat := firstNul data (b + 6) ((wordAt data b - 6) / 2)

def keyLength : Nat := (keyChars data b).getD 0

def keyEnd : Nat := dwordUp (8 + 2 * keyLength data b)

/-- `off + wValLen` -/
def lenEnd : Nat := keyEnd data b + wordAt data (b + 2)

def cursorAt : Cursor := ⟨b, keyEnd data b, lenEnd data b, 2 * keyLength data b⟩

/-- The conditions of the loop over the children on the block at `b`, with `stop` bytes left. -/
structure WellFormed (stop : Nat) : Prop where
  room : b + 8 ≤ stop
  large : 8 ≤ wordAt data b
  fits : b + wordAt data b ≤ stop
  key : (keyChars data b).isSome
  value : lenEnd data b ≤ wordAt data b

instance (stop : Nat) : Decidable (WellFormed data b stop) :=
  decidable_of_iff (b + 8 ≤ stop ∧ 8 ≤ wordAt data b ∧ b + wordAt data b ≤ stop ∧
      (keyChars data b).isSome ∧ lenEnd data b ≤ wordAt data b)
    ⟨fun ⟨room, large, fits, key, value⟩ => ⟨room, large, fits, key, value⟩,
      fun ⟨room, large, fits, key, value⟩ => ⟨room, large, fits, key, value⟩⟩

end Bytes

theorem WellFormed.mono {data : List UInt8} {b stop stop' : Nat} (here : WellFormed data b stop)
    (more : stop ≤ stop') : WellFormed data b stop' :=
  ⟨here.room.trans more, here.large, here.fits.trans more, here.key, here.value⟩

/-- The well formed blocks that follow each other from `pos` on, up to `stop`. -/
def siblings (data : List UInt8) (stop pos : Nat) : List Nat :=
  if WellFormed data pos stop then
    pos :: siblings data stop (pos + dwordUp (wordAt data pos))
  else []
termination_by stop - pos
decreasing_by
  rename_i here
  have step := le_dwordUp (wordAt data pos)
  have room := here.room
  have large := here.large
  omega

def childrenOf (data : List UInt8) (b : Nat) : List Nat :=
  siblings data (b + wordAt data b) (b + dwordUp (lenEnd data b))

section Selection

variable (compare : Compare) (data : List UInt8)

/-- What comparing the component with the key of the block at `b` comes to. -/
def comparison (start : WString) (cch : Int) (b : Nat) : Int :=
  compare start cch (keyText data (b + 6) (2 * keyLength data b)) (keyLength data b : Nat)

/-- The block that a component selects: by its number, or as the first one whose key compares
equal, unless the comparison fails before. -/
def select (c : Component) (blocks : List Nat) : Option Nat :=
  match c.number with
  | some n => blocks[n]?
  | none =>
    let ncmp := comparison compare data c.start (BitVec.ofNat 32 c.length).toInt
    (blocks.find? fun b => ncmp b = 0 ∨ ncmp b = 2).filter fun b => ncmp b = 2

def selectFrom (start : WString) (cch : Int) : Int → List Nat → Option Nat
  | _, [] => none
  | index, b :: rest =>
    if 0 ≤ index then if index = 0 then some b else selectFrom start cch (index - 1) rest
    else if comparison compare data start cch b = 0 then none
    else if comparison compare data start cch b = 2 then some b
    else selectFrom start cch index rest

private theorem selectFrom_number (start : WString) (cch : Int) (n : Nat) (blocks : List Nat) :
    selectFrom compare data start cch n blocks = blocks[n]? := by
  induction blocks generalizing n with
  | nil => rfl
  | cons b rest ih =>
    rw [selectFrom, if_pos (by omega)]
    cases n with
    | zero => rfl
    | succ n =>
      rw [if_neg (by omega), show ((n + 1 : Nat) : Int) - 1 = (n : Int) by omega, ih,
        List.getElem?_cons_succ]

private theorem selectFrom_named (start : WString) (cch : Int) {index : Int} (named : index < 0)
    (blocks : List Nat) : selectFrom compare data start cch index blocks =
      (blocks.find? fun b => comparison compare data start cch b = 0 ∨
        comparison compare data start cch b = 2).filter
          fun b => comparison compare data start cch b = 2 := by
  induction blocks with
  | nil => rfl
  | cons b rest ih =>
    rw [selectFrom, if_neg (by omega), List.find?_cons]
    by_cases failed : comparison compare data start cch b = 0
    · simp [failed, Option.filter_some]
    by_cases equal : comparison compare data start cch b = 2
    · simp [equal, Option.filter_some]
    · simp [failed, equal, ih]

theorem select_eq {c : WChar} (inner : c ≠ separator) (rest : WString) (blocks : List Nat) :
    let start := c :: rest
    let length := (start.takeWhile (· != separator)).length
    select compare data ⟨start, length⟩ blocks =
      selectFrom compare data start (BitVec.ofNat 32 length).toInt (componentIndex start length)
        blocks := by
  intro start length
  unfold select
  rcases componentIndex_number inner rest with ⟨n, index, number⟩ | ⟨named, number⟩
  · rw [number, index, selectFrom_number]
  · rw [number, selectFrom_named compare data start _ named]

end Selection

/-- A read made for the children of `block`, which begin at `pos` and have room. -/
structure ChildRead (block pos stop : Nat) (a : Access) : Prop where
  made : a.block = some block
  behind : pos ≤ a.pos
  room : pos + 8 ≤ stop

section Reads

variable {data : List UInt8} {block : Option Nat} {P : Access → Prop}

theorem touch_adds {pos size : Nat} (kind : P ⟨pos, size, block⟩) :
    (touch data block pos size).Keeps (Adds P) := by
  intro log
  unfold touch
  rw [bind_run, readState_run, Outcome.andThen_done, ite_run]
  split
  · exact (Adds.refl P log).cons kind
  · exact trivial

theorem readDword_adds {pos : Nat} (kind : P ⟨pos, 4, block⟩) :
    (readDword data block pos).Keeps (Adds P) :=
  keeps_bind (adds_isFrame P) (touch_adds kind) fun _ => keeps_pure (adds_isFrame P) _

theorem readWord_adds {pos : Nat} (kind : P ⟨pos, 2, block⟩) :
    (readWord data block pos).Keeps (Adds P) :=
  keeps_bind (adds_isFrame P) (touch_adds kind) fun _ => keeps_pure (adds_isFrame P) _

private theorem scan_adds {s : Nat} (kind : ∀ i, P ⟨s + 2 * i, 2, block⟩) (n i : Nat) :
    (scan data block s n i).Keeps (Adds P) := by
  induction n generalizing i with
  | zero => exact keeps_pure (adds_isFrame P) _
  | succ n ih =>
    apply keeps_bind (adds_isFrame P) (readWord_adds (kind i))
    intro c
    exact keeps_ite _ (keeps_pure (adds_isFrame P) _) (ih (i + 1))

theorem stringCbLengthW_adds {s cbMax : Nat} (kind : ∀ i, P ⟨s + 2 * i, 2, block⟩) :
    (stringCbLengthW data block s cbMax).Keeps (Adds P) := scan_adds kind _ _

end Reads

section Children

variable (compare : Compare) {data : List UInt8} (start : WString) (cch : Int)
variable {block pos stop : Nat}

private theorem choose_adds (next : Nat) {found : Cursor} (index : Int)
    (kind : ChildRead block pos stop ⟨found.block + 6, found.cb, some block⟩) :
    (choose compare data start cch block next found index).Keeps
      (Adds (ChildRead block pos stop)) := by
  have frame := adds_isFrame (ChildRead block pos stop)
  apply keeps_ite _ (keeps_ite _ (keeps_pure frame _) (keeps_pure frame _))
  apply keeps_bind frame (touch_adds kind)
  intro _
  exact keeps_ite _ (keeps_pure frame _) (keeps_ite _ (keeps_pure frame _) (keeps_pure frame _))

private def visitSized (data : List UInt8) (block stop totLen : Nat) (s : Walk) :
    Reader (Round Walk (Option Cursor)) :=
  if totLen < 8 ∨ stop - s.sub < totLen then pure (.leave none)
  else do
    match ← stringCbLengthW data (some block) (s.sub + 6) (totLen - 6) with
    | none => pure (.leave none)
    | some cb => visitKey compare data start cch block totLen cb s

private theorem visitSized_adds {s : Walk} (behind : pos ≤ s.sub) (room : pos + 8 ≤ stop)
    (totLen : Nat) : (visitSized compare start cch data block stop totLen s).Keeps
      (Adds (ChildRead block pos stop)) := by
  have frame := adds_isFrame (ChildRead block pos stop)
  have kind (p size : Nat) (later : s.sub ≤ p) : ChildRead block pos stop ⟨p, size, some block⟩ :=
    ⟨rfl, by show pos ≤ p; omega, room⟩
  apply keeps_ite _ (keeps_pure frame _)
  apply keeps_bind frame (stringCbLengthW_adds fun i => kind _ _ (by omega))
  intro key
  cases key with
  | none => exact keeps_pure frame _
  | some cb =>
    apply keeps_bind frame (readWord_adds (kind _ _ (by omega)))
    intro valLen
    apply keeps_ite _ (keeps_pure frame _)
    exact choose_adds compare start cch _ _ (kind _ _ (by show s.sub ≤ s.sub + 6; omega))

private theorem visit_adds {s : Walk} (behind : pos ≤ s.sub) :
    (visit compare data start cch block stop s).Keeps (Adds (ChildRead block pos stop)) := by
  have frame := adds_isFrame (ChildRead block pos stop)
  unfold visit
  split
  · exact keeps_pure frame _
  rename_i room
  apply keeps_bind frame (readWord_adds ⟨rfl, behind, by omega⟩)
  exact visitSized_adds compare start cch behind (by omega)

private theorem visit_first {s : Walk} (room : s.sub + 8 ≤ stop) (inside : stop ≤ data.length)
    {log log' : List Access} {round : Round Walk (Option Cursor)}
    (run : (visit compare data start cch block stop s).run log = .done round log') :
    ⟨s.sub, 2, some block⟩ ∈ log' := by
  rw [visit, if_neg (by omega), bind_run, readWord_run (by omega), Outcome.andThen_done] at run
  have sized : (visitSized compare start cch data block stop (wordAt data s.sub) s).run
      (⟨s.sub, 2, some block⟩ :: log) = .done round log' := run
  have rest : (visitSized compare start cch data block stop (wordAt data s.sub) s).Keeps
      (Adds (ChildRead block s.sub stop)) :=
    visitSized_adds compare start cch (le_refl s.sub) room _
  have grown := rest (⟨s.sub, 2, some block⟩ :: log)
  rw [sized] at grown
  exact Adds.kept grown List.mem_cons_self

theorem firstNul_eq {s n : Nat} {r : Option Nat} (key : KeyLength data s n r) :
    r = (firstNul data s n).map (2 * ·) := by
  unfold firstNul
  cases r with
  | none =>
    have absent : (List.range n).find? (fun j => wordAt data (s + 2 * j) = 0) = none := by
      rw [List.find?_eq_none]
      intro j member
      simpa using key j (List.mem_range.mp member)
    rw [absent, Option.map_none]
  | some cb =>
    obtain ⟨k, small, rfl, zero, before⟩ := key
    have first : (List.range n).find? (fun j => wordAt data (s + 2 * j) = 0) = some k := by
      rw [List.find?_range_eq_some]
      refine ⟨by simpa using zero, List.mem_range.mpr small, ?_⟩
      intro j less
      simpa using before j less
    rw [first, Option.map_some]

theorem keyChars_lt {b k : Nat} (key : keyChars data b = some k) :
    k < (wordAt data b - 6) / 2 :=
  List.mem_range.mp (List.mem_of_find?_eq_some key)

def roundAt (data : List UInt8) (next b : Nat) (index : Int) : Round Walk (Option Cursor) :=
  if 0 ≤ index then
    if index = 0 then .leave (some (cursorAt data b)) else .again ⟨next, index - 1⟩
  else if comparison compare data start cch b = 0 then .leave none
  else if comparison compare data start cch b = 2 then .leave (some (cursorAt data b))
  else .again ⟨next, index⟩

private theorem choose_round (next : Nat) {b : Nat} (index : Int)
    (inside : b + 6 + 2 * keyLength data b ≤ data.length) (log : List Access) :
    Returns (choose compare data start cch block next (cursorAt data b) index) log fun round _ =>
      round = roundAt compare start cch data next b index := by
  unfold choose roundAt
  split
  · split
    · exact returns_pure rfl
    · exact returns_pure rfl
  · apply returns_bind_of_run (touch_run inside log)
    have count : (cursorAt data b).cb / 2 = keyLength data b :=
      Nat.mul_div_cancel_left _ (by decide)
    have compared : compare start cch
        (keyText data ((cursorAt data b).block + 6) (cursorAt data b).cb)
        (((cursorAt data b).cb / 2 : Nat) : Int) = comparison compare data start cch b := by
      rw [count]
      rfl
    rw [compared]
    dsimp only
    split
    · exact returns_pure rfl
    split
    · exact returns_pure rfl
    · exact returns_pure rfl

private theorem visit_round (inside : stop ≤ data.length) (s : Walk) (log : List Access) :
    Returns (visit compare data start cch block stop s) log fun round _ =>
      round = if WellFormed data s.sub stop then
          roundAt compare start cch data (s.sub + dwordUp (wordAt data s.sub)) s.sub s.index
        else .leave none := by
  have stopped (log : List Access) (malformed : ¬ WellFormed data s.sub stop) :
      Returns (pure (.leave none) : Reader (Round Walk (Option Cursor))) log fun round _ =>
        round = if WellFormed data s.sub stop then
            roundAt compare start cch data (s.sub + dwordUp (wordAt data s.sub)) s.sub s.index
          else .leave none :=
    returns_pure (if_neg malformed).symm
  unfold visit
  split
  case isTrue beyond => exact stopped log fun here => by have := here.room; omega
  case isFalse room =>
    apply returns_bind_of_run (readWord_run (by omega) log)
    split
    case isTrue wrong =>
      exact stopped _ fun here => by have := here.large; have := here.fits; omega
    case isFalse sized =>
      refine (stringCbLengthW_returns data (some block) (s.sub + 6) (wordAt data s.sub - 6)
        (by omega) _).bind ?_
      rintro r log' ⟨scanned, -⟩
      obtain rfl := firstNul_eq scanned
      cases key : keyChars data s.sub with
      | none =>
        rw [show firstNul data (s.sub + 6) ((wordAt data s.sub - 6) / 2) = none from key]
        exact stopped log' fun here => by
          have some := here.key
          rw [key] at some
          cases some
      | some k =>
        rw [show firstNul data (s.sub + 6) ((wordAt data s.sub - 6) / 2) = some k from key]
        show Returns (visitKey compare data start cch block (wordAt data s.sub) (2 * k) s) log' _
        have small := keyChars_lt key
        have length : keyLength data s.sub = k := by rw [keyLength, key, Option.getD_some]
        have cursor : Cursor.mk s.sub (dwordUp (8 + 2 * k)) (dwordUp (8 + 2 * k) +
            wordAt data (s.sub + 2)) (2 * k) = cursorAt data s.sub := by
          rw [cursorAt, lenEnd, keyEnd, length]
        apply returns_bind_of_run (readWord_run (by omega) log')
        have value : dwordUp (8 + 2 * k) + wordAt data (s.sub + 2) = lenEnd data s.sub := by
          rw [lenEnd, keyEnd, length]
        split
        case isTrue long =>
          exact stopped _ fun here => by have := here.value; omega
        case isFalse holds =>
          have here : WellFormed data s.sub stop :=
            ⟨by omega, by omega, by omega, by rw [key]; rfl, by omega⟩
          rw [if_pos here, cursor]
          exact choose_round compare start cch _ s.index (by rw [length]; omega) _

private theorem siblings_eq (stop pos : Nat) : siblings data stop pos =
    if WellFormed data pos stop then
      pos :: siblings data stop (pos + dwordUp (wordAt data pos))
    else [] := by
  rw [siblings]

theorem visit_loop_selects {fuel : Nat} (inside : stop ≤ data.length) (enough : stop - pos < fuel)
    (index : Int) (log : List Access) :
    Returns (loop Fault.endless (visit compare data start cch block stop) fuel ⟨pos, index⟩) log
      fun found log' =>
        found = (selectFrom compare data start cch index (siblings data stop pos)).map
          (cursorAt data) ∧
        Adds (ChildRead block pos stop) log log' ∧
        (pos + 8 ≤ stop → ⟨pos, 2, some block⟩ ∈ log') := by
  let target := selectFrom compare data start cch index (siblings data stop pos)
  let inv (s : Walk) (log' : List Access) : Prop := pos ≤ s.sub ∧
    selectFrom compare data start cch s.index (siblings data stop s.sub) = target ∧
    Adds (ChildRead block pos stop) log log' ∧
    (s.sub = pos ∨ (⟨pos, 2, some block⟩ : Access) ∈ log')
  refine loop_returns Fault.endless inv (fun s => stop - s.sub) _ ?_ enough
    ⟨le_refl pos, rfl, Adds.refl _ log, .inl rfl⟩
  rintro s log₁ ⟨behind, same, adds, first⟩
  have value : Returns (visit compare data start cch block stop s) log₁ _ :=
    visit_round compare start cch inside s log₁
  obtain ⟨round, log₂, run, rfl, more⟩ := returns_keeps value (visit_adds compare start cch behind)
  refine ⟨_, log₂, run, ?_⟩
  have grown := adds.trans more
  have begun (room : s.sub + 8 ≤ stop) : (⟨pos, 2, some block⟩ : Access) ∈ log₂ := by
    rcases first with rfl | old
    · exact visit_first compare start cch room inside run
    · exact more.kept old
  rw [siblings_eq] at same
  split
  case isFalse malformed =>
    rw [if_neg malformed] at same
    refine ⟨?_, grown, ?_⟩
    · show none = Option.map _ target
      rw [← same]
      rfl
    · intro room
      rcases first with here | old
      · exact begun (here ▸ room)
      · exact more.kept old
  case isTrue here =>
    rw [if_pos here, selectFrom] at same
    have step := le_dwordUp (wordAt data s.sub)
    have room := here.room
    have large := here.large
    have ends (cursor : Option Cursor) (selected : Option.map (cursorAt data) target = cursor) :
        cursor = Option.map (cursorAt data) target ∧ Adds (ChildRead block pos stop) log log₂ ∧
          (pos + 8 ≤ stop → (⟨pos, 2, some block⟩ : Access) ∈ log₂) :=
      ⟨selected.symm, grown, fun _ => begun room⟩
    have goes (index : Int) (same : selectFrom compare data start cch index
          (siblings data stop (s.sub + dwordUp (wordAt data s.sub))) = target) :
        inv ⟨s.sub + dwordUp (wordAt data s.sub), index⟩ log₂ ∧
          stop - (s.sub + dwordUp (wordAt data s.sub)) < stop - s.sub :=
      ⟨⟨by show pos ≤ s.sub + _; omega, same, grown, .inr (begun room)⟩, by omega⟩
    -- the cases of the round are those of `selectFrom`
    unfold roundAt
    split
    case isTrue numbered =>
      rw [if_pos numbered] at same
      split
      case isTrue zero =>
        rw [if_pos zero] at same
        exact ends _ (by rw [← same]; rfl)
      case isFalse other =>
        rw [if_neg other] at same
        exact goes _ same
    case isFalse named =>
      rw [if_neg named] at same
      split
      case isTrue failed =>
        rw [if_pos failed] at same
        exact ends _ (by rw [← same]; rfl)
      case isFalse compared =>
        rw [if_neg compared] at same
        split
        case isTrue equal =>
          rw [if_pos equal] at same
          exact ends _ (by rw [← same]; rfl)
        case isFalse other =>
          rw [if_neg other] at same
          exact goes _ same

theorem siblings_wellFormed {stop pos b : Nat} (member : b ∈ siblings data stop pos) :
    WellFormed data b stop := by
  fun_induction siblings data stop pos with
  | case1 pos here ih =>
    rcases List.mem_cons.mp member with rfl | later
    · exact here
    · exact ih later
  | case2 pos malformed => cases member

theorem select_mem {c : Component} {blocks : List Nat} {b : Nat}
    (selected : select compare data c blocks = some b) : b ∈ blocks := by
  unfold select at selected
  split at selected
  · exact List.mem_of_getElem? selected
  · obtain ⟨found, -⟩ := Option.filter_eq_some_iff.mp selected
    exact List.mem_of_find?_eq_some found

end Children

end LoginHelper.VersionBlocks
