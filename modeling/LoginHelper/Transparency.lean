/- Unit: LoginHelper/Transparency
   source: the hooks of src/loginhelper/LoginOtp.h and src/loginhelper/Lobby.h under any game
   digest: What the game asks of a hooked function reaches the original once, in every interleaving. -/

import LoginHelper.Machine

set_option autoImplicit false
set_option relaxedAutoImplicit false

namespace LoginHelper.Transparency

open LoginHelper.Foundation.Execution LoginHelper.Foundation.Runs
open LoginHelper.Data LoginHelper.Calls LoginHelper.LoginOtp LoginHelper.Lobby
open LoginHelper.Hooks LoginHelper.Machine

/-- A call of the game by the function and the arguments that no hook may touch. -/
inductive Request
  | updateVerifyMode (panel : Address)
  | processConfirmClick (panel : Address)
  | processEvent (panel event : Address)
  | openLoginPanel (panel : Address)
  | requestLogin (thisptr : Address) (account password : TextPointer)
  deriving DecidableEq

def request : GameCall → Request
  | .updateVerifyMode panel => .updateVerifyMode panel
  | .processConfirmClick panel => .processConfirmClick panel
  | .processEvent panel event => .processEvent panel event
  | .openLoginPanel panel => .openLoginPanel panel
  | .requestLogin args => .requestLogin args.thisptr args.account args.password

/-- The request that a call of the plugin passes on. The confirmation that the hook of the
PIN panel makes by itself passes on none, and neither do the calls that fill in the login. -/
def passesOn : PluginCall → Frame → Option Request
  | .updateVerifyMode panel, _ => some (.updateVerifyMode panel)
  | .processConfirmClick _, .autoConfirm _ _ => none
  | .processConfirmClick panel, _ => some (.processConfirmClick panel)
  | .processEvent panel event, _ => some (.processEvent panel event)
  | .openLoginPanel panel, _ => some (.openLoginPanel panel)
  | .requestLogin args, _ => some (.requestLogin args.thisptr args.account args.password)
  | .processLogin _, _ => none
  | .getInstance, _ => none
  | .setTextValue _ _ _ _, _ => none

def owes : Frame → Option Request
  | .autoConfirm panelSrc _ => some (.updateVerifyMode panelSrc)
  | .eventLogin panel event => some (.processEvent panel event)
  | _ => none

def dueFrom : Cause → Option Request
  | .call call => some (request call)
  | .back frame _ => owes frame

def asks : Entry → Option Request
  | .stretch (.call call) _ _ => some (request call)
  | _ => none

def forwards : Entry → Option Request
  | .stretch _ _ (.done (.calls out rest) _) => passesOn out rest
  | _ => none

def drops : Entry → Option Request
  | .stretch cause _ (.threw _ _) => dueFrom cause
  | .stretch cause _ (.undefined _) => dueFrom cause
  | _ => none

def abandons (c : Config) : Action → Option Request
  | .throws => if c.stopped then none else c.stack.head?.bind owes
  | .changes _ _ | .calls _ | .returns _ => none

def asked (trace : List Entry) : List Request := trace.filterMap asks
def forwarded (trace : List Entry) : List Request := trace.filterMap forwards
def dropped (trace : List Entry) : List Request := trace.filterMap drops
def owed (stack : List Frame) : List Request := stack.filterMap owes

/-- The requests that exceptions of the game cut off during a run. -/
def abandoned : Config → List Action → List Request
  | _, [] => []
  | c, action :: actions => (abandons c action).toList ++ abandoned (step c action) actions

private theorem requestLogin_keeps {args : LobbyLogin UInt16} {w w' : World} {exit : Exit}
    (run : (hkLobbyRequestLogin args).run w = .done exit w') :
    ∃ out, exit = .calls (.requestLogin out) .finishing ∧ out.thisptr = args.thisptr ∧
      out.account = args.account ∧ out.password = args.password := by
  have same (swap : Bool) : (swapped swap args).thisptr = args.thisptr ∧
      (swapped swap args).account = args.account ∧
        (swapped swap args).password = args.password := by
    cases swap with
    | true => exact ⟨rfl, rfl, rfl⟩
    | false => exact ⟨rfl, rfl, rfl⟩
  rw [hkLobbyRequestLogin, bind_run, assignGlobals_run, Outcome.andThen_done, bind_run,
    readState_run, Outcome.andThen_done, bind_run] at run
  obtain ⟨any, t, -, run⟩ := Outcome.andThen_eq_done run
  cases any with
  | true => exact ⟨_, (Outcome.done.inj run).1.symm, same _⟩
  | false => exact ⟨_, (Outcome.done.inj run).1.symm, same _⟩

def HandsOver (due : Option Request) : Exit → Prop
  | .calls out rest => due.toList = (passesOn out rest).toList ++ (owes rest).toList
  | .returns _ => due = none

private theorem enter_handsOver {call : GameCall} {w w' : World} {exit : Exit}
    (run : (enter call).run w = .done exit w') : HandsOver (some (request call)) exit := by
  cases call with
  | updateVerifyMode panel =>
    rcases updateVerifyMode_leaves run with rfl | rfl
    · rfl
    · rfl
  | processConfirmClick panel =>
    obtain rfl := (Outcome.done.inj run).1
    rfl
  | processEvent panel event =>
    rw [enter, processEvent_run] at run
    split at run
    · obtain rfl := (Outcome.done.inj run).1
      rfl
    · obtain rfl := (Outcome.done.inj run).1
      rfl
  | openLoginPanel panel =>
    obtain rfl := (Outcome.done.inj run).1
    rfl
  | requestLogin args =>
    obtain ⟨out, rfl, thisptr, account, password⟩ := requestLogin_keeps run
    show [Request.requestLogin args.thisptr args.account args.password] =
      [Request.requestLogin out.thisptr out.account out.password]
    rw [thisptr, account, password]

private theorem resume_handsOver {frame : Frame} {value : Address} {w w' : World} {exit : Exit}
    (run : (resume value frame).run w = .done exit w') : HandsOver (owes frame) exit := by
  cases frame with
  | finishing =>
    obtain rfl := (Outcome.done.inj run).1
    rfl
  | autoConfirm panelSrc panelOffset =>
    obtain rfl := finishUpdate_leaves run
    rfl
  | eventLogin panel event =>
    obtain rfl := (Outcome.done.inj run).1
    rfl
  | loginPanelOpened panelOffset =>
    obtain rfl := (Outcome.done.inj run).1
    rfl
  | instanceWanted panelOffset =>
    rcases fillLoginPanel_leaves run with rfl | ⟨out, rfl, leaves⟩
    · rfl
    · cases leaves
      rfl
  | userIdSet panelOffset =>
    obtain rfl := (Outcome.done.inj run).1
    rfl

private theorem starts_handsOver {c : Config} {action : Action} {cause : Cause} {stack : List Frame}
    {code : Code Exit} (starts : Starts c action cause stack code) {exit : Exit} {w : World}
    (run : code.run c.world = .done exit w) : HandsOver (dueFrom cause) exit := by
  cases starts with
  | call call running hooked => exact enter_handsOver run
  | back frame stack value running waiting => exact resume_handsOver run

def Balanced (c : Config) (lost : List Request) : Prop :=
  (asked c.trace).Perm (forwarded c.trace ++ owed c.stack ++ dropped c.trace ++ lost)

private theorem starts_due {c : Config} {action : Action} {cause : Cause} {stack : List Frame}
    {code : Code Exit} (starts : Starts c action cause stack code) (ending : Ending Exit) :
    (asks (.stretch cause c.world ending)).toList ++ owed c.stack =
      (dueFrom cause).toList ++ owed stack := by
  cases starts with
  | call call running hooked => rfl
  | back frame stack value running waiting =>
    rw [waiting, owed, owed, List.filterMap_cons]
    show _ = (owes frame).toList ++ _
    cases owes frame with
    | none => rfl
    | some r => rfl

private theorem filterMap_cons' {α β : Type} (f : α → Option β) (a : α) (l : List α) :
    (a :: l).filterMap f = (f a).toList ++ l.filterMap f := by
  rw [List.filterMap_cons]
  cases f a with
  | none => rfl
  | some b => rfl

private theorem perform_settles {c : Config} {action : Action} {cause : Cause} {stack : List Frame}
    {code : Code Exit} (starts : Starts c action cause stack code) (r : Request) :
    (forwards (.stretch cause c.world (code.run c.world))).toList.count r +
        (owed (c.perform cause stack code).stack).count r +
        (drops (.stretch cause c.world (code.run c.world))).toList.count r =
      (dueFrom cause).toList.count r + (owed stack).count r := by
  unfold Config.perform
  cases ending : code.run c.world with
  | done exit w =>
    have handed := starts_handsOver starts ending
    cases exit with
    | calls out rest =>
      have due : (dueFrom cause).toList = (passesOn out rest).toList ++ (owes rest).toList := handed
      have below : owed (rest :: stack) = (owes rest).toList ++ owed stack :=
        filterMap_cons' owes rest stack
      show (passesOn out rest).toList.count r + (owed (rest :: stack)).count r + 0 = _
      rw [due, below, List.count_append, List.count_append]
      omega
    | returns value =>
      have nothing : dueFrom cause = none := handed
      rw [nothing]
      show 0 + (owed stack).count r + 0 = 0 + (owed stack).count r
      rfl
  | threw e w =>
    show 0 + (owed stack).count r + (dueFrom cause).toList.count r = _
    omega
  | undefined u =>
    show 0 + (owed stack).count r + (dueFrom cause).toList.count r = _
    omega

private theorem perform_balanced {c : Config} {action : Action} {cause : Cause} {stack : List Frame}
    {code : Code Exit} (starts : Starts c action cause stack code) {lost : List Request}
    (balanced : Balanced c lost) : Balanced (c.perform cause stack code) lost := by
  rw [Balanced, List.perm_iff_count] at balanced ⊢
  intro r
  have before := balanced r
  have due := congrArg (List.count r) (starts_due starts (code.run c.world))
  have settled := perform_settles starts r
  have trace := perform_trace c cause stack code
  rw [asked, forwarded, dropped] at before ⊢
  rw [trace, filterMap_cons', filterMap_cons', filterMap_cons']
  simp only [List.count_append] at before due ⊢
  omega

private theorem pop_balanced {c : Config} {lost : List Request} (balanced : Balanced c lost) :
    Balanced { c with stack := c.stack.tail } (lost ++ (c.stack.head?.bind owes).toList) := by
  rw [Balanced, List.perm_iff_count] at balanced ⊢
  intro r
  have before := balanced r
  cases waiting : c.stack with
  | nil =>
    rw [waiting] at before
    rw [before]
    simp [owed]
  | cons frame stack =>
    have below : owed (frame :: stack) = (owes frame).toList ++ owed stack :=
      filterMap_cons' owes frame stack
    rw [waiting, below] at before
    simp only [List.count_append, List.tail_cons, List.head?_cons, Option.bind_some] at before ⊢
    omega

private theorem step_balanced (c : Config) (action : Action) {lost : List Request}
    (balanced : Balanced c lost) :
    Balanced (step c action) (lost ++ (abandons c action).toList) := by
  cases running : c.stopped with
  | true =>
    have idle : step c action = c := if_pos running
    have nothing : abandons c action = none := by
      cases action with
      | throws => exact if_pos running
      | changes process panels => rfl
      | calls call => rfl
      | returns value => rfl
    rw [idle, nothing, Option.toList_none, List.append_nil]
    exact balanced
  | false =>
    have going : ¬ c.stopped = true := by rw [running]; decide
    cases action with
    | changes process panels =>
      rw [step, if_neg going, abandons, Option.toList_none, List.append_nil]
      exact balanced
    | calls call =>
      rw [abandons, Option.toList_none, List.append_nil]
      cases hooked : c.world.globals.attached call.hook with
      | true =>
        rw [step_calls running hooked]
        exact perform_balanced (.call call running hooked) balanced
      | false =>
        rw [step, if_neg going]
        simp only [hooked]
        exact balanced
    | returns value =>
      rw [abandons, Option.toList_none, List.append_nil]
      cases waiting : c.stack with
      | nil =>
        rw [step, if_neg going]
        simp only [waiting]
        exact balanced
      | cons frame stack =>
        rw [step_returns value running waiting]
        exact perform_balanced (.back frame stack value running waiting) balanced
    | throws =>
      rw [step, if_neg going, abandons, if_neg going]
      exact pop_balanced balanced

private theorem run_balanced (c : Config) (actions : List Action) {lost : List Request}
    (balanced : Balanced c lost) : Balanced (run step c actions) (lost ++ abandoned c actions) := by
  induction actions generalizing c lost with
  | nil =>
    rw [abandoned, List.append_nil]
    exact balanced
  | cons action actions ih =>
    rw [run_cons, abandoned, ← List.append_assoc]
    exact ih (step c action) (step_balanced c action balanced)

end LoginHelper.Transparency
