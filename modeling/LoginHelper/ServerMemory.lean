/- Unit: LoginHelper/ServerMemory
   source: GetServer and hkLobby_RequestLogin in src/loginhelper/Lobby.h
   digest: When a login request depends on the requests before it. -/

import LoginHelper.ServerOverride

set_option autoImplicit false
set_option relaxedAutoImplicit false

namespace LoginHelper.ServerMemory

open LoginHelper.Foundation.Execution
open LoginHelper.Windows.ProcessEnvironment
open LoginHelper.Data LoginHelper.Calls LoginHelper.Lobby LoginHelper.ServerOverride

/-- The `lhdata` after any number of login requests, each in any process. -/
inductive Reached : LoginHelperData → Prop
  | start : Reached Globals.initial.lhdata
  | call (w w' : World) (args : LobbyLogin UInt16) (before : Reached w.globals.lhdata)
      (after : ((hkLobbyRequestLogin args).run w).state? = some w') : Reached w'.globals.lhdata

def SameServer (env env' : Environment) : Prop :=
  ∀ name ∈ serverVariables, env'.value name = env.value name

/-- Two requests with the same arguments forward the same, whatever came before each. -/
def Memoryless (env : Environment) (swap : Bool) (args : LobbyLogin UInt16) : Prop :=
  ∀ w v : World, Reached w.globals.lhdata → Reached v.globals.lhdata →
    SameServer env w.process.environment → SameServer env v.process.environment →
    w.globals.swapProgramid = swap → v.globals.swapProgramid = swap →
    ∃ out w' v',
      (hkLobbyRequestLogin args).run w = .done (.calls (.requestLogin out) .finishing) w' ∧
      (hkLobbyRequestLogin args).run v = .done (.calls (.requestLogin out) .finishing) v'

/-- The fields that are not reset at each request all get a text of their own. -/
structure TextsSet (env : Environment) : Prop where
  npAddress : env.IsSet .bnsServerNpAddress
  npGameCode : env.IsSet .bnsServerNpGameCode
  lobbyAddress : env.IsSet .bnsServerLobbyAddress

section Congruence

variable {env env' : Environment} (same : SameServer env env')

include same

theorem SameServer.isSet {name : EnvVar} (member : name ∈ serverVariables) :
    env'.IsSet name ↔ env.IsSet name := by
  rw [Environment.IsSet, Environment.IsSet, same name member]

theorem SameServer.anySet : AnySet env' ↔ AnySet env := by
  constructor
  · rintro ⟨name, member, set⟩
    exact ⟨name, member, (same.isSet member).mp set⟩
  · rintro ⟨name, member, set⟩
    exact ⟨name, member, (same.isSet member).mpr set⟩

theorem SameServer.allFit (fit : AllFit env) : AllFit env' := by
  intro name member
  rw [same name member]
  exact fit name member

theorem SameServer.intsReadable (ints : IntsReadable env) : IntsReadable env' := by
  intro name member set
  have member' := numberVariables_server member
  rw [same name member']
  exact ints name member ((same.isSet member').mp set)

theorem SameServer.served (d : LoginHelperData) : served env' d = served env d := by
  have text := fun name (member : name ∈ serverVariables) => same name member
  have set := fun name (member : name ∈ serverVariables) => same.isSet member
  unfold ServerOverride.served storedIf
  rw [text .bnsServerNpAddress (by decide), text .bnsServerNpPort (by decide),
    text .bnsServerNpProgramId (by decide), text .bnsServerNpGameCode (by decide),
    text .bnsServerLobbyAddress (by decide), text .bnsServerLobbyPort (by decide)]
  simp only [set .bnsServerNpAddress (by decide), set .bnsServerNpPort (by decide),
    set .bnsServerNpProgramId (by decide), set .bnsServerNpGameCode (by decide),
    set .bnsServerLobbyAddress (by decide), set .bnsServerLobbyPort (by decide)]

theorem SameServer.requested (d : LoginHelperData) (args : LobbyLogin UInt16) :
    requested env' d args = requested env d args := by
  unfold ServerOverride.requested
  rw [same.served]
  exact if_congr same.anySet rfl rfl

end Congruence

theorem served_forgets {env : Environment} (texts : TextsSet env) (d d' : LoginHelperData) :
    served env d = served env d' := by
  have fields := served_fields env d
  have fields' := served_fields env d'
  have address : (served env d).npAddress = (served env d').npAddress := by
    rw [fields.npAddress, fields'.npAddress, if_pos texts.npAddress, if_pos texts.npAddress]
  have code : (served env d).npGameCode = (served env d').npGameCode := by
    rw [fields.npGameCode, fields'.npGameCode, if_pos texts.npGameCode, if_pos texts.npGameCode]
  have lobby : (served env d).lobbyAddress = (served env d').lobbyAddress := by
    rw [fields.lobbyAddress, fields'.lobbyAddress, if_pos texts.lobbyAddress,
      if_pos texts.lobbyAddress]
  have port := fields.npPort.trans fields'.npPort.symm
  have program := fields.npProgramId.trans fields'.npProgramId.symm
  have lobbyPort := fields.lobbyPort.trans fields'.lobbyPort.symm
  cases h : served env d
  cases h' : served env d'
  simp only [h, h'] at address code lobby port program lobbyPort
  rw [address, code, lobby, port, program, lobbyPort]

def only (name : EnvVar) (text : CText WChar) : Environment := Environment.bare.assign name text

@[simp] theorem only_value (name other : EnvVar) (text : CText WChar) :
    (only name text).value other = if other = name then text.chars else [] := by
  by_cases h : other = name
  · simp [only, Environment.value, Environment.assign, h]
  · simp [only, Environment.value, Environment.assign, h, Environment.bare, CText.empty]

theorem reached_only {name : EnvVar} (notNumber : name ∉ numberVariables) {text : CText WChar}
    (fits : text.chars.length < 256) : Reached (served (only name text) Globals.initial.lhdata) := by
  have fit : AllFit (only name text) := by
    intro other member
    rw [only_value]
    split
    · exact fits
    · decide
  have ints : IntsReadable (only name text) := by
    intro other member set
    have other_ne : other ≠ name := fun h => notNumber (h ▸ member)
    rw [Environment.IsSet, only_value, if_neg other_ne] at set
    exact absurd rfl set
  obtain ⟨w', run, left⟩ :=
    hkLobbyRequestLogin_run (firstRequest (only name text) false) sampleLogin fit ints
  have after := Reached.call (firstRequest (only name text) false) w' sampleLogin .start
    (by rw [run]; rfl)
  rw [left] at after
  exact after

theorem exists_other_text (given : TextPointer) :
    ∃ text : CText WChar, text.chars ≠ [] ∧ text.chars.length < 256 ∧
      .ofPlugin text.chars ≠ given := by
  by_cases one : .ofPlugin [49] = given
  · refine ⟨⟨[50], by decide⟩, by decide, by decide, ?_⟩
    rw [← one]
    decide
  · exact ⟨⟨[49], by decide⟩, by decide, by decide, one⟩

theorem toOriginal_injective {args args' : LobbyLogin UInt16}
    (same : toOriginal args = toOriginal args') : args = args' := by
  obtain ⟨a, b, c, d, e, f, g, h, i⟩ := args
  obtain ⟨a', b', c', d', e', f', g', h', i'⟩ := args'
  simp only [toOriginal, LobbyLogin.mk.injEq, Nat.cast_inj, UInt16.toNat_inj] at same ⊢
  exact same

section Stale

variable {env : Environment} {swap : Bool} {args : LobbyLogin UInt16}

private theorem memoryless_requested (law : Memoryless env swap args) {d : LoginHelperData}
    (history : Reached d) :
    requested env Globals.initial.lhdata (swapped swap args) =
      requested env d (swapped swap args) := by
  let first := firstRequest env swap
  let later : World := withServer first d
  obtain ⟨out, w', v', run, run'⟩ :=
    law first later .start history (fun _ _ => rfl) (fun _ _ => rfl) rfl rfl
  obtain ⟨fit, ints⟩ := firstRequest_readable run
  obtain ⟨t, explicit, -⟩ := hkLobbyRequestLogin_run first args fit ints
  obtain ⟨t', explicit', -⟩ := hkLobbyRequestLogin_run later args fit ints
  rw [explicit] at run
  rw [explicit'] at run'
  have same := (Outcome.done.inj run).1.trans (Outcome.done.inj run').1.symm
  simp only [Exit.calls.injEq, PluginCall.requestLogin.injEq, and_true] at same
  exact toOriginal_injective same

private theorem set_of_memoryless (law : Memoryless env swap args) (any : AnySet env)
    {name : EnvVar} (notNumber : name ∉ numberVariables) (field : LoginHelperData → WString)
    (argument : LobbyLogin UInt16 → TextPointer)
    (passed : ∀ d a, argument (overrideLogin d a) = overrideText (argument a) (field d))
    (stored : ∀ e d, field (served e d) = if e.IsSet name then e.value name else field d)
    (empty : field Globals.initial.lhdata = []) : env.IsSet name := by
  by_contra unset
  obtain ⟨text, nonempty, fits, other⟩ := exists_other_text (argument (swapped swap args))
  have same := memoryless_requested law (reached_only notNumber fits)
  rw [requested, requested, if_pos any, if_pos any] at same
  have arguments := congrArg argument same
  have left : field (served (only name text) Globals.initial.lhdata) = text.chars := by
    rw [stored, only_value, if_pos rfl, if_pos]
    rwa [Environment.IsSet, only_value, if_pos rfl]
  have kept : overrideText (argument (swapped swap args)) text.chars = .ofPlugin text.chars := by
    rw [overrideText, if_neg (by simpa using nonempty)]
  rw [passed, passed, stored, stored, if_neg unset, if_neg unset, empty, left, kept,
    overrideText_nil] at arguments
  exact other arguments.symm

private theorem textsSet_of_memoryless (law : Memoryless env swap args) (any : AnySet env) :
    TextsSet env where
  npAddress := set_of_memoryless law any (by decide) (·.npAddress) (·.npAddress)
    (fun _ _ => rfl) (fun e d => (served_fields e d).npAddress) rfl
  npGameCode := set_of_memoryless law any (by decide) (·.npGameCode) (·.npGameCode)
    (fun _ _ => rfl) (fun e d => (served_fields e d).npGameCode) rfl
  lobbyAddress := set_of_memoryless law any (by decide) (·.lobbyAddress) (·.lobbyAddress)
    (fun _ _ => rfl) (fun e d => (served_fields e d).lobbyAddress) rfl

end Stale

/-- Requests carry no memory exactly when all texts of the override can be read and
nothing is overridden, or all three fields that are never reset are. -/
theorem memoryless_iff (env : Environment) (swap : Bool) (args : LobbyLogin UInt16) :
    Memoryless env swap args ↔ AllFit env ∧ IntsReadable env ∧ (¬ AnySet env ∨ TextsSet env) := by
  constructor
  · intro law
    obtain ⟨out, w', v', run, -⟩ := law (firstRequest env swap) (firstRequest env swap)
      .start .start (fun _ _ => rfl) (fun _ _ => rfl) rfl rfl
    obtain ⟨fit, ints⟩ := firstRequest_readable run
    exact ⟨fit, ints, or_iff_not_imp_left.mpr fun any =>
      textsSet_of_memoryless law (not_not.mp any)⟩
  · rintro ⟨fit, ints, quiet⟩ w v - - sameW sameV rfl swapV
    obtain ⟨w', runW, -⟩ := hkLobbyRequestLogin_run w args (sameW.allFit fit)
      (sameW.intsReadable ints)
    obtain ⟨v', runV, -⟩ := hkLobbyRequestLogin_run v args (sameV.allFit fit)
      (sameV.intsReadable ints)
    have agree : requested env w.globals.lhdata (swapped w.globals.swapProgramid args) =
        requested env v.globals.lhdata (swapped w.globals.swapProgramid args) := by
      rcases quiet with none | texts
      · rw [requested, requested, if_neg none, if_neg none]
      · rw [requested, requested, served_forgets texts]
    rw [sameW.requested, agree] at runW
    rw [sameV.requested, swapV] at runV
    exact ⟨_, w', v', runW, runV⟩

/-- Under a port alone, an address of an earlier request is used once more. -/
theorem address_remembered : ¬ Memoryless portOnly false sampleLogin := by
  intro law
  have set := (textsSet_of_memoryless law (by decide)).npAddress
  exact absurd set (by decide)

end LoginHelper.ServerMemory
