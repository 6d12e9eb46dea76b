/- Unit: LoginHelper/ServerOverride
   source: GetServer and hkLobby_RequestLogin in src/loginhelper/Lobby.h
   digest: Which arguments of the login request the server variables leave alone. -/

import LoginHelper.Lobby

set_option autoImplicit false
set_option relaxedAutoImplicit false

namespace LoginHelper.ServerOverride

open LoginHelper.Foundation.Execution
open LoginHelper.Windows.ProcessEnvironment
open LoginHelper.Windows.Runtime (stoi stoi_digits digitsValue isDigit)
open LoginHelper.Data LoginHelper.Calls LoginHelper.Lobby

def serverVariables : List EnvVar :=
  [.bnsServerNpAddress, .bnsServerNpPort, .bnsServerNpProgramId, .bnsServerNpGameCode,
    .bnsServerLobbyAddress, .bnsServerLobbyPort]

def numberVariables : List EnvVar :=
  [.bnsServerNpPort, .bnsServerNpProgramId, .bnsServerLobbyPort]

theorem numberVariables_server : numberVariables ⊆ serverVariables := by
  intro name member
  simp only [numberVariables, List.mem_cons, List.not_mem_nil, or_false] at member
  rcases member with rfl | rfl | rfl <;> decide

def HoldsNumber (text : WString) : Prop := ∃ n : Nat, n ≤ 65535 ∧ stoi text = .ok n

theorem holdsNumber_digits (text : WString) (nonempty : text ≠ [])
    (digits : ∀ c ∈ text, isDigit c = true) (fits : digitsValue text ≤ 65535) :
    HoldsNumber text :=
  ⟨digitsValue text, fits, stoi_digits text nonempty digits (by omega)⟩

def NumbersReadable (env : Environment) : Prop :=
  ∀ name ∈ numberVariables, env.IsSet name → HoldsNumber (env.value name)

/-- What `std::stoi` takes at all, whatever its size. -/
def ReadsAsInt (text : WString) : Prop := ∃ n : Int, stoi text = .ok n

def IntsReadable (env : Environment) : Prop :=
  ∀ name ∈ numberVariables, env.IsSet name → ReadsAsInt (env.value name)

theorem NumbersReadable.ints {env : Environment} (numbers : NumbersReadable env) :
    IntsReadable env := by
  intro name member set
  obtain ⟨n, -, read⟩ := numbers name member set
  exact ⟨n, read⟩

/-- Every text of the override fits the buffer it is read into. -/
def AllFit (env : Environment) : Prop :=
  ∀ name ∈ serverVariables, (env.value name).length < 256

def withServer (w : World) (d : LoginHelperData) : World :=
  w.withGlobals { w.globals with lhdata := d }

@[simp] theorem withServer_process (w : World) (d : LoginHelperData) :
    (withServer w d).process = w.process := rfl
@[simp] theorem withServer_lhdata (w : World) (d : LoginHelperData) :
    (withServer w d).globals.lhdata = d := rfl
@[simp] theorem withServer_withServer (w : World) (d d' : LoginHelperData) :
    withServer (withServer w d) d' = withServer w d' := rfl
@[simp] theorem setServer_run (f : LoginHelperData → LoginHelperData) (w : World) :
    (setServer f).run w = .done () (withServer w (f w.globals.lhdata)) := rfl

/-- The number `GetServer` stores for a text that reads as one. -/
def numberOf (text : WString) : UInt16 :=
  match stoi text with
  | .ok n => UInt16.ofInt n
  | .error _ => 0

def storedIf (env : Environment) (name : EnvVar) (store : LoginHelperData → LoginHelperData)
    (d : LoginHelperData) : LoginHelperData :=
  if env.IsSet name then store d else d

private theorem serverText_run (name : EnvVar) (store : WString → LoginHelperData → LoginHelperData)
    (w : World) (d : LoginHelperData) (fits : (w.process.environment.value name).length < 256) :
    (serverText name store).run (withServer w d) =
      .done (decide (w.process.environment.IsSet name))
        (withServer w (storedIf w.process.environment name
          (store (w.process.environment.value name)) d)) := by
  by_cases set : w.process.environment.IsSet name
  · rw [serverText, bind_run, readWide_fits name (withServer w d) set fits]
    simp [set, storedIf]
  · rw [serverText, bind_run, readWide_unset name (withServer w d) (not_not.mp set)]
    simp [set, storedIf]

private theorem serverNumber_run (name : EnvVar) (store : UInt16 → LoginHelperData → LoginHelperData)
    (w : World) (d : LoginHelperData) (fits : (w.process.environment.value name).length < 256)
    (number : w.process.environment.IsSet name → ReadsAsInt (w.process.environment.value name)) :
    (serverNumber name store).run (withServer w d) =
      .done (decide (w.process.environment.IsSet name))
        (withServer w (storedIf w.process.environment name
          (store (numberOf (w.process.environment.value name))) d)) := by
  by_cases set : w.process.environment.IsSet name
  · obtain ⟨n, hn⟩ := number set
    rw [serverNumber, bind_run, readWide_fits name (withServer w d) set fits]
    simp [set, storedIf, readNumber, numberOf, hn]
  · rw [serverNumber, bind_run, readWide_unset name (withServer w d) (not_not.mp set)]
    simp [set, storedIf]

/-- What `GetServer` leaves in `lhdata`. -/
def served (env : Environment) (d : LoginHelperData) : LoginHelperData :=
  storedIf env .bnsServerLobbyPort
    (fun d => { d with lobbyPort := numberOf (env.value .bnsServerLobbyPort) }) <|
  storedIf env .bnsServerLobbyAddress
    (fun d => { d with lobbyAddress := env.value .bnsServerLobbyAddress }) <|
  storedIf env .bnsServerNpGameCode
    (fun d => { d with npGameCode := env.value .bnsServerNpGameCode }) <|
  storedIf env .bnsServerNpProgramId
    (fun d => { d with npProgramId := numberOf (env.value .bnsServerNpProgramId) }) <|
  storedIf env .bnsServerNpPort
    (fun d => { d with npPort := numberOf (env.value .bnsServerNpPort) }) <|
  storedIf env .bnsServerNpAddress
    (fun d => { d with npAddress := env.value .bnsServerNpAddress })
    { d with npPort := 65535, npProgramId := 65535, lobbyPort := 65535 }

/-- Each field by its own variable alone. -/
structure Served (env : Environment) (before after : LoginHelperData) : Prop where
  npAddress : after.npAddress =
    if env.IsSet .bnsServerNpAddress then env.value .bnsServerNpAddress else before.npAddress
  npPort : after.npPort =
    if env.IsSet .bnsServerNpPort then numberOf (env.value .bnsServerNpPort) else 65535
  npProgramId : after.npProgramId =
    if env.IsSet .bnsServerNpProgramId then numberOf (env.value .bnsServerNpProgramId) else 65535
  npGameCode : after.npGameCode =
    if env.IsSet .bnsServerNpGameCode then env.value .bnsServerNpGameCode else before.npGameCode
  lobbyAddress : after.lobbyAddress =
    if env.IsSet .bnsServerLobbyAddress then env.value .bnsServerLobbyAddress
      else before.lobbyAddress
  lobbyPort : after.lobbyPort =
    if env.IsSet .bnsServerLobbyPort then numberOf (env.value .bnsServerLobbyPort) else 65535

theorem served_fields (env : Environment) (d : LoginHelperData) : Served env d (served env d) := by
  constructor
  · simp [served, storedIf, apply_ite LoginHelperData.npAddress]
  · simp [served, storedIf, apply_ite LoginHelperData.npPort]
  · simp [served, storedIf, apply_ite LoginHelperData.npProgramId]
  · simp [served, storedIf, apply_ite LoginHelperData.npGameCode]
  · simp [served, storedIf, apply_ite LoginHelperData.lobbyAddress]
  · simp [served, storedIf, apply_ite LoginHelperData.lobbyPort]

/-- Some variable of the override is set. -/
def AnySet (env : Environment) : Prop := ∃ name ∈ serverVariables, env.IsSet name

instance (env : Environment) : Decidable (AnySet env) :=
  inferInstanceAs (Decidable (∃ name ∈ serverVariables, env.IsSet name))

theorem getServer_run (w : World) (fit : AllFit w.process.environment)
    (numbers : IntsReadable w.process.environment) :
    getServer.run w = .done (decide (AnySet w.process.environment))
      (withServer w (served w.process.environment w.globals.lhdata)) := by
  have short := fun name (h : name ∈ serverVariables) => fit name h
  have reset : resetServer.run w = .done () (withServer w { w.globals.lhdata with
      npPort := 65535, npProgramId := 65535, lobbyPort := 65535 }) := rfl
  simp only [getServer, bind_run, Outcome.andThen_done, pure_run, reset,
    serverText_run _ _ _ _ (short .bnsServerNpAddress (by decide)),
    serverNumber_run _ _ _ _ (short .bnsServerNpPort (by decide)) (numbers _ (by decide)),
    serverNumber_run _ _ _ _ (short .bnsServerNpProgramId (by decide)) (numbers _ (by decide)),
    serverText_run _ _ _ _ (short .bnsServerNpGameCode (by decide)),
    serverText_run _ _ _ _ (short .bnsServerLobbyAddress (by decide)),
    serverNumber_run _ _ _ _ (short .bnsServerLobbyPort (by decide)) (numbers _ (by decide))]
  congr 1
  simp [AnySet, serverVariables, Bool.or_assoc]

/-- The `lhdata` of a plugin whose environment has been `env` from the start, after
any number of login requests between which everything else may have changed. -/
inductive ServedBy (env : Environment) : LoginHelperData → Prop
  | start : ServedBy env Globals.initial.lhdata
  | call (w w' : World) (args : LobbyLogin UInt16) (before : ServedBy env w.globals.lhdata)
      (fixed : w.process.environment = env)
      (after : ((hkLobbyRequestLogin args).run w).state? = some w') :
      ServedBy env w'.globals.lhdata

/-- A step that stores a text of `lhdata` only if the variable of that text is set. -/
structure TextsKept (w w' : World) : Prop where
  process : w'.process = w.process
  swap : w'.globals.swapProgramid = w.globals.swapProgramid
  npAddress : ¬ w.process.environment.IsSet .bnsServerNpAddress →
    w'.globals.lhdata.npAddress = w.globals.lhdata.npAddress
  npGameCode : ¬ w.process.environment.IsSet .bnsServerNpGameCode →
    w'.globals.lhdata.npGameCode = w.globals.lhdata.npGameCode
  lobbyAddress : ¬ w.process.environment.IsSet .bnsServerLobbyAddress →
    w'.globals.lhdata.lobbyAddress = w.globals.lhdata.lobbyAddress

theorem textsKept_frame : IsFrame TextsKept where
  refl _ := ⟨rfl, rfl, fun _ => rfl, fun _ => rfl, fun _ => rfl⟩
  trans := by
    intro s t u h k
    have env : t.process.environment = s.process.environment := by rw [h.process]
    refine ⟨k.process.trans h.process, k.swap.trans h.swap, ?_, ?_, ?_⟩
    · exact fun unset => (k.npAddress (by rwa [env])).trans (h.npAddress unset)
    · exact fun unset => (k.npGameCode (by rwa [env])).trans (h.npGameCode unset)
    · exact fun unset => (k.lobbyAddress (by rwa [env])).trans (h.lobbyAddress unset)

private theorem keeps_serverText {name : EnvVar}
    {store : WString → LoginHelperData → LoginHelperData}
    (own : ∀ text w, w.process.environment.IsSet name →
      TextsKept w (withServer w (store text w.globals.lhdata))) :
    (serverText name store).Keeps TextsKept := by
  intro w
  rw [serverText, bind_run]
  rcases readWide_cases name w with ⟨-, absent⟩ | ⟨set, ⟨text, read⟩ | fault⟩
  · rw [absent]
    exact textsKept_frame.refl w
  · rw [read]
    exact own text w set
  · rw [fault]
    exact trivial

private theorem keeps_serverNumber {name : EnvVar}
    {store : UInt16 → LoginHelperData → LoginHelperData}
    (own : ∀ n w, TextsKept w (withServer w (store n w.globals.lhdata))) :
    (serverNumber name store).Keeps TextsKept := by
  apply keeps_bind textsKept_frame (keeps_readWide textsKept_frame name)
  intro text
  cases text with
  | none => exact keeps_pure textsKept_frame false
  | some text =>
    apply keeps_bind textsKept_frame (keeps_returnedOr textsKept_frame _)
    intro n
    exact keeps_bind textsKept_frame (own _) fun _ => keeps_pure textsKept_frame true

private theorem keeps_getServer : getServer.Keeps TextsKept := by
  refine keeps_bind textsKept_frame (fun w => ⟨rfl, rfl, fun _ => rfl, fun _ => rfl, fun _ => rfl⟩)
    fun _ => ?_
  refine keeps_bind textsKept_frame (keeps_serverText fun _ _ set =>
    ⟨rfl, rfl, fun unset => absurd set unset, fun _ => rfl, fun _ => rfl⟩) fun _ => ?_
  refine keeps_bind textsKept_frame (keeps_serverNumber fun _ _ =>
    ⟨rfl, rfl, fun _ => rfl, fun _ => rfl, fun _ => rfl⟩) fun _ => ?_
  refine keeps_bind textsKept_frame (keeps_serverNumber fun _ _ =>
    ⟨rfl, rfl, fun _ => rfl, fun _ => rfl, fun _ => rfl⟩) fun _ => ?_
  refine keeps_bind textsKept_frame (keeps_serverText fun _ _ set =>
    ⟨rfl, rfl, fun _ => rfl, fun unset => absurd set unset, fun _ => rfl⟩) fun _ => ?_
  refine keeps_bind textsKept_frame (keeps_serverText fun _ _ set =>
    ⟨rfl, rfl, fun _ => rfl, fun _ => rfl, fun unset => absurd set unset⟩) fun _ => ?_
  refine keeps_bind textsKept_frame (keeps_serverNumber fun _ _ =>
    ⟨rfl, rfl, fun _ => rfl, fun _ => rfl, fun _ => rfl⟩) fun _ => ?_
  exact keeps_pure textsKept_frame _

theorem hkLobbyRequestLogin_keeps (args : LobbyLogin UInt16) :
    (hkLobbyRequestLogin args).Keeps TextsKept := by
  refine keeps_bind textsKept_frame (fun w => ⟨rfl, rfl, fun _ => rfl, fun _ => rfl, fun _ => rfl⟩)
    fun _ => ?_
  apply keeps_bind textsKept_frame (keeps_readState textsKept_frame)
  intro w
  apply keeps_bind textsKept_frame keeps_getServer
  intro any
  cases any with
  | true =>
    exact keeps_bind textsKept_frame (keeps_readState textsKept_frame) fun _ =>
      keeps_pure textsKept_frame _
  | false => exact keeps_pure textsKept_frame _

/-- The texts whose variables are unset stay as empty as they start. -/
structure UnsetEmpty (env : Environment) (d : LoginHelperData) : Prop where
  npAddress : ¬ env.IsSet .bnsServerNpAddress → d.npAddress = []
  npGameCode : ¬ env.IsSet .bnsServerNpGameCode → d.npGameCode = []
  lobbyAddress : ¬ env.IsSet .bnsServerLobbyAddress → d.lobbyAddress = []

theorem servedBy_unsetEmpty {env : Environment} {d : LoginHelperData} (served : ServedBy env d) :
    UnsetEmpty env d := by
  induction served with
  | start => exact ⟨fun _ => rfl, fun _ => rfl, fun _ => rfl⟩
  | call w w' args before fixed after ih =>
    subst fixed
    have step := (hkLobbyRequestLogin_keeps args w).state after
    exact ⟨fun unset => (step.npAddress unset).trans (ih.npAddress unset),
      fun unset => (step.npGameCode unset).trans (ih.npGameCode unset),
      fun unset => (step.lobbyAddress unset).trans (ih.lobbyAddress unset)⟩

/-- The forwarded arguments differ from the given ones only where a variable asks for it. -/
structure Framed (env : Environment) (args : LobbyLogin UInt16) (out : LobbyLogin Int) : Prop where
  thisptr : out.thisptr = args.thisptr
  account : out.account = args.account
  password : out.password = args.password
  npAddress : ¬ env.IsSet .bnsServerNpAddress → out.npAddress = args.npAddress
  npPort : ¬ env.IsSet .bnsServerNpPort → out.npPort = args.npPort
  npProgramId : ¬ env.IsSet .bnsServerNpProgramId → out.npProgramId = args.npProgramId.toNat
  npGameCode : ¬ env.IsSet .bnsServerNpGameCode → out.npGameCode = args.npGameCode
  lobbyAddress : ¬ env.IsSet .bnsServerLobbyAddress → out.lobbyAddress = args.lobbyAddress
  lobbyPort : ¬ env.IsSet .bnsServerLobbyPort → out.lobbyPort = args.lobbyPort

/-- After any history, the hook forwards the request, and frames it. -/
def FrameLaw (env : Environment) (swap : Bool) (args : LobbyLogin UInt16) : Prop :=
  ∀ w : World, ServedBy env w.globals.lhdata → w.process.environment = env →
    w.globals.swapProgramid = swap →
    ∃ out w', (hkLobbyRequestLogin args).run w = .done (.calls (.requestLogin out) .finishing) w' ∧
      Framed env (swapped swap args) out

def NumberNamed (env : Environment) (name : EnvVar) (given : UInt16) : Prop :=
  env.IsSet name ∨ given = 65535

/-- Nothing asks for an override, or every number of the request has been named. -/
def NumbersNamed (env : Environment) (args : LobbyLogin UInt16) : Prop :=
  ¬ AnySet env ∨ NumberNamed env .bnsServerNpPort args.npPort ∧
    NumberNamed env .bnsServerNpProgramId args.npProgramId ∧
    NumberNamed env .bnsServerLobbyPort args.lobbyPort

/-- The sentinel is a number like any other, so a stored number always wins. -/
theorem overrideNumber_eq (argument number : UInt16) : overrideNumber argument number = number := by
  rw [overrideNumber, if_pos (by omega)]

theorem overrideText_nil (argument : TextPointer) : overrideText argument [] = argument := rfl

/-- The arguments as the hook passes them on, with this in `lhdata` before. -/
def requested (env : Environment) (d : LoginHelperData) (args : LobbyLogin UInt16) :
    LobbyLogin UInt16 :=
  if AnySet env then overrideLogin (served env d) args else args

theorem hkLobbyRequestLogin_run (w : World) (args : LobbyLogin UInt16)
    (fit : AllFit w.process.environment) (numbers : IntsReadable w.process.environment) :
    ∃ w', (hkLobbyRequestLogin args).run w = .done (.calls (.requestLogin (toOriginal
      (requested w.process.environment w.globals.lhdata (swapped w.globals.swapProgramid args))))
        .finishing) w' ∧
      w'.globals.lhdata = served w.process.environment w.globals.lhdata := by
  let start := w.withGlobals { w.globals with firstrun := false }
  have server := getServer_run start fit numbers
  have unfolded : (hkLobbyRequestLogin args).run w = (getServer.run start).andThen fun any t =>
      ((if any = true then do
        let w' ← readState
        pure (.calls (.requestLogin (toOriginal
          (overrideLogin w'.globals.lhdata (swapped start.globals.swapProgramid args)))) .finishing)
      else pure (.calls (.requestLogin (toOriginal (swapped start.globals.swapProgramid args))) .finishing) :
        Code Exit)).run t := rfl
  rw [unfolded, server, Outcome.andThen_done, requested]
  by_cases any : AnySet w.process.environment
  · have any' : AnySet start.process.environment := any
    simp only [any, any', decide_true, if_true]
    exact ⟨_, rfl, rfl⟩
  · have any' : ¬ AnySet start.process.environment := any
    simp only [any, any', decide_false, Bool.false_eq_true, if_false]
    exact ⟨_, rfl, rfl⟩

/-- Unset texts stay empty and unset numbers are the sentinel, so a request with its
numbers named is framed. -/
private theorem framed_of_named {env : Environment} {d : LoginHelperData} {args : LobbyLogin UInt16}
    (empty : UnsetEmpty env d) (named : NumbersNamed env args) :
    Framed env args (toOriginal (requested env d args)) := by
  have fields := served_fields env d
  unfold requested
  split
  · rename_i any
    obtain ⟨port, program, lobby⟩ := named.resolve_left (not_not.mpr any)
    have number {given : UInt16} {name : EnvVar} (h : NumberNamed env name given)
        (unset : ¬ env.IsSet name) : (65535 : UInt16) = given := (h.resolve_left unset).symm
    constructor
    case thisptr => rfl
    case account => rfl
    case password => rfl
    case npAddress =>
      intro unset
      show overrideText args.npAddress (served env d).npAddress = _
      rw [fields.npAddress, if_neg unset, empty.npAddress unset, overrideText_nil]
    case npGameCode =>
      intro unset
      show overrideText args.npGameCode (served env d).npGameCode = _
      rw [fields.npGameCode, if_neg unset, empty.npGameCode unset, overrideText_nil]
    case lobbyAddress =>
      intro unset
      show overrideText args.lobbyAddress (served env d).lobbyAddress = _
      rw [fields.lobbyAddress, if_neg unset, empty.lobbyAddress unset, overrideText_nil]
    case npPort =>
      intro unset
      show overrideNumber args.npPort (served env d).npPort = _
      rw [overrideNumber_eq, fields.npPort, if_neg unset, number port unset]
    case npProgramId =>
      intro unset
      show ((overrideNumber args.npProgramId (served env d).npProgramId).toNat : Int) = _
      rw [overrideNumber_eq, fields.npProgramId, if_neg unset, number program unset]
    case lobbyPort =>
      intro unset
      show overrideNumber args.lobbyPort (served env d).lobbyPort = _
      rw [overrideNumber_eq, fields.lobbyPort, if_neg unset, number lobby unset]
  · exact ⟨rfl, rfl, rfl, fun _ => rfl, fun _ => rfl, fun _ => rfl, fun _ => rfl, fun _ => rfl,
      fun _ => rfl⟩

private theorem named_of_framed {env : Environment} {d : LoginHelperData}
    {args : LobbyLogin UInt16}
    (framed : Framed env args (toOriginal (requested env d args))) : NumbersNamed env args := by
  have fields := served_fields env d
  by_cases any : AnySet env
  · rw [requested, if_pos any] at framed
    refine .inr ⟨?_, ?_, ?_⟩
    · apply or_iff_not_imp_left.mpr
      intro unset
      have same : overrideNumber args.npPort (served env d).npPort = args.npPort :=
        framed.npPort unset
      rw [overrideNumber_eq, fields.npPort, if_neg unset] at same
      exact same.symm
    · apply or_iff_not_imp_left.mpr
      intro unset
      have same : ((overrideNumber args.npProgramId (served env d).npProgramId).toNat : Int) =
        args.npProgramId.toNat := framed.npProgramId unset
      rw [overrideNumber_eq, fields.npProgramId, if_neg unset] at same
      exact (UInt16.toNat_inj.mp (by exact_mod_cast same)).symm
    · apply or_iff_not_imp_left.mpr
      intro unset
      have same : overrideNumber args.lobbyPort (served env d).lobbyPort = args.lobbyPort :=
        framed.lobbyPort unset
      rw [overrideNumber_eq, fields.lobbyPort, if_neg unset] at same
      exact same.symm
  · exact .inl any

/-- A first request in an environment, where a text that does not fit leaves a buffer
without a terminator. -/
def firstRequest (env : Environment) (swap : Bool) : World :=
  ⟨{ Process.bare with environment := env, staleWide := fun _ => List.replicate 256 1 },
    Panels.blank, { Globals.initial with swapProgramid := swap }⟩

def Unterminated (p : Process) : Prop := ∀ name, p.staleWide name = List.replicate 256 1

private theorem Unterminated.noString {p : Process} (stale : Unterminated p) (name : EnvVar) :
    bufferString 256 (p.staleWide name) = none := by
  rw [stale name]
  decide

private theorem stage_fits {p : Process} (stale : Unterminated p) {name : EnvVar}
    {rest : Option WString → Code Bool} {w t : World} {b : Bool} (here : w.process = p)
    (keeps : (readWide name >>= rest).Keeps SameButServer)
    (run : (readWide name >>= rest).run w = .done b t) :
    (p.environment.value name).length < 256 ∧ t.process = p := by
  obtain ⟨text, u, read, -⟩ := Outcome.andThen_eq_done run
  have kept := keeps w
  rw [run] at kept
  subst here
  exact ⟨fits_of_unterminated (stale.noString name) read, kept.1⟩

private theorem serverText_fits {p : Process} (stale : Unterminated p) {name : EnvVar}
    {store : WString → LoginHelperData → LoginHelperData} {w t : World} {b : Bool}
    (here : w.process = p) (run : (serverText name store).run w = .done b t) :
    (p.environment.value name).length < 256 ∧ t.process = p :=
  stage_fits stale here (serverText_frame name store) run

private theorem serverNumber_fits {p : Process} (stale : Unterminated p) {name : EnvVar}
    {store : UInt16 → LoginHelperData → LoginHelperData} {w t : World} {b : Bool}
    (here : w.process = p) (run : (serverNumber name store).run w = .done b t) :
    ((p.environment.value name).length < 256 ∧
      (p.environment.IsSet name → ReadsAsInt (p.environment.value name))) ∧ t.process = p := by
  obtain ⟨fits, after⟩ := stage_fits stale here (serverNumber_frame name store) run
  refine ⟨⟨fits, fun set => ?_⟩, after⟩
  subst here
  rw [serverNumber, bind_run, readWide_fits name w set fits, Outcome.andThen_done] at run
  obtain ⟨n, u, read, -⟩ := Outcome.andThen_eq_done run
  cases number : stoi (w.process.environment.value name) with
  | ok n => exact ⟨n, number⟩
  | error e =>
    rw [readNumber, number] at read
    cases read

private theorem readable_of_returned {w t : World} {b : Bool} (stale : Unterminated w.process)
    (run : getServer.run w = .done b t) :
    AllFit w.process.environment ∧ IntsReadable w.process.environment := by
  rw [getServer, bind_run, show resetServer.run w = .done () (withServer w _) from rfl,
    Outcome.andThen_done] at run
  obtain ⟨_, w1, one, run⟩ := Outcome.andThen_eq_done run
  obtain ⟨fit1, here1⟩ := serverText_fits stale (withServer_process w _) one
  obtain ⟨_, w2, two, run⟩ := Outcome.andThen_eq_done run
  obtain ⟨⟨fit2, read2⟩, here2⟩ := serverNumber_fits stale here1 two
  obtain ⟨_, w3, three, run⟩ := Outcome.andThen_eq_done run
  obtain ⟨⟨fit3, read3⟩, here3⟩ := serverNumber_fits stale here2 three
  obtain ⟨_, w4, four, run⟩ := Outcome.andThen_eq_done run
  obtain ⟨fit4, here4⟩ := serverText_fits stale here3 four
  obtain ⟨_, w5, five, run⟩ := Outcome.andThen_eq_done run
  obtain ⟨fit5, here5⟩ := serverText_fits stale here4 five
  obtain ⟨_, w6, six, -⟩ := Outcome.andThen_eq_done run
  obtain ⟨⟨fit6, read6⟩, -⟩ := serverNumber_fits stale here5 six
  constructor
  · intro name hname
    simp only [serverVariables, List.mem_cons, List.not_mem_nil, or_false] at hname
    rcases hname with rfl | rfl | rfl | rfl | rfl | rfl
    · exact fit1
    · exact fit2
    · exact fit3
    · exact fit4
    · exact fit5
    · exact fit6
  · intro name hname
    simp only [numberVariables, List.mem_cons, List.not_mem_nil, or_false] at hname
    rcases hname with rfl | rfl | rfl
    · exact read2
    · exact read3
    · exact read6

theorem firstRequest_readable {env : Environment} {swap : Bool} {args : LobbyLogin UInt16}
    {exit : Exit} {t : World}
    (run : (hkLobbyRequestLogin args).run (firstRequest env swap) = .done exit t) :
    AllFit env ∧ IntsReadable env := by
  rw [hkLobbyRequestLogin, bind_run, assignGlobals_run, Outcome.andThen_done, bind_run,
    readState_run, Outcome.andThen_done] at run
  obtain ⟨any, t', server, -⟩ := Outcome.andThen_eq_done run
  exact readable_of_returned (fun _ => rfl) server

/-- The frame law holds of a request exactly when every text of the override fits
its buffer and no number is left for the sentinel to overwrite. -/
theorem frameLaw_iff (env : Environment) (numbers : NumbersReadable env) (swap : Bool)
    (args : LobbyLogin UInt16) :
    FrameLaw env swap args ↔ AllFit env ∧ NumbersNamed env (swapped swap args) := by
  constructor
  · intro law
    obtain ⟨out, t, run, framed⟩ := law (firstRequest env swap) .start rfl rfl
    have fit := (firstRequest_readable run).1
    refine ⟨fit, ?_⟩
    obtain ⟨t', explicit, -⟩ := hkLobbyRequestLogin_run (firstRequest env swap) args fit numbers.ints
    rw [explicit] at run
    obtain rfl : toOriginal _ = out := by
      have same := (Outcome.done.inj run).1
      simpa using same
    exact named_of_framed framed
  · rintro ⟨fit, named⟩ w history rfl rfl
    obtain ⟨t, run, -⟩ := hkLobbyRequestLogin_run w args fit numbers.ints
    exact ⟨_, t, run, framed_of_named (servedBy_unsetEmpty history) named⟩

/-- A request to one server. -/
def sampleLogin : LobbyLogin UInt16 :=
  ⟨4096, .ofGame 1, 10100, 301, .ofGame 2, .ofGame 3, 10200, .ofGame 4, .ofGame 5⟩

def portOnly : Environment :=
  Environment.bare.assign .bnsServerNpPort ⟨wide "10900", by decide⟩

private theorem portOnly_readable : NumbersReadable portOnly := by
  intro name hname set
  simp only [numberVariables, List.mem_cons, List.not_mem_nil, or_false] at hname
  rcases hname with rfl | rfl | rfl
  · exact holdsNumber_digits (wide "10900") (by decide) (List.all_eq_true.mp (by decide)) (by decide)
  · exact absurd rfl set
  · exact absurd rfl set

theorem frameLaw_iff_portOnly : NumbersReadable portOnly ∧
    (FrameLaw portOnly false sampleLogin ↔
      AllFit portOnly ∧ NumbersNamed portOnly (swapped false sampleLogin)) :=
  ⟨portOnly_readable, frameLaw_iff portOnly portOnly_readable false sampleLogin⟩

def addressOnly : Environment :=
  Environment.bare.assign .bnsServerNpAddress ⟨wide "10.0.0.1", by decide⟩

private theorem addressOnly_readable : NumbersReadable addressOnly := by
  intro name hname set
  simp only [numberVariables, List.mem_cons, List.not_mem_nil, or_false] at hname
  rcases hname with rfl | rfl | rfl <;> exact absurd rfl set

/-- With the address alone overridden, the port of the request is lost too. -/
theorem port_overwritten : NumbersReadable addressOnly ∧
    ¬ FrameLaw addressOnly false sampleLogin := by
  refine ⟨addressOnly_readable, fun law => ?_⟩
  obtain ⟨out, t, run, framed⟩ := law (firstRequest addressOnly false) .start rfl rfl
  obtain ⟨t', explicit, -⟩ := hkLobbyRequestLogin_run (firstRequest addressOnly false) sampleLogin
    (by unfold AllFit; decide) addressOnly_readable.ints
  rw [explicit] at run
  obtain rfl : toOriginal _ = out := by simpa using (Outcome.done.inj run).1
  have port : (65535 : UInt16) = 10100 := framed.npPort (by decide)
  exact absurd port (by decide)

end LoginHelper.ServerOverride
