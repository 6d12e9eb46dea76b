/- Unit: LoginHelper/ServerNumbers
   source: GetServer and hkLobby_RequestLogin in src/loginhelper/Lobby.h
   digest: Which numbers of the login request are the ones their variables denote. -/

import LoginHelper.ServerOverride

set_option autoImplicit false
set_option relaxedAutoImplicit false

namespace LoginHelper.ServerNumbers

open LoginHelper.Foundation.Execution
open LoginHelper.Windows.ProcessEnvironment
open LoginHelper.Windows.Runtime (stoi stoi_digits)
open LoginHelper.Data LoginHelper.Calls LoginHelper.Lobby LoginHelper.ServerOverride

/-- A number is forwarded as its variable denotes it, or as it was given. -/
structure Exact (text : WString) (given forwarded : Int) : Prop where
  denoted : ∀ n : Nat, n ≤ 65535 → stoi text = .ok n → forwarded = n
  absent : ¬ HoldsNumber text → forwarded = given

structure ExactNumbers (env : Environment) (args : LobbyLogin UInt16) (out : LobbyLogin Int) :
    Prop where
  npPort : Exact (env.value .bnsServerNpPort) args.npPort.toNat out.npPort.toNat
  npProgramId : Exact (env.value .bnsServerNpProgramId) args.npProgramId.toNat out.npProgramId
  lobbyPort : Exact (env.value .bnsServerLobbyPort) args.lobbyPort.toNat out.lobbyPort.toNat

/-- The hook forwards the request, whatever was in `lhdata`, and its numbers are exact. -/
def NumbersExact (env : Environment) (swap : Bool) (args : LobbyLogin UInt16) : Prop :=
  ∀ w : World, w.process.environment = env → w.globals.swapProgramid = swap →
    ∃ out w', (hkLobbyRequestLogin args).run w = .done (.calls (.requestLogin out) .finishing) w' ∧
      ExactNumbers env (swapped swap args) out

/-- What a variable has to hold for an override to be exact on its number: a number of
16 bits, or by accident one that stands for the given number in its low 16 bits. -/
inductive NumberKept (env : Environment) (name : EnvVar) (given : UInt16) : Prop
  | denoted (number : HoldsNumber (env.value name))
  | wrapped (n : Int) (read : stoi (env.value name) = .ok n) (same : UInt16.ofInt n = given)
  | sentinel (unset : ¬ env.IsSet name) (same : given = 65535)

def NumbersKept (env : Environment) (args : LobbyLogin UInt16) : Prop :=
  NumberKept env .bnsServerNpPort args.npPort ∧
    NumberKept env .bnsServerNpProgramId args.npProgramId ∧
    NumberKept env .bnsServerLobbyPort args.lobbyPort

theorem NumberKept.reads {env : Environment} {name : EnvVar} {given : UInt16}
    (kept : NumberKept env name given) (set : env.IsSet name) : ReadsAsInt (env.value name) := by
  cases kept with
  | denoted number =>
    obtain ⟨n, -, read⟩ := number
    exact ⟨n, read⟩
  | wrapped n read same => exact ⟨n, read⟩
  | sentinel unset same => exact absurd set unset

theorem NumbersKept.ints {env : Environment} {args : LobbyLogin UInt16}
    (kept : NumbersKept env args) : IntsReadable env := by
  obtain ⟨port, program, lobby⟩ := kept
  intro name member
  simp only [numberVariables, List.mem_cons, List.not_mem_nil, or_false] at member
  rcases member with rfl | rfl | rfl
  · exact port.reads
  · exact program.reads
  · exact lobby.reads

theorem not_holdsNumber_nil : ¬ HoldsNumber [] := by
  rintro ⟨n, -, read⟩
  cases read

theorem exact_same {text : WString} (given : Int) (nothing : ¬ HoldsNumber text) :
    Exact text given given where
  denoted n bound read := absurd ⟨n, bound, read⟩ nothing
  absent _ := rfl

theorem ofInt_denoted {n : Nat} (bound : n ≤ 65535) : (UInt16.ofInt n).toNat = n := by
  have small : (n : Int) % 2 ^ 16 = n := Int.emod_eq_of_lt (by omega) (by omega)
  rw [UInt16.ofInt, small, Int.toNat_natCast, UInt16.toNat_ofNat']
  exact Nat.mod_eq_of_lt (by omega)

def stored (env : Environment) (name : EnvVar) : UInt16 :=
  if env.IsSet name then numberOf (env.value name) else 65535

theorem numberOf_read {text : WString} {n : Int} (read : stoi text = .ok n) :
    numberOf text = UInt16.ofInt n := by
  simp only [numberOf, read]

theorem exact_stored {env : Environment} {name : EnvVar} {given : UInt16}
    (kept : NumberKept env name given) :
    Exact (env.value name) given.toNat (stored env name).toNat := by
  have denotes (n : Nat) (bound : n ≤ 65535) (read : stoi (env.value name) = .ok n) :
      ((stored env name).toNat : Int) = n := by
    have set : env.IsSet name := by
      intro empty
      exact not_holdsNumber_nil (empty ▸ ⟨n, bound, read⟩)
    rw [stored, if_pos set, numberOf_read read, ofInt_denoted bound]
  refine ⟨denotes, fun nothing => ?_⟩
  cases kept with
  | denoted number => exact absurd number nothing
  | wrapped n read same =>
    have set : env.IsSet name := by
      intro empty
      rw [empty] at read
      cases read
    rw [stored, if_pos set, numberOf_read read, same]
  | sentinel unset same => rw [stored, if_neg unset, same]

theorem kept_of_exact {env : Environment} {name : EnvVar} {given : UInt16}
    (reads : env.IsSet name → ReadsAsInt (env.value name))
    (exact : Exact (env.value name) given.toNat (stored env name).toNat) :
    NumberKept env name given := by
  by_cases number : HoldsNumber (env.value name)
  · exact .denoted number
  · have same : stored env name = given :=
      UInt16.toNat_inj.mp (by exact_mod_cast exact.absent number)
    by_cases set : env.IsSet name
    · obtain ⟨n, read⟩ := reads set
      rw [stored, if_pos set, numberOf_read read] at same
      exact .wrapped n read same
    · rw [stored, if_neg set] at same
      exact .sentinel set same.symm

private theorem requested_numbers {env : Environment} (any : AnySet env) (d : LoginHelperData)
    (args : LobbyLogin UInt16) :
    ExactNumbers env args (toOriginal (requested env d args)) ↔
      Exact (env.value .bnsServerNpPort) args.npPort.toNat (stored env .bnsServerNpPort).toNat ∧
      Exact (env.value .bnsServerNpProgramId) args.npProgramId.toNat
        (stored env .bnsServerNpProgramId).toNat ∧
      Exact (env.value .bnsServerLobbyPort) args.lobbyPort.toNat
        (stored env .bnsServerLobbyPort).toNat := by
  have fields := served_fields env d
  have port : (requested env d args).npPort = stored env .bnsServerNpPort := by
    rw [requested, if_pos any]
    exact (overrideNumber_eq args.npPort _).trans fields.npPort
  have program : (requested env d args).npProgramId = stored env .bnsServerNpProgramId := by
    rw [requested, if_pos any]
    exact (overrideNumber_eq args.npProgramId _).trans fields.npProgramId
  have lobby : (requested env d args).lobbyPort = stored env .bnsServerLobbyPort := by
    rw [requested, if_pos any]
    exact (overrideNumber_eq args.lobbyPort _).trans fields.lobbyPort
  rw [← port, ← program, ← lobby]
  constructor
  · rintro ⟨a, b, c⟩
    exact ⟨a, b, c⟩
  · rintro ⟨a, b, c⟩
    exact ⟨a, b, c⟩

private theorem unset_value {env : Environment} (none : ¬ AnySet env) {name : EnvVar}
    (member : name ∈ serverVariables) : env.value name = [] :=
  not_not.mp fun set => none ⟨name, member, set⟩

private theorem exactNumbers_untouched {env : Environment} (none : ¬ AnySet env)
    (d : LoginHelperData) (args : LobbyLogin UInt16) :
    ExactNumbers env args (toOriginal (requested env d args)) := by
  have empty {name : EnvVar} (member : name ∈ serverVariables) :
      ¬ HoldsNumber (env.value name) := by
    rw [unset_value none member]
    exact not_holdsNumber_nil
  rw [requested, if_neg none]
  constructor
  · exact exact_same _ (empty (by decide))
  · exact exact_same _ (empty (by decide))
  · exact exact_same _ (empty (by decide))

private theorem NumbersExact.first {env : Environment} {swap : Bool} {args : LobbyLogin UInt16}
    (law : NumbersExact env swap args) : AllFit env ∧ IntsReadable env ∧
      ExactNumbers env (swapped swap args)
        (toOriginal (requested env Globals.initial.lhdata (swapped swap args))) := by
  obtain ⟨out, t, run, exact⟩ := law (firstRequest env swap) rfl rfl
  obtain ⟨fit, ints⟩ := firstRequest_readable run
  obtain ⟨t', explicit, -⟩ := hkLobbyRequestLogin_run (firstRequest env swap) args fit ints
  rw [explicit] at run
  obtain rfl : toOriginal _ = out := by simpa using (Outcome.done.inj run).1
  exact ⟨fit, ints, exact⟩

/-- The numbers of a request are exact when every text of the override fits its buffer
and, if any is set, each number's variable holds one of 16 bits or changes nothing. -/
theorem numbersExact_iff (env : Environment) (swap : Bool) (args : LobbyLogin UInt16) :
    NumbersExact env swap args ↔
      AllFit env ∧ (¬ AnySet env ∨ NumbersKept env (swapped swap args)) := by
  constructor
  · intro law
    obtain ⟨fit, ints, exact⟩ := law.first
    refine ⟨fit, or_iff_not_imp_left.mpr fun any => ?_⟩
    obtain ⟨port, program, lobby⟩ := (requested_numbers (not_not.mp any) _ _).mp exact
    exact ⟨kept_of_exact (ints _ (by decide)) port, kept_of_exact (ints _ (by decide)) program,
      kept_of_exact (ints _ (by decide)) lobby⟩
  · rintro ⟨fit, kept⟩ w rfl rfl
    have ints : IntsReadable w.process.environment := by
      rcases kept with none | kept
      · exact fun name member set => absurd ⟨name, numberVariables_server member, set⟩ none
      · exact kept.ints
    obtain ⟨t, run, -⟩ := hkLobbyRequestLogin_run w args fit ints
    refine ⟨_, t, run, ?_⟩
    by_cases any : AnySet w.process.environment
    · obtain ⟨port, program, lobby⟩ := kept.resolve_left (not_not.mpr any)
      exact (requested_numbers any _ _).mpr
        ⟨exact_stored port, exact_stored program, exact_stored lobby⟩
    · exact exactNumbers_untouched any _ _

def portTooLarge : Environment :=
  Environment.bare.assign .bnsServerNpPort ⟨wide "70000", by decide⟩

/-- A port above 65535 is forwarded in its low 16 bits. -/
theorem port_wraps : ¬ NumbersExact portTooLarge false sampleLogin := by
  intro law
  have read : stoi (portTooLarge.value .bnsServerNpPort) = .ok (70000 : Nat) :=
    stoi_digits (wide "70000") (by decide) (List.all_eq_true.mp (by decide)) (by decide)
  have nothing : ¬ HoldsNumber (portTooLarge.value .bnsServerNpPort) := by
    rintro ⟨n, bound, denotes⟩
    rw [read] at denotes
    have same : (70000 : Int) = n := by simpa using denotes
    omega
  obtain ⟨-, -, exact⟩ := law.first
  have port := ((requested_numbers (by decide) _ _).mp exact).1.absent nothing
  rw [stored, if_pos (by decide), numberOf_read read] at port
  exact absurd port (by decide)

end LoginHelper.ServerNumbers
