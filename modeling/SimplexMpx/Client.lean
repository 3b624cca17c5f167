import SimplexMpx.Calls
import SimplexMpx.ClientCore

/-!
What the steps of a client do while MPX is enabled and foreign code keeps the registers in use.
-/

namespace SimplexMpx

open ByteMemory

theorem lower_of_mpx_eq {machine machine' : Machine} (same : machine.mpx = machine'.mpx)
    (reg : BndregT) : machine.lower reg = machine'.lower reg := by
  unfold Machine.lower
  rw [same]

theorem writePair_lower_self {machine : Machine} (on : machine.mpx.en = true) {reg : BndregT}
    (valid : (switchReg reg).isSome) (function : String) (lower displacement : Word) :
    (writePair function reg lower displacement machine).lower reg = lower := by
  obtain ⟨bnd, named⟩ := Option.isSome_iff_exists.mp valid
  rw [Machine.lower, writePair_bnd_of_en on]
  simp only [named, Function.update_self]

theorem switchReg_injective {reg reg' : BndregT} {bnd : Bnd} (named : switchReg reg = some bnd)
    (named' : switchReg reg' = some bnd) : reg = reg' := by
  cases bnd <;> simp only [switchReg] at named named' <;> grind

theorem Environment.Keeps.mono {Foreign : Type} {env : Environment Foreign}
    {regs more : List BndregT} (keeps : env.Keeps more) (covers : regs ⊆ more) : env.Keeps regs :=
  ⟨keeps.config, fun calls foreign machine reg member =>
    keeps.lower calls foreign machine reg (covers member)⟩

namespace Client

variable {Foreign : Type} {env : Environment Foreign} {regs : List BndregT} {reg : BndregT}
  {client : Client Foreign}

@[simp] theorem call_calls (foreign : Foreign) :
    (client.call env foreign).calls = foreign :: client.calls := rfl

@[simp] theorem call_accesses (foreign : Foreign) :
    (client.call env foreign).accesses = client.accesses := rfl

@[simp] theorem qsetbndl_calls (val : Word) :
    (client.qsetbndl reg val).calls = client.calls := rfl

@[simp] theorem qsetbndl_accesses (val : Word) :
    (client.qsetbndl reg val).accesses = .stored reg val :: client.accesses := rfl

theorem qgetbndl_fst : (client.qgetbndl env reg).1 =
    (client.machine.nearCall (SimplexMpx.qgetbndl (env.rsp client.accesses.length) reg)).1 := rfl

@[simp] theorem qgetbndl_calls : (client.qgetbndl env reg).2.calls = client.calls := rfl

@[simp] theorem qgetbndl_accesses :
    (client.qgetbndl env reg).2.accesses =
      .fetched reg (client.qgetbndl env reg).1 :: client.accesses := rfl

theorem callOn_eq (foreign : Word → Foreign) :
    client.callOn env reg foreign =
      (client.qgetbndl env reg).2.call env (foreign (client.qgetbndl env reg).1) := rfl

/-! Invariants -/

/-- The steps of a client that uses the registers `regs` keep `Kept`. -/
structure Invariant (env : Environment Foreign) (regs : List BndregT)
    (Kept : Client Foreign → Prop) : Prop where
  call : ∀ client foreign, Kept client → Kept (client.call env foreign)
  perform : ∀ client foreign, Kept client → Kept (client.perform env foreign)
  qgetbndl : ∀ client, ∀ reg ∈ regs, Kept client → Kept (client.qgetbndl env reg).2
  qsetbndl : ∀ client, ∀ reg ∈ regs, ∀ val, Kept client → Kept (client.qsetbndl reg val)

namespace Invariant

variable {Kept : Client Foreign → Prop} (invariant : Invariant env regs Kept)
include invariant

theorem callOn (used : reg ∈ regs) (foreign : Word → Foreign) (kept : Kept client) :
    Kept (client.callOn env reg foreign) :=
  invariant.call _ _ (invariant.qgetbndl client reg used kept)

theorem performOn (used : reg ∈ regs) (foreign : Word → Foreign) (kept : Kept client) :
    Kept (client.performOn env reg foreign) :=
  invariant.perform _ _ (invariant.qgetbndl client reg used kept)

end Invariant

/-! Starting and stopping -/

theorem processSpecificInit_ok_iff {value : Returned} {ready : Client Foreign} :
    client.processSpecificInit env = .ok (value, ready) ↔
      ∃ started, callStep env.platform (.processSpecificInit env.buffer) client.machine =
        .ok (value, started) ∧ ready = { client with machine := started } := by
  unfold processSpecificInit
  rw [RunRules.bind_ok_iff]
  constructor
  · rintro ⟨⟨value', started⟩, began, returned⟩
    obtain ⟨rfl, rfl⟩ := Prod.mk.inj (Except.ok.inj returned)
    exact ⟨started, began, rfl⟩
  · rintro ⟨started, began, rfl⟩
    exact ⟨(value, started), began, rfl⟩

theorem processSpecificFinish_of_ok {value : Returned} {stopped : Machine}
    (ended : callStep env.platform (.processSpecificFinish env.buffer) client.machine =
      .ok (value, stopped)) :
    client.processSpecificFinish env = .ok (value, { client with machine := stopped }) := by
  simp only [processSpecificFinish, ended]
  rfl

theorem processSpecificFinish_runs {result : Returned × Client Foreign}
    (began : client.processSpecificInit env = .ok result) (later : Client Foreign) :
    ∃ value final, later.processSpecificFinish env = .ok (value, final) ∧
      final.accesses = later.accesses := by
  obtain ⟨started, called, -⟩ := processSpecificInit_ok_iff.mp began
  obtain ⟨⟨value, stopped⟩, ended⟩ := finish_runs called env.buffer later.machine
  exact ⟨value, _, processSpecificFinish_of_ok ended, rfl⟩

/-! Accesses and calls -/

section Enabled

variable (enabled : client.machine.mpx.Enabled)
include enabled

theorem call_machine (keeps : env.Keeps regs) (foreign : Foreign) :
    (client.call env foreign).machine = env.effect client.calls foreign client.machine := by
  have kept := enabled_of_bndcfgu_eq (keeps.config client.calls foreign client.machine) enabled
  have called : client.machine.nearCall (procedure (env.effect client.calls foreign)) =
      procedure (env.effect client.calls foreign) client.machine :=
    Machine.nearCall_of_enabled enabled kept
  exact congrArg Prod.snd called

theorem call_enabled (keeps : env.Keeps regs) (foreign : Foreign) :
    (client.call env foreign).machine.mpx.Enabled := by
  rw [call_machine enabled keeps]
  exact enabled_of_bndcfgu_eq (keeps.config _ _ _) enabled

theorem perform_enabled (keeps : env.Keeps regs) (foreign : Foreign) :
    (client.perform env foreign).machine.mpx.Enabled :=
  enabled_of_bndcfgu_eq (keeps.config client.calls foreign client.machine) enabled

theorem call_lower (keeps : env.Keeps regs) (used : reg ∈ regs) (foreign : Foreign) :
    (client.call env foreign).machine.lower reg = client.machine.lower reg := by
  rw [call_machine enabled keeps]
  exact keeps.lower _ _ _ reg used

theorem qgetbndl_value : (client.qgetbndl env reg).1 = client.machine.lower reg := by
  have called := congrArg Prod.fst
    (nearCall_qgetbndl enabled (env.rsp client.accesses.length) reg)
  rw [accessed_of_en enabled.1] at called
  exact called

theorem qgetbndl_mpx : (client.qgetbndl env reg).2.machine.mpx = client.machine.mpx := by
  have called := congrArg Prod.snd
    (nearCall_qgetbndl enabled (env.rsp client.accesses.length) reg)
  exact (congrArg Machine.mpx called).trans (afterQuickAccess_mpx _ reg client.machine)

theorem qgetbndl_enabled : (client.qgetbndl env reg).2.machine.mpx.Enabled := by
  rwa [qgetbndl_mpx enabled]

theorem qgetbndl_lower (other : BndregT) :
    (client.qgetbndl env reg).2.machine.lower other = client.machine.lower other :=
  lower_of_mpx_eq (qgetbndl_mpx enabled) other

theorem qsetbndl_machine (val : Word) :
    (client.qsetbndl reg val).machine = writePair "qsetbndl" reg val 0 client.machine :=
  congrArg Prod.snd (nearCall_qsetbndl enabled reg val)

theorem qsetbndl_enabled (reg : BndregT) (val : Word) :
    (client.qsetbndl reg val).machine.mpx.Enabled := by
  rw [qsetbndl_machine enabled]
  exact writePair_enabled enabled _ _ _ _

theorem qsetbndl_lower_self (valid : (switchReg reg).isSome) (val : Word) :
    (client.qsetbndl reg val).machine.lower reg = val := by
  rw [qsetbndl_machine enabled, writePair_lower_self enabled.1 valid]

theorem qsetbndl_lower_of_ne {other : BndregT} (apart : other ≠ reg) (val : Word) :
    (client.qsetbndl reg val).machine.lower other = client.machine.lower other := by
  rw [qsetbndl_machine enabled, Machine.lower, Machine.lower, writePair_bnd_of_en enabled.1]
  cases named : switchReg other with
  | none => rfl
  | some bnd =>
      cases written : switchReg reg with
      | none => rfl
      | some target =>
          have differ : bnd ≠ target := by
            rintro rfl
            exact apart (switchReg_injective named written)
          simp only [Function.update_of_ne differ]

end Enabled

/-! Pointers held in registers -/

/-- MPX is on, each of the registers holds its pointer, and `calls` were made so far. -/
structure Holding (held : List (BndregT × Word)) (calls : List Foreign)
    (client : Client Foreign) : Prop where
  enabled : client.machine.mpx.Enabled
  lower : ∀ entry ∈ held, client.machine.lower entry.1 = entry.2
  calls : client.calls = calls

namespace Holding

variable {held : List (BndregT × Word)} {calls : List Foreign} (holding : Holding held calls client)
include holding

theorem call (keeps : env.Keeps (held.map Prod.fst)) (foreign : Foreign) :
    Holding held (foreign :: calls) (client.call env foreign) := by
  refine ⟨call_enabled holding.enabled keeps foreign, ?_, congrArg (foreign :: ·) holding.calls⟩
  intro entry member
  rw [call_lower holding.enabled keeps (List.mem_map_of_mem member)]
  exact holding.lower entry member

theorem perform (keeps : env.Keeps (held.map Prod.fst)) (foreign : Foreign) :
    Holding held (foreign :: calls) (client.perform env foreign) := by
  refine ⟨perform_enabled holding.enabled keeps foreign, ?_, congrArg (foreign :: ·) holding.calls⟩
  intro entry member
  exact (keeps.lower client.calls foreign client.machine entry.1
    (List.mem_map_of_mem member)).trans (holding.lower entry member)

theorem fetched {val : Word} (member : (reg, val) ∈ held) : (client.qgetbndl env reg).1 = val := by
  rw [qgetbndl_value holding.enabled]
  exact holding.lower (reg, val) member

theorem qgetbndl (reg : BndregT) : Holding held calls (client.qgetbndl env reg).2 := by
  refine ⟨qgetbndl_enabled holding.enabled, ?_, holding.calls⟩
  intro entry member
  rw [qgetbndl_lower holding.enabled]
  exact holding.lower entry member

theorem callOn (keeps : env.Keeps (held.map Prod.fst)) {val : Word} (member : (reg, val) ∈ held)
    (foreign : Word → Foreign) :
    Holding held (foreign val :: calls) (client.callOn env reg foreign) := by
  rw [callOn_eq, holding.fetched member]
  exact (holding.qgetbndl reg).call keeps _

theorem performOn (keeps : env.Keeps (held.map Prod.fst)) {val : Word}
    (member : (reg, val) ∈ held) (foreign : Word → Foreign) :
    Holding held (foreign val :: calls) (client.performOn env reg foreign) := by
  have same : client.performOn env reg foreign =
      (client.qgetbndl env reg).2.perform env (foreign (client.qgetbndl env reg).1) := rfl
  rw [same, holding.fetched member]
  exact (holding.qgetbndl reg).perform keeps _

theorem qsetbndl (valid : (switchReg reg).isSome) (fresh : reg ∉ held.map Prod.fst) (val : Word) :
    Holding ((reg, val) :: held) calls (client.qsetbndl reg val) := by
  refine ⟨qsetbndl_enabled holding.enabled reg val, ?_, holding.calls⟩
  intro entry member
  rcases List.mem_cons.mp member with rfl | earlier
  · exact qsetbndl_lower_self holding.enabled valid val
  · have apart : entry.1 ≠ reg := fun same => fresh (same ▸ List.mem_map_of_mem earlier)
    rw [qsetbndl_lower_of_ne holding.enabled apart]
    exact holding.lower entry earlier

end Holding

end Client

end SimplexMpx
