import SimplexMpx.Calls

/-!
What a call does to everything but the register pairs: the same whatever the pairs hold, except
in the slot `qgetbndl` leaves a register in.
-/

namespace SimplexMpx

open ByteMemory

/-- The call with the value it stores left out. -/
def Call.shape : Call → Call
  | .setbndl rsp reg _ => .setbndl rsp reg 0
  | .setbndu rsp reg _ => .setbndu rsp reg 0
  | .setbnd reg _ => .setbnd reg 0
  | .qsetbndl reg _ => .qsetbndl reg 0
  | command => command

def SameShape (command command' : Call) : Prop := command.shape = command'.shape

def Call.isRegisterCall : Call → Bool
  | .processSpecificInit _ => false
  | .processSpecificFinish _ => false
  | _ => true

def Call.isQuickGet : Call → Bool
  | .qgetbndl _ _ => true
  | _ => false

/-! Everything but the register pairs -/

def Machine.withoutPairs (machine : Machine) : Machine :=
  { machine with mpx := { machine.mpx with bnd := fun _ => initPair } }

@[simp] theorem withoutPairs_mem (machine : Machine) :
    machine.withoutPairs.mem = machine.mem := rfl

@[simp] theorem withoutPairs_stderr (machine : Machine) :
    machine.withoutPairs.stderr = machine.stderr := rfl

theorem withoutPairs_eq {machine machine' : Machine} (memory : machine.mem = machine'.mem)
    (text : machine.stderr = machine'.stderr)
    (config : machine.mpx.bndcfgu = machine'.mpx.bndcfgu)
    (status : machine.mpx.bndstatus = machine'.mpx.bndstatus) :
    machine.withoutPairs = machine'.withoutPairs :=
  Machine.ext (MpxState.ext rfl config status) memory text

@[simp] theorem nearBranch_withoutPairs (machine : Machine) :
    machine.nearBranch.withoutPairs = machine.withoutPairs := by
  apply withoutPairs_eq <;> simp

@[simp] theorem afterAccess_withoutPairs (function : String) (rsp : Word) (reg : BndregT)
    (machine : Machine) :
    (afterAccess function rsp reg machine).withoutPairs =
      afterAccess function rsp reg machine.withoutPairs := by
  unfold afterAccess
  split <;> rfl

def complain (function : String) (reg : BndregT) (machine : Machine) : Machine :=
  match switchReg reg with
  | some _ => machine
  | none => machine.fprintfStderr (invalidRegister function reg)

@[simp] theorem writePair_withoutPairs (function : String) (reg : BndregT)
    (lower displacement : Word) (machine : Machine) :
    (writePair function reg lower displacement machine).withoutPairs =
      complain function reg machine.withoutPairs := by
  unfold writePair complain
  cases switchReg reg with
  | none => rfl
  | some bnd => apply withoutPairs_eq <;> simp

@[simp] theorem complain_mem (function : String) (reg : BndregT) (machine : Machine) :
    (complain function reg machine).mem = machine.mem := by
  unfold complain
  split <;> rfl

/-- The effect of a call other than `qgetbndl`, start and stop on all but the pairs. -/
def visibleEffect : Call → Machine → Machine
  | .getbndl rsp reg, machine => afterAccess "getbndl" rsp reg machine
  | .getbndu rsp reg, machine => afterAccess "getbndu" rsp reg machine
  | .getbnd rsp reg, machine => afterAccess "getbndu" rsp reg machine
  | .setbndl rsp reg _, machine => complain "setbndl" reg (afterAccess "getbndu" rsp reg machine)
  | .setbndu rsp reg _, machine => complain "setbndu" reg (afterAccess "getbndl" rsp reg machine)
  | .setbnd reg _, machine => complain "setbndu" reg machine
  | .qsetbndl reg _, machine => complain "qsetbndl" reg machine
  | _, machine => machine

theorem visibleEffect_shape (command : Call) :
    visibleEffect command.shape = visibleEffect command := by
  cases command <;> rfl

theorem nearCall_visible {α : Type} {body : Machine → α × Machine} {effect : Machine → Machine}
    (visible : ∀ machine, (body machine).2.withoutPairs = effect machine.withoutPairs)
    (machine : Machine) :
    (machine.nearCall body).2.withoutPairs = effect machine.withoutPairs := by
  rw [Machine.nearCall, nearBranch_withoutPairs, visible, nearBranch_withoutPairs]

theorem call_visible {α : Type} (returned : α → Returned) (body : Machine → α × Machine)
    (command : Call)
    (visible : ∀ machine, (body machine).2.withoutPairs =
      visibleEffect command machine.withoutPairs) (machine : Machine) :
    ∃ value next, call returned body machine = .ok (value, next) ∧
      next.withoutPairs = visibleEffect command machine.withoutPairs :=
  ⟨_, _, rfl, nearCall_visible visible machine⟩

theorem getbndl_visible (rsp : Word) (reg : BndregT) (machine : Machine) :
    (getbndl rsp reg machine).2.withoutPairs =
      afterAccess "getbndl" rsp reg machine.withoutPairs := by
  rw [getbndl_eq, afterAccess_withoutPairs]

theorem getbndu_visible (rsp : Word) (reg : BndregT) (machine : Machine) :
    (getbndu rsp reg machine).2.withoutPairs =
      afterAccess "getbndu" rsp reg machine.withoutPairs := by
  rw [getbndu_eq, afterAccess_withoutPairs]

theorem getbnd_visible (rsp : Word) (reg : BndregT) (machine : Machine) :
    (getbnd rsp reg machine).2.withoutPairs =
      afterAccess "getbndu" rsp reg machine.withoutPairs := by
  rw [getbnd_eq, afterAccess_withoutPairs]

theorem setbndl_visible (rsp : Word) (reg : BndregT) (val : Word) (machine : Machine) :
    (procedure (setbndl rsp reg val) machine).2.withoutPairs =
      complain "setbndl" reg (afterAccess "getbndu" rsp reg machine.withoutPairs) := by
  rw [procedure, setbndl_eq, writePair_withoutPairs, nearCall_visible (getbndu_visible rsp reg)]

theorem setbndu_visible (rsp : Word) (reg : BndregT) (val : Word) (machine : Machine) :
    (procedure (setbndu rsp reg val) machine).2.withoutPairs =
      complain "setbndu" reg (afterAccess "getbndl" rsp reg machine.withoutPairs) := by
  rw [procedure, setbndu_eq, writePair_withoutPairs, nearCall_visible (getbndl_visible rsp reg)]

theorem setbnd_visible (reg : BndregT) (val : BitVec 128) (machine : Machine) :
    (procedure (setbnd reg val) machine).2.withoutPairs =
      complain "setbndu" reg machine.withoutPairs := by
  rw [procedure, setbnd_eq, writePair_withoutPairs]

theorem qsetbndl_visible (reg : BndregT) (val : Word) (machine : Machine) :
    (procedure (qsetbndl reg val) machine).2.withoutPairs =
      complain "qsetbndl" reg machine.withoutPairs := by
  rw [procedure, qsetbndl_eq, writePair_withoutPairs]

theorem callStep_visible (platform : Platform) {command : Call}
    (register : command.isRegisterCall = true) (slow : command.isQuickGet = false)
    (machine : Machine) :
    ∃ value next, callStep platform command machine = .ok (value, next) ∧
      next.withoutPairs = visibleEffect command machine.withoutPairs := by
  cases command with
  | processSpecificInit buffer => simp [Call.isRegisterCall] at register
  | processSpecificFinish buffer => simp [Call.isRegisterCall] at register
  | qgetbndl rsp reg => simp [Call.isQuickGet] at slow
  | getbndl rsp reg =>
      exact call_visible .word (getbndl rsp reg) (.getbndl rsp reg) (getbndl_visible rsp reg) machine
  | getbndu rsp reg =>
      exact call_visible .word (getbndu rsp reg) (.getbndu rsp reg) (getbndu_visible rsp reg) machine
  | getbnd rsp reg =>
      exact call_visible .wide (getbnd rsp reg) (.getbnd rsp reg) (getbnd_visible rsp reg) machine
  | setbndl rsp reg val =>
      exact call_visible (fun _ => .void) (procedure (setbndl rsp reg val)) (.setbndl rsp reg val)
        (setbndl_visible rsp reg val) machine
  | setbndu rsp reg val =>
      exact call_visible (fun _ => .void) (procedure (setbndu rsp reg val)) (.setbndu rsp reg val)
        (setbndu_visible rsp reg val) machine
  | setbnd reg val =>
      exact call_visible (fun _ => .void) (procedure (setbnd reg val)) (.setbnd reg val)
        (setbnd_visible reg val) machine
  | qsetbndl reg val =>
      exact call_visible (fun _ => .void) (procedure (qsetbndl reg val)) (.qsetbndl reg val)
        (qsetbndl_visible reg val) machine
  | nearBranch => exact ⟨_, _, rfl, nearBranch_withoutPairs machine⟩

/-! The slots a call clears and leaves a register in -/

/-- Accessors and half-word mutators clear the slot at their accessor's stack pointer. -/
def Clears : Call → Word → Prop
  | .getbndl rsp reg, address => (switchReg reg).isSome ∧ InSlot rsp address
  | .getbndu rsp reg, address => (switchReg reg).isSome ∧ InSlot rsp address
  | .getbnd rsp reg, address => (switchReg reg).isSome ∧ InSlot rsp address
  | .setbndl rsp reg _, address => (switchReg reg).isSome ∧ InSlot rsp address
  | .setbndu rsp reg _, address => (switchReg reg).isSome ∧ InSlot rsp address
  | _, _ => False

def Spills : Call → Word → Prop
  | .qgetbndl rsp _, address => InSlot rsp address
  | _, _ => False

theorem afterAccess_mem_cleared {rsp address : Word} {reg : BndregT}
    (valid : (switchReg reg).isSome) (inside : InSlot rsp address) (function : String)
    (machine : Machine) : (afterAccess function rsp reg machine).mem address = 0 := by
  obtain ⟨bnd, named⟩ := Option.isSome_iff_exists.mp valid
  simp only [afterAccess, named]
  exact scrubbed_mem_inside inside machine

theorem afterAccess_mem_kept {rsp address : Word} {reg : BndregT}
    (outside : ¬((switchReg reg).isSome ∧ InSlot rsp address)) (function : String)
    (machine : Machine) :
    (afterAccess function rsp reg machine).mem address = machine.mem address := by
  unfold afterAccess
  cases named : switchReg reg with
  | none => rfl
  | some bnd =>
      apply scrubbed_mem_outside
      intro inside
      exact outside ⟨by rw [named]; rfl, inside⟩

theorem visibleEffect_cleared {command : Call} {address : Word} (clears : Clears command address)
    (machine : Machine) : (visibleEffect command machine).mem address = 0 := by
  cases command with
  | getbndl rsp reg => exact afterAccess_mem_cleared clears.1 clears.2 _ _
  | getbndu rsp reg => exact afterAccess_mem_cleared clears.1 clears.2 _ _
  | getbnd rsp reg => exact afterAccess_mem_cleared clears.1 clears.2 _ _
  | setbndl rsp reg val =>
      rw [visibleEffect, complain_mem]
      exact afterAccess_mem_cleared clears.1 clears.2 _ _
  | setbndu rsp reg val =>
      rw [visibleEffect, complain_mem]
      exact afterAccess_mem_cleared clears.1 clears.2 _ _
  | _ => exact clears.elim

theorem visibleEffect_kept {command : Call} {address : Word} (keeps : ¬Clears command address)
    (machine : Machine) : (visibleEffect command machine).mem address = machine.mem address := by
  cases command with
  | getbndl rsp reg => exact afterAccess_mem_kept keeps _ _
  | getbndu rsp reg => exact afterAccess_mem_kept keeps _ _
  | getbnd rsp reg => exact afterAccess_mem_kept keeps _ _
  | setbndl rsp reg val =>
      rw [visibleEffect, complain_mem]
      exact afterAccess_mem_kept keeps _ _
  | setbndu rsp reg val =>
      rw [visibleEffect, complain_mem]
      exact afterAccess_mem_kept keeps _ _
  | setbnd reg val => exact congrFun (complain_mem _ _ _) address
  | qsetbndl reg val => exact congrFun (complain_mem _ _ _) address
  | _ => rfl

theorem callStep_byte (platform : Platform) {command : Call}
    (register : command.isRegisterCall = true) (machine : Machine) :
    ∃ value next, callStep platform command machine = .ok (value, next) ∧
      ∀ address, (Clears command address → next.mem address = 0) ∧
        (¬Clears command address → ¬Spills command address →
          next.mem address = machine.mem address) := by
  by_cases quick : command.isQuickGet = true
  · cases command with
    | qgetbndl rsp reg =>
        refine ⟨_, (machine.nearCall (qgetbndl rsp reg)).2, rfl, ?_⟩
        intro address
        refine ⟨fun clears => clears.elim, ?_⟩
        intro _ apart
        rw [Machine.nearCall, qgetbndl_eq, Machine.nearBranch_mem,
          afterQuickAccess_mem_outside apart, Machine.nearBranch_mem]
    | _ => simp [Call.isQuickGet] at quick
  · rw [Bool.not_eq_true] at quick
    obtain ⟨value, next, stepped, visible⟩ := callStep_visible platform register quick machine
    have memory : next.mem = (visibleEffect command machine.withoutPairs).mem := by
      rw [← visible, withoutPairs_mem]
    refine ⟨value, next, stepped, ?_⟩
    intro address
    rw [memory]
    exact ⟨fun clears => visibleEffect_cleared clears _,
      fun keeps _ => visibleEffect_kept keeps _⟩

@[simp] theorem complain_mpx (function : String) (reg : BndregT) (machine : Machine) :
    (complain function reg machine).mpx = machine.mpx := by
  unfold complain
  split <;> rfl

theorem visibleEffect_mpx (command : Call) (machine : Machine) :
    (visibleEffect command machine).mpx = machine.mpx := by
  cases command <;> simp [visibleEffect]

theorem callStep_bndcfgu (platform : Platform) {command : Call}
    (register : command.isRegisterCall = true) {machine next : Machine} {value : Returned}
    (called : callStep platform command machine = .ok (value, next)) :
    next.mpx.bndcfgu = machine.mpx.bndcfgu := by
  by_cases quick : command.isQuickGet = true
  · cases command with
    | qgetbndl rsp reg =>
        have outcome : (machine.nearCall (qgetbndl rsp reg)).2 = next :=
          congrArg Prod.snd (Except.ok.inj called)
        rw [← outcome, Machine.nearCall, qgetbndl_eq, Machine.nearBranch_bndcfgu,
          afterQuickAccess_mpx, Machine.nearBranch_bndcfgu]
    | _ => simp [Call.isQuickGet] at quick
  · rw [Bool.not_eq_true] at quick
    obtain ⟨value', next', stepped, visible⟩ := callStep_visible platform register quick machine
    rw [called] at stepped
    obtain ⟨_, rfl⟩ := Prod.mk.inj (Except.ok.inj stepped)
    have config : next.withoutPairs.mpx.bndcfgu = machine.withoutPairs.mpx.bndcfgu := by
      rw [visible, visibleEffect_mpx]
    exact config

theorem registerCall_ok (platform : Platform) {command : Call}
    (register : command.isRegisterCall = true) (machine : Machine) :
    ∃ result, callStep platform command machine = .ok result := by
  obtain ⟨value, next, stepped, _⟩ := callStep_byte platform register machine
  exact ⟨_, stepped⟩

end SimplexMpx
