import SimplexMpx.Registers
import SimplexMpx.Startup

/-!
The library calls one by one: what a successful start and stop leave behind, and what the other
calls do while MPX is enabled, when the branches around and inside them keep the registers.
-/

namespace SimplexMpx

open ByteMemory

/-! Starting and stopping -/

def startedMachine (platform : Platform) (buffer : Word) (machine : Machine) : Machine :=
  machine.nearBranch.configured platform 3
    (enableImage buffer (memsetBuffer buffer machine.nearBranch))

def stoppedMachine (platform : Platform) (buffer : Word) (machine : Machine) : Machine :=
  machine.nearBranch.configured platform 0
    (disableImage buffer (memsetBuffer buffer machine.nearBranch))

/-- A processor with MPX whose operating system lets the process use it. -/
structure Capable (platform : Platform) : Prop where
  detected : Detected platform
  osxsave : platform.osxsave = true
  bndregs : platform.xcr0.getLsbD 3 = true
  bndcsr : platform.xcr0.getLsbD 4 = true

theorem capablePlatform_capable : Capable capablePlatform :=
  ⟨(checkMpxSupport_iff capablePlatform).mp (by decide), rfl, by decide, by decide⟩

theorem startedMachine_enabled (platform : Platform) (buffer : Word) (machine : Machine) :
    (startedMachine platform buffer machine).mpx.Enabled :=
  configured_enabled platform _ _

theorem stoppedMachine_off (platform : Platform) (buffer : Word) (machine : Machine) :
    (stoppedMachine platform buffer machine).mpx.en = false :=
  configured_off platform _ _

theorem callStep_init {platform : Platform} (found : Detected platform)
    (on : platform.osxsave = true) (csr : platform.xcr0.getLsbD 4 = true) (buffer : Word)
    (machine : Machine) :
    callStep platform (.processSpecificInit buffer) machine =
      .ok (.bool true, startedMachine platform buffer machine) := by
  have returned := Machine.nearBranch_of_enabled (startedMachine_enabled platform buffer machine)
  simp only [callStep, fallibleCall, processSpecificInit_detected found, enableMpx_ok on csr]
  exact congrArg (fun final => Except.ok (Returned.bool true, final)) returned

theorem callStep_finish {platform : Platform} (found : Detected platform)
    (on : platform.osxsave = true) (csr : platform.xcr0.getLsbD 4 = true) (buffer : Word)
    (machine : Machine) :
    callStep platform (.processSpecificFinish buffer) machine =
      .ok (.bool true, stoppedMachine platform buffer machine) := by
  have returned := Machine.nearBranch_of_off (stoppedMachine_off platform buffer machine)
  simp only [callStep, fallibleCall, processSpecificFinish_detected found, disableMpx_ok on csr]
  exact congrArg (fun final => Except.ok (Returned.bool true, final)) returned

theorem callStep_init_undetected {platform : Platform} (missing : ¬Detected platform)
    (buffer : Word) (machine : Machine) :
    callStep platform (.processSpecificInit buffer) machine =
      .ok (.bool false, machine.nearBranch.nearBranch) := by
  simp only [callStep, fallibleCall, processSpecificInit_undetected missing]
  rfl

theorem callStep_finish_undetected {platform : Platform} (missing : ¬Detected platform)
    (buffer : Word) (machine : Machine) :
    callStep platform (.processSpecificFinish buffer) machine =
      .ok (.bool false, machine.nearBranch.nearBranch) := by
  simp only [callStep, fallibleCall, processSpecificFinish_undetected missing]
  rfl

theorem init_runs {platform : Platform} (found : Detected platform) {buffer : Word}
    {machine : Machine} {result : Returned × Machine}
    (began : callStep platform (.processSpecificInit buffer) machine = .ok result) :
    platform.osxsave = true ∧ platform.xcr0.getLsbD 4 = true := by
  by_contra missing
  obtain ⟨fault, failed⟩ := init_faults found missing buffer machine.nearBranch
  simp only [callStep, fallibleCall, failed] at began
  contradiction

theorem init_true {platform : Platform} {buffer : Word} {machine started : Machine}
    (began : callStep platform (.processSpecificInit buffer) machine =
      .ok (.bool true, started)) :
    Detected platform ∧ platform.osxsave = true ∧ platform.xcr0.getLsbD 4 = true := by
  by_cases found : Detected platform
  · exact ⟨found, init_runs found began⟩
  · rw [callStep_init_undetected found] at began
    simp at began

theorem finish_true {platform : Platform} {buffer : Word} {machine stopped : Machine}
    (ended : callStep platform (.processSpecificFinish buffer) machine =
      .ok (.bool true, stopped)) :
    Detected platform ∧ platform.osxsave = true ∧ platform.xcr0.getLsbD 4 = true := by
  by_cases found : Detected platform
  · refine ⟨found, ?_⟩
    by_contra missing
    obtain ⟨fault, failed⟩ := finish_faults found missing buffer machine.nearBranch
    simp only [callStep, fallibleCall, failed] at ended
    contradiction
  · rw [callStep_finish_undetected found] at ended
    simp at ended

theorem finish_runs {platform : Platform} {buffer : Word} {machine : Machine}
    {result : Returned × Machine}
    (began : callStep platform (.processSpecificInit buffer) machine = .ok result)
    (buffer' : Word) (machine' : Machine) :
    ∃ result', callStep platform (.processSpecificFinish buffer') machine' = .ok result' := by
  by_cases found : Detected platform
  · obtain ⟨on, csr⟩ := init_runs found began
    exact ⟨_, callStep_finish found on csr buffer' machine'⟩
  · exact ⟨_, callStep_finish_undetected found buffer' machine'⟩

/-- MPX is on after `process_specific_init` if it is detected or was on before. -/
theorem init_enabled {platform : Platform} {buffer : Word} {machine started : Machine}
    {value : Returned} (ready : Detected platform ∨ machine.mpx.Enabled)
    (began : callStep platform (.processSpecificInit buffer) machine = .ok (value, started)) :
    started.mpx.Enabled := by
  by_cases found : Detected platform
  · obtain ⟨on, csr⟩ := init_runs found began
    rw [callStep_init found on csr] at began
    obtain ⟨-, rfl⟩ := Prod.mk.inj (Except.ok.inj began)
    exact startedMachine_enabled platform buffer machine
  · have enabled := ready.resolve_left found
    rw [callStep_init_undetected found, Machine.nearBranch_of_enabled enabled,
      Machine.nearBranch_of_enabled enabled] at began
    obtain ⟨-, rfl⟩ := Prod.mk.inj (Except.ok.inj began)
    exact enabled

/-! Memory outside the image -/

theorem store_outside_image {buffer address offset : Word} (outside : ¬Within buffer 4096 address)
    (inside : offset.toNat + 8 ≤ 4096) (value : Word) (machine : Machine) :
    (machine.store (buffer + offset) value).mem address = machine.mem address := by
  refine store64_outside fun within => outside ?_
  unfold Within at within ⊢
  bv_omega

theorem enableImage_outside {buffer address : Word} (outside : ¬Within buffer 4096 address)
    (machine : Machine) : (enableImage buffer machine).mem address = machine.mem address := by
  simp only [enableImage, xstateBvAddress_eq, cfgRegUAddress_eq, statusRegAddress_eq, add_assoc]
  rw [store_outside_image outside (by decide), store_outside_image outside (by decide),
    store_outside_image outside (by decide), store_outside_image outside (by decide),
    store_outside_image outside (by decide)]

theorem disableImage_outside {buffer address : Word} (outside : ¬Within buffer 4096 address)
    (machine : Machine) : (disableImage buffer machine).mem address = machine.mem address := by
  simp only [disableImage, xstateBvAddress_eq, cfgRegUAddress_eq, statusRegAddress_eq, add_assoc]
  rw [store_outside_image outside (by decide), store_outside_image outside (by decide),
    store_outside_image outside (by decide)]

theorem memsetBuffer_outside {buffer address : Word} (outside : ¬Within buffer 4096 address)
    (machine : Machine) :
    (memsetBuffer buffer machine.nearBranch).mem address = machine.mem address := by
  rw [← Machine.nearBranch_mem machine]
  exact fill_outside outside _ 0

theorem startedMachine_outside {buffer address : Word} (outside : ¬Within buffer 4096 address)
    (platform : Platform) (machine : Machine) :
    (startedMachine platform buffer machine).mem address = machine.mem address :=
  (enableImage_outside outside _).trans (memsetBuffer_outside outside machine)

theorem stoppedMachine_outside {buffer address : Word} (outside : ¬Within buffer 4096 address)
    (platform : Platform) (machine : Machine) :
    (stoppedMachine platform buffer machine).mem address = machine.mem address :=
  (disableImage_outside outside _).trans (memsetBuffer_outside outside machine)

/-- What a completed start leaves. -/
theorem init_cases {platform : Platform} {buffer : Word} {machine started : Machine}
    {value : Returned} (began : callStep platform (.processSpecificInit buffer) machine =
      .ok (value, started)) :
    started = startedMachine platform buffer machine ∨ started = machine.nearBranch.nearBranch := by
  by_cases found : Detected platform
  · obtain ⟨on, csr⟩ := init_runs found began
    rw [callStep_init found on csr] at began
    exact Or.inl (Prod.mk.inj (Except.ok.inj began)).2.symm
  · rw [callStep_init_undetected found] at began
    exact Or.inr (Prod.mk.inj (Except.ok.inj began)).2.symm

theorem finish_cases {platform : Platform} {buffer : Word} {machine stopped : Machine}
    {value : Returned} (ended : callStep platform (.processSpecificFinish buffer) machine =
      .ok (value, stopped)) :
    stopped = stoppedMachine platform buffer machine ∨ stopped = machine.nearBranch.nearBranch := by
  by_cases found : Detected platform
  · by_cases ready : platform.osxsave = true ∧ platform.xcr0.getLsbD 4 = true
    · rw [callStep_finish found ready.1 ready.2] at ended
      exact Or.inl (Prod.mk.inj (Except.ok.inj ended)).2.symm
    · obtain ⟨fault, failed⟩ := finish_faults found ready buffer machine.nearBranch
      simp only [callStep, fallibleCall, failed] at ended
      contradiction
  · rw [callStep_finish_undetected found] at ended
    exact Or.inr (Prod.mk.inj (Except.ok.inj ended)).2.symm

theorem init_outside {platform : Platform} {buffer address : Word} {machine started : Machine}
    {value : Returned} (began : callStep platform (.processSpecificInit buffer) machine =
      .ok (value, started)) (outside : ¬Within buffer 4096 address) :
    started.mem address = machine.mem address := by
  rcases init_cases began with rfl | rfl
  · exact startedMachine_outside outside platform machine
  · rw [Machine.nearBranch_mem, Machine.nearBranch_mem]

theorem finish_outside {platform : Platform} {buffer address : Word} {machine stopped : Machine}
    {value : Returned} (ended : callStep platform (.processSpecificFinish buffer) machine =
      .ok (value, stopped)) (outside : ¬Within buffer 4096 address) :
    stopped.mem address = machine.mem address := by
  rcases finish_cases ended with rfl | rfl
  · exact stoppedMachine_outside outside platform machine
  · rw [Machine.nearBranch_mem, Machine.nearBranch_mem]

/-! Calls while MPX is enabled -/

theorem afterAccess_enabled {machine : Machine} (enabled : machine.mpx.Enabled)
    (function : String) (rsp : Word) (reg : BndregT) :
    (afterAccess function rsp reg machine).mpx.Enabled := by
  rwa [afterAccess_mpx]

theorem writePair_enabled {machine : Machine} (enabled : machine.mpx.Enabled)
    (function : String) (reg : BndregT) (lower displacement : Word) :
    (writePair function reg lower displacement machine).mpx.Enabled :=
  enabled_of_bndcfgu_eq (writePair_bndcfgu function reg lower displacement machine) enabled

theorem call_of_enabled {α : Type} {returned : α → Returned} {body : Machine → α × Machine}
    {machine : Machine} (enabled : machine.mpx.Enabled) (kept : (body machine).2.mpx.Enabled) :
    call returned body machine = .ok (returned (body machine).1, (body machine).2) := by
  simp only [call, Machine.nearCall_of_enabled enabled kept]

variable {platform : Platform} {machine : Machine}

theorem callStep_getbndl (enabled : machine.mpx.Enabled) (rsp : Word) (reg : BndregT) :
    callStep platform (.getbndl rsp reg) machine =
      .ok (.word (accessed 0 BndPair.lb rsp reg machine),
        afterAccess "getbndl" rsp reg machine) := by
  have kept := afterAccess_enabled enabled "getbndl" rsp reg
  rw [callStep, call_of_enabled enabled (by rwa [getbndl_eq]), getbndl_eq]

theorem callStep_getbndu (enabled : machine.mpx.Enabled) (rsp : Word) (reg : BndregT) :
    callStep platform (.getbndu rsp reg) machine =
      .ok (.word (accessed 0 (fun pair => ~~~pair.ub) rsp reg machine),
        afterAccess "getbndu" rsp reg machine) := by
  have kept := afterAccess_enabled enabled "getbndu" rsp reg
  rw [callStep, call_of_enabled enabled (by rwa [getbndu_eq]), getbndu_eq]

theorem callStep_getbnd (enabled : machine.mpx.Enabled) (rsp : Word) (reg : BndregT) :
    callStep platform (.getbnd rsp reg) machine =
      .ok (.wide (accessed 0 wideOf rsp reg machine), afterAccess "getbndu" rsp reg machine) := by
  have kept := afterAccess_enabled enabled "getbndu" rsp reg
  rw [callStep, call_of_enabled enabled (by rwa [getbnd_eq]), getbnd_eq]

theorem nearCall_qgetbndl (enabled : machine.mpx.Enabled) (rsp : Word) (reg : BndregT) :
    machine.nearCall (qgetbndl rsp reg) =
      (accessed 0 BndPair.lb rsp reg machine, afterQuickAccess rsp reg machine) := by
  have kept : (afterQuickAccess rsp reg machine).mpx.Enabled := by rwa [afterQuickAccess_mpx]
  rw [Machine.nearCall_of_enabled enabled (by rwa [qgetbndl_eq]), qgetbndl_eq]

theorem callStep_qgetbndl (enabled : machine.mpx.Enabled) (rsp : Word) (reg : BndregT) :
    callStep platform (.qgetbndl rsp reg) machine =
      .ok (.word (accessed 0 BndPair.lb rsp reg machine), afterQuickAccess rsp reg machine) := by
  simp only [callStep, call, nearCall_qgetbndl enabled]

theorem callStep_setbndl (enabled : machine.mpx.Enabled) (rsp : Word) (reg : BndregT)
    (val : Word) :
    callStep platform (.setbndl rsp reg val) machine =
      .ok (.void, writePair "setbndl" reg val
        (accessed 0 (fun pair => ~~~pair.ub) rsp reg machine - val)
        (afterAccess "getbndu" rsp reg machine)) := by
  have after := afterAccess_enabled enabled "getbndu" rsp reg
  have nested : machine.nearCall (getbndu rsp reg) = getbndu rsp reg machine :=
    Machine.nearCall_of_enabled enabled (by rwa [getbndu_eq])
  have body : setbndl rsp reg val machine = writePair "setbndl" reg val
      (accessed 0 (fun pair => ~~~pair.ub) rsp reg machine - val)
      (afterAccess "getbndu" rsp reg machine) := by
    rw [setbndl_eq, nested, getbndu_eq]
  rw [callStep, call_of_enabled enabled]
  · rw [procedure, body]
  · rw [procedure, body]
    exact writePair_enabled after _ _ _ _

theorem callStep_setbndu (enabled : machine.mpx.Enabled) (rsp : Word) (reg : BndregT)
    (val : Word) :
    callStep platform (.setbndu rsp reg val) machine =
      .ok (.void, writePair "setbndu" reg (accessed 0 BndPair.lb rsp reg machine)
        (val - accessed 0 BndPair.lb rsp reg machine)
        (afterAccess "getbndl" rsp reg machine)) := by
  have after := afterAccess_enabled enabled "getbndl" rsp reg
  have nested : machine.nearCall (getbndl rsp reg) = getbndl rsp reg machine :=
    Machine.nearCall_of_enabled enabled (by rwa [getbndl_eq])
  have body : setbndu rsp reg val machine = writePair "setbndu" reg
      (accessed 0 BndPair.lb rsp reg machine) (val - accessed 0 BndPair.lb rsp reg machine)
      (afterAccess "getbndl" rsp reg machine) := by
    rw [setbndu_eq, nested, getbndl_eq]
  rw [callStep, call_of_enabled enabled]
  · rw [procedure, body]
  · rw [procedure, body]
    exact writePair_enabled after _ _ _ _

theorem callStep_setbnd (enabled : machine.mpx.Enabled) (reg : BndregT) (val : BitVec 128) :
    callStep platform (.setbnd reg val) machine =
      .ok (.void, writePair "setbndu" reg (lowHalf val) (highHalf val - lowHalf val) machine) := by
  rw [callStep, call_of_enabled enabled]
  · rw [procedure, setbnd_eq]
  · rw [procedure, setbnd_eq]
    exact writePair_enabled enabled _ _ _ _

theorem nearCall_qsetbndl (enabled : machine.mpx.Enabled) (reg : BndregT) (val : Word) :
    machine.nearCall (procedure (qsetbndl reg val)) =
      ((), writePair "qsetbndl" reg val 0 machine) := by
  have kept := writePair_enabled enabled "qsetbndl" reg val 0
  rw [Machine.nearCall_of_enabled enabled]
  · rw [procedure, qsetbndl_eq]
  · rwa [procedure, qsetbndl_eq]

theorem callStep_qsetbndl (enabled : machine.mpx.Enabled) (reg : BndregT) (val : Word) :
    callStep platform (.qsetbndl reg val) machine =
      .ok (.void, writePair "qsetbndl" reg val 0 machine) := by
  simp only [callStep, call, nearCall_qsetbndl enabled]

theorem callStep_nearBranch (enabled : machine.mpx.Enabled) :
    callStep platform .nearBranch machine = .ok (.void, machine) := by
  simp only [callStep, Machine.nearBranch_of_enabled enabled]

end SimplexMpx
