import SimplexMpx.Client
import SimplexMpx.FixtureCore
import SimplexMpx.Lbm
import SimplexMpx.SjengCore
import SimplexMpx.StringAgreement

/-!
The discipline of a client while MPX is on: each register in use holds a pointer stored in it. The
steps keep it, so the work of the drivers and the bodies of the benchmarks do.
-/

namespace SimplexMpx

open ByteMemory

/-- Each register in use holds a pointer stored in it. -/
structure Disciplined {Foreign : Type} (used : List BndregT) (client : Client Foreign) : Prop where
  enabled : client.machine.mpx.Enabled
  onlyStored : OnlyStored client.accesses
  stored : ∀ reg ∈ used, .stored reg (client.machine.lower reg) ∈ client.accesses

namespace Disciplined

variable {Foreign : Type} {env : Environment Foreign} {regs used : List BndregT} {reg : BndregT}
  {client : Client Foreign}

theorem mono {fewer : List BndregT} (disciplined : Disciplined used client)
    (within : fewer ⊆ used) : Disciplined fewer client :=
  ⟨disciplined.enabled, disciplined.onlyStored,
    fun reg member => disciplined.stored reg (within member)⟩

theorem call (disciplined : Disciplined used client) (keeps : env.Keeps regs)
    (within : used ⊆ regs) (foreign : Foreign) : Disciplined used (client.call env foreign) := by
  constructor
  · exact Client.call_enabled disciplined.enabled keeps foreign
  · exact disciplined.onlyStored
  · intro reg member
    rw [Client.call_lower disciplined.enabled keeps (within member)]
    exact disciplined.stored reg member

theorem perform (disciplined : Disciplined used client) (keeps : env.Keeps regs)
    (within : used ⊆ regs) (foreign : Foreign) :
    Disciplined used (client.perform env foreign) := by
  constructor
  · exact Client.perform_enabled disciplined.enabled keeps foreign
  · exact disciplined.onlyStored
  · intro reg member
    have same := keeps.lower client.calls foreign client.machine reg (within member)
    have stored := disciplined.stored reg member
    rw [← same] at stored
    exact stored

theorem qgetbndl (disciplined : Disciplined used client) (member : reg ∈ used) :
    Disciplined used (client.qgetbndl env reg).2 := by
  constructor
  · exact Client.qgetbndl_enabled disciplined.enabled
  · rw [Client.qgetbndl_accesses, Client.qgetbndl_value disciplined.enabled]
    exact ⟨disciplined.stored reg member, disciplined.onlyStored⟩
  · intro other otherMember
    rw [Client.qgetbndl_lower disciplined.enabled, Client.qgetbndl_accesses]
    exact List.mem_cons_of_mem _ (disciplined.stored other otherMember)

theorem qsetbndl (disciplined : Disciplined used client) (valid : (switchReg reg).isSome)
    (val : Word) : Disciplined (reg :: used) (client.qsetbndl reg val) := by
  constructor
  · exact Client.qsetbndl_enabled disciplined.enabled reg val
  · exact disciplined.onlyStored
  · intro other member
    by_cases same : other = reg
    · subst same
      rw [Client.qsetbndl_lower_self disciplined.enabled valid]
      exact List.mem_cons_self
    · rw [Client.qsetbndl_lower_of_ne disciplined.enabled same]
      have earlier := (List.mem_cons.mp member).resolve_left same
      exact List.mem_cons_of_mem _ (disciplined.stored other earlier)

theorem invariant (keeps : env.Keeps regs) (valid : ∀ reg ∈ regs, (switchReg reg).isSome) :
    Client.Invariant env regs (Disciplined regs) where
  call _ foreign disciplined := disciplined.call keeps (List.Subset.refl _) foreign
  perform _ foreign disciplined := disciplined.perform keeps (List.Subset.refl _) foreign
  qgetbndl _ _ member disciplined := disciplined.qgetbndl member
  qsetbndl _ reg member val disciplined :=
    (disciplined.qsetbndl (valid reg member) val).mono (List.subset_cons_self reg regs)

end Disciplined

theorem bnd0_mem : BND0 ∈ [BND0, BND1] := by decide

theorem bnd1_mem : BND1 ∈ [BND0, BND1] := by decide

/-! The driver of 519.lbm_r -/

section Lbm

variable {env : Environment LbmCall} {Kept : Client LbmCall → Prop}
  (invariant : Client.Invariant env [BND0, BND1] Kept) {client : Client LbmCall}
include invariant

/-- The first use of a grid is left to the caller. -/
theorem initializeGrids_keeps (kept : Kept (client.callOn env BND0 .initializeGrid))
    (param : MainParam) : Kept (Lbm.initializeGrids env param client) := by
  have initialized := invariant.callOn bnd1_mem .initializeGrid kept
  have loaded : Kept (Lbm.loadObstacles env param
      ((client.callOn env BND0 .initializeGrid).callOn env BND1 .initializeGrid)) := by
    unfold Lbm.loadObstacles
    split
    · exact invariant.callOn bnd1_mem _ (invariant.callOn bnd0_mem _ initialized)
    · exact initialized
  unfold Lbm.initializeGrids Lbm.initializeSpecialCells
  apply invariant.callOn bnd0_mem
  split
  · exact invariant.callOn bnd1_mem _ (invariant.callOn bnd0_mem _ loaded)
  · exact invariant.callOn bnd1_mem _ (invariant.callOn bnd0_mem _ loaded)

theorem timeStep_keeps (kept : Kept client) (param : MainParam) (t : Nat) :
    Kept (Lbm.timeStep env param t client) := by
  have flowed : Kept (Lbm.inOutFlow env param client) := by
    unfold Lbm.inOutFlow
    split
    · exact invariant.callOn bnd0_mem _ kept
    · exact kept
  have swapped : Kept (Lbm.streamAndSwap env (Lbm.inOutFlow env param client)) := by
    simp only [Lbm.streamAndSwap, Lbm.swapGrids]
    apply invariant.qsetbndl _ _ bnd1_mem
    apply invariant.qsetbndl _ _ bnd0_mem
    apply invariant.call
    apply invariant.qgetbndl _ _ bnd1_mem
    apply invariant.qgetbndl _ _ bnd0_mem
    apply invariant.call
    apply invariant.qgetbndl _ _ bnd1_mem
    exact invariant.qgetbndl _ _ bnd0_mem flowed
  unfold Lbm.timeStep Lbm.stepStatistics
  simp only
  split
  · exact invariant.callOn bnd0_mem _ (invariant.call _ _ swapped)
  · exact swapped

theorem timeSteps_keeps (kept : Kept client) (param : MainParam) (count : Nat) :
    Kept (Lbm.timeSteps env param count client) := by
  induction count with
  | zero => exact kept
  | succ count ih => exact timeStep_keeps invariant ih param (count + 1)

theorem reportGrid_keeps (kept : Kept client) (param : MainParam) :
    Kept (Lbm.reportGrid env param client) := by
  have shown := invariant.callOn bnd0_mem .showGridStatistics kept
  have compared := invariant.callOn bnd0_mem (.compareVelocityField · param.resultFilename true) shown
  simp only [Lbm.reportGrid]
  split
  · apply invariant.callOn bnd0_mem
    split
    · exact compared
    · exact shown
  · split
    · exact compared
    · exact shown

theorem freeGrids_keeps (kept : Kept client) : Kept (Lbm.freeGrids env client) := by
  simp only [Lbm.freeGrids]
  apply invariant.call
  apply invariant.call
  apply invariant.qgetbndl _ _ bnd1_mem
  exact invariant.qgetbndl _ _ bnd0_mem kept

end Lbm

def Lbm.work (env : Environment LbmCall) (param : MainParam) (client : Client LbmCall) :
    Client LbmCall :=
  let client := initializeGrids env param client
  let client := timeSteps env param param.nTimeSteps.toNat client
  freeGrids env (reportGrid env param client)

theorem lbm_work_eq (env : Environment LbmCall) (param : MainParam) (client : Client LbmCall) :
    Lbm.work env param client = Lbm.freeGrids env (Lbm.reportGrid env param
      (Lbm.timeSteps env param param.nTimeSteps.toNat (Lbm.initializeGrids env param client))) :=
  rfl

theorem lbm_work_keeps {env : Environment LbmCall} {Kept : Client LbmCall → Prop}
    (invariant : Client.Invariant env [BND0, BND1] Kept) {client : Client LbmCall}
    (kept : Kept (client.callOn env BND0 .initializeGrid)) (param : MainParam) :
    Kept (Lbm.work env param client) := by
  have initialized := initializeGrids_keeps invariant kept param
  have stepped := timeSteps_keeps invariant initialized param param.nTimeSteps.toNat
  exact freeGrids_keeps invariant (reportGrid_keeps invariant stepped param)

theorem lbm_main_runs {env : Environment LbmCall} {client ready : Client LbmCall} {value : Returned}
    (began : client.processSpecificInit env = .ok (value, ready)) (param : MainParam) :
    ∃ final, Lbm.main env param client = .ok final ∧
      final.accesses = (Lbm.work env param (Lbm.allocateGrids env ready)).accesses := by
  have allocated : Lbm.untilAllocated env client = .ok (Lbm.allocateGrids env ready) := by
    simp only [Lbm.untilAllocated, began]
    rfl
  have stepped := untilStep_of_allocated allocated param param.nTimeSteps.toNat
  obtain ⟨value', final, ended, same⟩ := Client.processSpecificFinish_runs began
    (Lbm.work env param (Lbm.allocateGrids env ready))
  rw [lbm_work_eq] at ended
  exact ⟨final, main_of_step stepped ended, same⟩

/-! `main` of 531.deepsjeng_r -/

section Sjeng

variable {env : Environment SjengCall} {Kept : Client SjengCall → Prop}
  (invariant : Client.Invariant env [BND0, BND1] Kept) {client : Client SjengCall}
include invariant

theorem prepare_keeps (kept : Kept client) : Kept (Sjeng.prepare env client) := by
  simp only [Sjeng.prepare]
  apply invariant.call
  apply invariant.call
  apply invariant.callOn bnd0_mem
  apply invariant.call
  apply invariant.qgetbndl _ _ bnd0_mem
  apply invariant.qgetbndl _ _ bnd1_mem
  apply invariant.call
  apply invariant.call
  apply invariant.call
  apply invariant.callOn bnd0_mem
  apply invariant.callOn bnd1_mem
  apply invariant.call
  apply invariant.call
  exact invariant.call _ _ kept

theorem assignGamestate_keeps (field : GamestateField) (value : SjengValue)
    (kept : Kept client) : Kept (Sjeng.assignGamestate env field value client) :=
  invariant.performOn bnd1_mem _ kept

theorem assignParameters_keeps (kept : Kept client) : Kept (Sjeng.assignParameters env client) := by
  simp only [Sjeng.assignParameters]
  apply assignGamestate_keeps invariant
  apply invariant.perform
  apply assignGamestate_keeps invariant
  apply assignGamestate_keeps invariant
  apply assignGamestate_keeps invariant
  apply invariant.perform
  apply invariant.perform
  apply invariant.perform
  apply assignGamestate_keeps invariant
  apply invariant.perform
  apply assignGamestate_keeps invariant
  apply assignGamestate_keeps invariant
  apply assignGamestate_keeps invariant
  apply assignGamestate_keeps invariant
  exact invariant.performOn bnd0_mem _ kept

theorem clearHistory_keeps (kept : Kept client) : Kept (Sjeng.clearHistory env client) := by
  simp only [Sjeng.clearHistory]
  apply invariant.perform
  apply invariant.call
  apply invariant.perform
  apply invariant.qgetbndl _ _ bnd0_mem
  apply invariant.qgetbndl _ _ bnd1_mem
  apply invariant.qgetbndl _ _ bnd0_mem
  apply invariant.callOn bnd1_mem
  exact invariant.callOn bnd1_mem _ kept

theorem testOrComplain_keeps (argv : List String) (kept : Kept client) :
    Kept (Sjeng.testOrComplain env argv client).2 := by
  unfold Sjeng.testOrComplain
  split
  · simp only
    apply invariant.call
    apply invariant.qgetbndl _ _ bnd0_mem
    exact invariant.qgetbndl _ _ bnd1_mem kept
  · exact invariant.call _ _ kept

theorem release_keeps (kept : Kept client) : Kept (Sjeng.release env client) := by
  simp only [Sjeng.release]
  apply invariant.callOn bnd1_mem
  exact invariant.callOn bnd0_mem _ kept

end Sjeng

def Sjeng.work (env : Environment SjengCall) (argv : List String) (client : Client SjengCall) :
    ExitStatus × Client SjengCall :=
  let client := assignParameters env (prepare env client)
  let (status, client) := testOrComplain env argv (clearHistory env client)
  (status, release env client)

theorem sjeng_work_keeps {env : Environment SjengCall} {Kept : Client SjengCall → Prop}
    (invariant : Client.Invariant env [BND0, BND1] Kept) {client : Client SjengCall}
    (kept : Kept client) (argv : List String) : Kept (Sjeng.work env argv client).2 := by
  have prepared := prepare_keeps invariant kept
  have cleared := clearHistory_keeps invariant (assignParameters_keeps invariant prepared)
  exact release_keeps invariant (testOrComplain_keeps invariant argv cleared)

theorem sjeng_main_runs {env : Environment SjengCall} {client ready : Client SjengCall}
    {value : Returned} (began : client.processSpecificInit env = .ok (value, ready))
    (argv : List String) :
    ∃ status final, Sjeng.main env argv client = .ok (status, final) ∧
      final.accesses = (Sjeng.work env argv (Sjeng.allocate env ready)).2.accesses := by
  obtain ⟨value', final, ended, same⟩ := Client.processSpecificFinish_runs began
    (Sjeng.work env argv (Sjeng.allocate env ready)).2
  refine ⟨(Sjeng.work env argv (Sjeng.allocate env ready)).1, final, ?_, same⟩
  simp only [Sjeng.work] at ended
  simp only [Sjeng.main, Sjeng.work, began, bind, Except.bind, pure, Except.pure, ended]

/-! The string benchmarks -/

theorem buffer1_mem : BND1 ∈ [BND1, BND2] := by decide

theorem buffer2_mem : BND2 ∈ [BND1, BND2] := by decide

/-- The function reads pointers of BND1 and BND2 only, and leaves the registers alone. -/
structure Reading (machine : Machine) (state : Traced) : Prop where
  mpx : state.machine.mpx = machine.mpx
  fetches : ∀ fetch ∈ state.fetches,
    fetch.1 ∈ [BND1, BND2] ∧ fetch.2 = machine.lower fetch.1

section Reading

variable {machine : Machine} {state : Traced}

theorem steady_reading (machine : Machine) : Steady (Reading machine) :=
  ⟨fun _ _ reading => ⟨reading.mpx, reading.fetches⟩,
    fun _ _ _ reading => ⟨reading.mpx, reading.fetches⟩⟩

theorem reading_qgetbndl (enabled : machine.mpx.Enabled) (reading : Reading machine state)
    (rsp : Word) {reg : BndregT} (used : reg ∈ [BND1, BND2]) :
    Reading machine (state.qgetbndl rsp reg).2 := by
  have still : state.machine.mpx.Enabled := by rwa [reading.mpx]
  have called := nearCall_qgetbndl still rsp reg
  rw [accessed_of_en still.1] at called
  have value : (state.qgetbndl rsp reg).1 = state.machine.lower reg := congrArg Prod.fst called
  constructor
  · have kept := (congrArg (fun result => result.2.mpx) called).trans
      (afterQuickAccess_mpx rsp reg state.machine)
    exact kept.trans reading.mpx
  · intro fetch member
    rcases List.mem_cons.mp member with rfl | earlier
    · exact ⟨used, value.trans (lower_of_mpx_eq reading.mpx reg)⟩
    · exact reading.fetches fetch earlier

theorem reading_both (enabled : machine.mpx.Enabled) (reading : Reading machine state)
    (rsp : Word) : Reading machine ((state.qgetbndl rsp BND1).2.qgetbndl rsp BND2).2 :=
  reading_qgetbndl enabled (reading_qgetbndl enabled reading rsp buffer1_mem) rsp buffer2_mem

end Reading

def Reads {α : Type} (body : Word → Traced → α × Traced) : Prop :=
  ∀ machine : Machine, machine.mpx.Enabled → ∀ rsp state, Reading machine state →
    Reading machine (body rsp state).2

theorem simplexMemcmp_reads (len : Word) : Reads fun rsp => simplexMemcmp rsp len := by
  intro machine enabled rsp state reading
  simp only [simplexMemcmp]
  exact compareLoop_keeps (steady_reading machine) _ _ _ (reading_both enabled reading rsp)

theorem simplexMemcpy_reads (len : Word) : Reads fun rsp => simplexMemcpy rsp len := by
  intro machine enabled rsp state reading
  simp only [simplexMemcpy]
  have copied := copyLoop_keeps (steady_reading machine) len.toNat (state.qgetbndl rsp BND1).1
    ((state.qgetbndl rsp BND1).2.qgetbndl rsp BND2).1 (reading_both enabled reading rsp)
  exact reading_qgetbndl enabled copied rsp buffer1_mem

theorem simplexMemmove_reads (len : Word) : Reads fun rsp => simplexMemmove rsp len := by
  intro machine enabled rsp state reading
  simp only [simplexMemmove]
  have moved := moveBody_keeps (steady_reading machine) len (state.qgetbndl rsp BND1).1
    ((state.qgetbndl rsp BND1).2.qgetbndl rsp BND2).1 (reading_both enabled reading rsp)
  exact reading_qgetbndl enabled moved rsp buffer1_mem

theorem simplexMemset_reads (val : BitVec 32) (len : Word) :
    Reads fun rsp => simplexMemset rsp val len := by
  intro machine enabled rsp state reading
  simp only [simplexMemset]
  have filled := setLoop_keeps (steady_reading machine) val len.toNat (state.qgetbndl rsp BND1).1
    (reading_qgetbndl enabled reading rsp buffer1_mem)
  exact reading_qgetbndl enabled filled rsp buffer1_mem

theorem simplexMemchr_reads (c : BitVec 32) (len : Word) :
    Reads fun rsp => simplexMemchr rsp c len := by
  intro machine enabled rsp state reading
  simp only [simplexMemchr]
  exact searchLoop_keeps (steady_reading machine) c _ _
    (reading_qgetbndl enabled reading rsp buffer1_mem)

theorem onlyStored_append {fetches : List (BndregT × Word)} {earlier : List Access}
    (only : OnlyStored earlier) (stored : ∀ fetch ∈ fetches, .stored fetch.1 fetch.2 ∈ earlier) :
    OnlyStored (fetches.map (fun (reg, val) => .fetched reg val) ++ earlier) := by
  induction fetches with
  | nil => exact only
  | cons fetch rest ih =>
      have later := ih fun other member => stored other (List.mem_cons_of_mem _ member)
      exact ⟨List.mem_append_right _ (stored fetch List.mem_cons_self), later⟩

section Fixture

variable {env : Environment FixtureCall} {client : Client FixtureCall}

theorem stringCall_disciplined {α : Type} {body : Word → Traced → α × Traced} (reads : Reads body)
    (disciplined : Disciplined [BND1, BND2] client) :
    Disciplined [BND1, BND2] (client.stringCall env body) := by
  have entered := Machine.nearBranch_of_enabled disciplined.enabled
  have initial : Reading client.machine
      { machine := client.machine.nearBranch, reads := [], writes := [], fetches := [] } :=
    ⟨congrArg Machine.mpx entered, by simp⟩
  have read := reads client.machine disciplined.enabled (env.rsp client.accesses.length) _ initial
  simp only [Client.stringCall]
  generalize (body (env.rsp client.accesses.length)
    { machine := client.machine.nearBranch, reads := [], writes := [], fetches := [] }).2 = final
    at read ⊢
  have still : final.machine.mpx.Enabled := by
    rw [read.mpx]
    exact disciplined.enabled
  have left := Machine.nearBranch_of_enabled still
  constructor
  · simp only [left]
    exact still
  · apply onlyStored_append disciplined.onlyStored
    intro fetch member
    obtain ⟨used, value⟩ := read.fetches fetch member
    rw [value]
    exact disciplined.stored fetch.1 used
  · intro reg used
    simp only [left, lower_of_mpx_eq read.mpx]
    exact List.mem_append_right _ (disciplined.stored reg used)

theorem body_disciplined (benchmark : SimplexBenchmark) (sz s1 : Word)
    (disciplined : Disciplined [BND1, BND2] client) :
    Disciplined [BND1, BND2] (StringFixture.body env benchmark sz s1 client) := by
  cases benchmark <;> simp only [StringFixture.body]
  case simplexMemcmp => exact stringCall_disciplined (simplexMemcmp_reads sz) disciplined
  case simplexMemcpy => exact stringCall_disciplined (simplexMemcpy_reads sz) disciplined
  case simplexMemmove =>
    have first : Disciplined [BND1, BND2] (client.qsetbndl BND1 s1) :=
      (disciplined.qsetbndl (by decide) s1).mono (by simp)
    have second : Disciplined [BND1, BND2]
        ((client.qsetbndl BND1 s1).qsetbndl BND2 (s1 + sz / 4 + 1)) :=
      (first.qsetbndl (by decide) _).mono (by simp)
    exact stringCall_disciplined (simplexMemmove_reads (sz / 2)) second
  case simplexMemset => exact stringCall_disciplined (simplexMemset_reads 0x43 sz) disciplined
  case simplexMemchr => exact stringCall_disciplined (simplexMemchr_reads 0 sz) disciplined

theorem bodies_disciplined (benchmark : SimplexBenchmark) (sz s1 : Word) (iterations : Nat)
    (disciplined : Disciplined [BND1, BND2] client) :
    Disciplined [BND1, BND2] (StringFixture.bodies env benchmark sz s1 iterations client) := by
  induction iterations generalizing client with
  | zero => exact disciplined
  | succ iterations ih => exact ih (body_disciplined benchmark sz s1 disciplined)

theorem setUp_ok {buffers : Word × Word} {ready : Client FixtureCall}
    (set : StringFixture.setUp env client = .ok (buffers, ready)) :
    ∃ value started, (StringFixture.allocateBuffers env client).1 = buffers ∧
      (StringFixture.allocateBuffers env client).2.processSpecificInit env =
        .ok (value, started) ∧
      ready = (started.qsetbndl BND1 buffers.1).qsetbndl BND2 buffers.2 := by
  unfold StringFixture.setUp at set
  generalize StringFixture.allocateBuffers env client = allocated at set ⊢
  obtain ⟨⟨s1, s2⟩, called⟩ := allocated
  obtain ⟨⟨value, started⟩, began, returned⟩ := RunRules.bind_ok_iff.mp set
  obtain ⟨rfl, rfl⟩ := Prod.mk.inj (Except.ok.inj returned)
  exact ⟨value, started, rfl, began, rfl⟩

theorem strings_run {value : Returned} {started : Client FixtureCall}
    (began : (StringFixture.allocateBuffers env client).2.processSpecificInit env =
      .ok (value, started)) {buffers : Word × Word} {ready : Client FixtureCall}
    (set : StringFixture.setUp env client = .ok (buffers, ready)) (benchmark : SimplexBenchmark)
    (sz : Word) (iterations : Nat) :
    ∃ final, StringFixture.run env benchmark sz iterations client = .ok final ∧
      final.accesses =
        (StringFixture.bodies env benchmark sz buffers.1 iterations ready).accesses := by
  obtain ⟨s1, s2⟩ := buffers
  obtain ⟨value', final, ended, same⟩ := Client.processSpecificFinish_runs began
    (((StringFixture.bodies env benchmark sz s1 iterations ready).call env (.free s1)).call env
      (.free s2))
  refine ⟨final, ?_, same⟩
  simp only [StringFixture.run, StringFixture.tearDown, set, bind, Except.bind, pure, Except.pure,
    ended]

theorem allocateBuffers_enabled {regs : List BndregT} (keeps : env.Keeps regs)
    (enabled : client.machine.mpx.Enabled) :
    (StringFixture.allocateBuffers env client).2.machine.mpx.Enabled := by
  simp only [StringFixture.allocateBuffers, Client.allocate]
  apply Client.call_enabled _ keeps
  apply Client.call_enabled _ keeps
  apply Client.call_enabled _ keeps
  apply Client.call_enabled _ keeps
  exact Client.call_enabled enabled keeps _

end Fixture

end SimplexMpx
