import SimplexMpx.Discipline

/-!
Which pointers the clients use. None of them looks at the result of `process_specific_init`, and
while MPX is off `qgetbndl` returns what lies below the stack pointer.
-/

namespace SimplexMpx

open ByteMemory

/-- A client starts on `platform` with the given MPX state and nothing accessed; foreign code
keeps the registers it uses. -/
structure Begins {Foreign : Type} (platform : Platform) (mpx : MpxState) (regs : List BndregT)
    (env : Environment Foreign) (client : Client Foreign) : Prop where
  platform : env.platform = platform
  keeps : env.Keeps regs
  mpx : client.machine.mpx = mpx
  accesses : client.accesses = []

/-- Whatever `process_specific_init` returns, each client runs to its end and uses only pointers it
has stored. -/
structure ClientsOnlyStored (platform : Platform) (mpx : MpxState) : Prop where
  lbm : ∀ env client, Begins platform mpx [BND0, BND1] env client → ∀ param value started,
    client.processSpecificInit env = .ok (value, started) →
    ∃ final, Lbm.main env param client = .ok final ∧ OnlyStored final.accesses
  sjeng : ∀ env client, Begins platform mpx [BND0, BND1] env client → ∀ argv value started,
    client.processSpecificInit env = .ok (value, started) →
    ∃ status final, Sjeng.main env argv client = .ok (status, final) ∧ OnlyStored final.accesses
  strings : ∀ env client, Begins platform mpx [BND1, BND2] env client →
    ∀ benchmark sz iterations buffers ready, StringFixture.setUp env client = .ok (buffers, ready) →
    ∃ final, StringFixture.run env benchmark sz iterations client = .ok final ∧
      OnlyStored final.accesses

/-! From the start -/

section Start

variable {Foreign : Type} {env : Environment Foreign} {regs : List BndregT}
  {client started : Client Foreign} {value : Returned}

theorem started_disciplined (ready : Detected env.platform ∨ client.machine.mpx.Enabled)
    (nothing : client.accesses = [])
    (began : client.processSpecificInit env = .ok (value, started)) :
    Disciplined [] started := by
  obtain ⟨machine, called, rfl⟩ := Client.processSpecificInit_ok_iff.mp began
  refine ⟨init_enabled ready called, ?_, by simp⟩
  simp only [nothing]
  trivial

end Start

theorem allocateGrids_disciplined {env : Environment LbmCall} (keeps : env.Keeps [BND0, BND1])
    {client : Client LbmCall} (disciplined : Disciplined [] client) :
    Disciplined [BND0, BND1] (Lbm.allocateGrids env client) := by
  have first := (disciplined.call keeps (by simp)
    (.allocateGrid (env.allocate client.calls))).qsetbndl
      (show (switchReg BND0).isSome by decide) (env.allocate client.calls)
  have second := fun foreign ptr => (first.call keeps (by simp) foreign).qsetbndl
    (show (switchReg BND1).isSome by decide) ptr
  simp only [Lbm.allocateGrids, Client.allocate]
  exact (second _ _).mono (by simp)

theorem allocate_disciplined {env : Environment SjengCall} (keeps : env.Keeps [BND0, BND1])
    {client : Client SjengCall} (disciplined : Disciplined [] client) :
    Disciplined [BND0, BND1] (Sjeng.allocate env client) := by
  have first := (disciplined.call keeps (by simp)
    (.mallocState (env.allocate client.calls))).qsetbndl
      (show (switchReg BND0).isSome by decide) (env.allocate client.calls)
  have second := fun foreign ptr => (first.call keeps (by simp) foreign).qsetbndl
    (show (switchReg BND1).isSome by decide) ptr
  simp only [Sjeng.allocate, Client.allocate]
  exact (second _ _).mono (by simp)

section Ready

variable {platform : Platform} {mpx : MpxState} {value : Returned}
  (ready : Detected platform ∨ mpx.Enabled)
include ready

theorem lbm_only_stored {env : Environment LbmCall} {client started : Client LbmCall}
    (begins : Begins platform mpx [BND0, BND1] env client)
    (began : client.processSpecificInit env = .ok (value, started)) (param : MainParam) :
    ∃ final, Lbm.main env param client = .ok final ∧ OnlyStored final.accesses := by
  have disciplined := started_disciplined (by rwa [begins.platform, begins.mpx])
    begins.accesses began
  have allocated := allocateGrids_disciplined begins.keeps disciplined
  have invariant := Disciplined.invariant begins.keeps (by simp [BND0, BND1, switchReg])
  have used := invariant.callOn bnd0_mem .initializeGrid allocated
  have only := (lbm_work_keeps invariant used param).onlyStored
  obtain ⟨final, ran, same⟩ := lbm_main_runs began param
  rw [← same] at only
  exact ⟨final, ran, only⟩

theorem sjeng_only_stored {env : Environment SjengCall} {client started : Client SjengCall}
    (begins : Begins platform mpx [BND0, BND1] env client)
    (began : client.processSpecificInit env = .ok (value, started)) (argv : List String) :
    ∃ status final, Sjeng.main env argv client = .ok (status, final) ∧ OnlyStored final.accesses := by
  have disciplined := started_disciplined (by rwa [begins.platform, begins.mpx])
    begins.accesses began
  have allocated := allocate_disciplined begins.keeps disciplined
  have invariant := Disciplined.invariant begins.keeps (by simp [BND0, BND1, switchReg])
  have only := (sjeng_work_keeps invariant allocated argv).onlyStored
  obtain ⟨status, final, ran, same⟩ := sjeng_main_runs began argv
  rw [← same] at only
  exact ⟨status, final, ran, only⟩

theorem strings_only_stored {env : Environment FixtureCall} {client set : Client FixtureCall}
    (begins : Begins platform mpx [BND1, BND2] env client) {buffers : Word × Word}
    (ended : StringFixture.setUp env client = .ok (buffers, set)) (benchmark : SimplexBenchmark)
    (sz : Word) (iterations : Nat) :
    ∃ final, StringFixture.run env benchmark sz iterations client = .ok final ∧
      OnlyStored final.accesses := by
  obtain ⟨value, started, -, began, rfl⟩ := setUp_ok ended
  have called : Detected env.platform ∨
      (StringFixture.allocateBuffers env client).2.machine.mpx.Enabled := by
    rw [begins.platform]
    rcases ready with found | enabled
    · exact .inl found
    · rw [← begins.mpx] at enabled
      exact .inr (allocateBuffers_enabled begins.keeps enabled)
  have disciplined := started_disciplined called begins.accesses began
  have first := disciplined.qsetbndl (show (switchReg BND1).isSome by decide) buffers.1
  have second := (first.qsetbndl (show (switchReg BND2).isSome by decide) buffers.2).mono
    (show [BND1, BND2] ⊆ [BND2, BND1] by simp)
  have kept : Disciplined [BND1, BND2]
      (StringFixture.bodies env benchmark sz buffers.1 iterations _) :=
    bodies_disciplined benchmark sz buffers.1 iterations second
  have only := kept.onlyStored
  obtain ⟨final, ran, same⟩ := strings_run began ended benchmark sz iterations
  rw [← same] at only
  exact ⟨final, ran, only⟩

theorem clients_only_stored : ClientsOnlyStored platform mpx :=
  ⟨fun _ _ begins param _ _ began => lbm_only_stored ready begins began param,
    fun _ _ begins argv _ _ began => sjeng_only_stored ready begins began argv,
    fun _ _ begins benchmark sz iterations _ _ ended =>
      strings_only_stored ready begins ended benchmark sz iterations⟩

end Ready

/-! While MPX is off, or does not preserve the registers -/

structure Lost (machine : Machine) : Prop where
  off : ¬machine.mpx.Enabled
  blank : machine.mem = fun _ => 0

namespace Lost

variable {machine : Machine}

theorem of_same (lost : Lost machine) {machine' : Machine}
    (config : machine'.mpx.bndcfgu = machine.mpx.bndcfgu) (mem : machine'.mem = machine.mem) :
    Lost machine' :=
  ⟨fun enabled => lost.off (enabled_of_bndcfgu_eq config.symm enabled), mem.trans lost.blank⟩

theorem nearBranch (lost : Lost machine) : Lost machine.nearBranch :=
  lost.of_same (by simp) (by simp)

theorem qsetbndl {Foreign : Type} {client : Client Foreign} (lost : Lost client.machine)
    (reg : BndregT) (val : Word) : Lost (client.qsetbndl reg val).machine := by
  have written : Lost (SimplexMpx.qsetbndl reg val client.machine.nearBranch) := by
    rw [qsetbndl_eq]
    exact lost.nearBranch.of_same (by simp) (by simp)
  exact written.nearBranch

/-- A stale word, or the lower half of a register a branch has reset. -/
theorem fetched_zero (lost : Lost machine) (rsp : Word) {reg : BndregT} {bnd : Bnd}
    (named : switchReg reg = some bnd) : (machine.nearCall (qgetbndl rsp reg)).1 = 0 := by
  have fetched : (machine.nearCall (qgetbndl rsp reg)).1 =
      (spilledPair bnd rsp machine.nearBranch).lb := by
    simp only [Machine.nearCall, qgetbndl_eq, accessed, named]
  rw [fetched]
  cases on : machine.mpx.en with
  | false =>
      rw [spilledPair_of_off (by rwa [Machine.nearBranch_en])]
      simp only [Machine.load, Machine.nearBranch_mem, lost.blank]
      exact load64_zero _
  | true =>
      have reset : machine.mpx.bndpreserve = false := by
        simpa [MpxState.Enabled, on] using lost.off
      rw [spilledPair_of_en (by rwa [Machine.nearBranch_en])]
      simp [Machine.nearBranch, on, reset, initPair]

end Lost

theorem invariant_unstored {Foreign : Type} {env : Environment Foreign} {regs : List BndregT} :
    Client.Invariant env regs fun client => ¬OnlyStored client.accesses where
  call _ _ unstored := unstored
  perform _ _ unstored := unstored
  qgetbndl _ _ _ unstored := fun only => unstored only.2
  qsetbndl _ _ _ _ unstored := unstored

def idle (platform : Platform) : Environment LbmCall where
  platform := platform
  buffer := 0x5000
  rsp := fun _ => 0x7000
  allocate := fun _ => 0x100000
  effect := fun _ _ machine => machine

theorem idle_call_lost {platform : Platform} {client : Client LbmCall}
    (lost : Lost client.machine) (foreign : LbmCall) :
    Lost (client.call (idle platform) foreign).machine :=
  lost.nearBranch.nearBranch

theorem lbm_uses_unstored {platform : Platform} (param : MainParam) {ready : Client LbmCall}
    (lost : Lost ready.machine) (nothing : ready.accesses = []) :
    ¬OnlyStored (Lbm.work (idle platform) param
      (Lbm.allocateGrids (idle platform) ready)).accesses := by
  refine lbm_work_keeps invariant_unstored ?_ param
  have allocated : Lost (Lbm.allocateGrids (idle platform) ready).machine := by
    simp only [Lbm.allocateGrids, Client.allocate]
    apply Lost.qsetbndl
    apply idle_call_lost
    apply Lost.qsetbndl
    exact idle_call_lost lost _
  have accesses : (Lbm.allocateGrids (idle platform) ready).accesses =
      [.stored BND1 0x100000, .stored BND0 0x100000] := by
    simp [Lbm.allocateGrids, Client.allocate, nothing, idle]
  have zero : ((Lbm.allocateGrids (idle platform) ready).qgetbndl (idle platform) BND0).1 = 0 := by
    rw [Client.qgetbndl_fst]
    exact allocated.fetched_zero _ (show switchReg BND0 = some .bnd0 from rfl)
  rw [Client.callOn_eq, Client.call_accesses, Client.qgetbndl_accesses, zero, accesses]
  intro only
  exact absurd only.1 (by decide)

def blankClient (mpx : MpxState) : Client LbmCall where
  machine := { mpx := mpx, mem := fun _ => 0, stderr := [] }
  accesses := []
  calls := []

def shortRun : MainParam where
  nTimeSteps := 1
  resultFilename := "reference.dat"
  action := .store
  simType := .ldc
  obstacleFilename := none

theorem idle_begins (platform : Platform) (mpx : MpxState) :
    Begins platform mpx [BND0, BND1] (idle platform) (blankClient mpx) :=
  ⟨rfl, ⟨fun _ _ _ => rfl, fun _ _ _ _ _ => rfl⟩, rfl, rfl⟩

theorem not_clientsOnlyStored {platform : Platform} {mpx : MpxState}
    (missing : ¬Detected platform) (off : ¬mpx.Enabled) : ¬ClientsOnlyStored platform mpx := by
  intro only
  have lost : Lost (blankClient mpx).machine := ⟨off, rfl⟩
  have called := callStep_init_undetected missing 0x5000 (blankClient mpx).machine
  have began : (blankClient mpx).processSpecificInit (idle platform) = .ok (.bool false,
      { blankClient mpx with machine := (blankClient mpx).machine.nearBranch.nearBranch }) :=
    Client.processSpecificInit_ok_iff.mpr ⟨_, called, rfl⟩
  obtain ⟨final, ran, stored⟩ := only.lbm _ _ (idle_begins platform mpx) shortRun _ _ began
  obtain ⟨final', ran', same⟩ := lbm_main_runs began shortRun
  rw [ran] at ran'
  obtain rfl := Except.ok.inj ran'
  rw [same] at stored
  exact lbm_uses_unstored shortRun lost.nearBranch.nearBranch rfl stored

/-- The clients use only what they stored on exactly the machines where `process_specific_init`
finds MPX, or where the process had it on before. -/
theorem clientsOnlyStored_iff (platform : Platform) (mpx : MpxState) :
    ClientsOnlyStored platform mpx ↔ Detected platform ∨ mpx.Enabled := by
  constructor
  · intro only
    by_contra neither
    rw [not_or] at neither
    exact not_clientsOnlyStored neither.1 neither.2 only
  · exact clients_only_stored

/-- A processor whose CPUID knows no leaf with MPX. -/
def platformWithoutMpx : Platform where
  cpuid := fun _ _ => { eax := 7, ebx := 0, ecx := 0, edx := 0 }
  ecx := 0
  osxsave := true
  xcr0 := 7

theorem not_clientsOnlyStored_without_mpx :
    ¬ClientsOnlyStored platformWithoutMpx blankMachine.mpx := by
  apply not_clientsOnlyStored
  · rw [← checkMpxSupport_iff]
    decide
  · unfold MpxState.Enabled
    decide

end SimplexMpx
