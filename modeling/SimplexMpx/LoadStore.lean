import SimplexMpx.LoadStoreCore
import SimplexMpx.Secrecy

/-!
What the load and store benchmarks measure: when a sequence of runs completes, and the value every
run leaves, whatever was run before it.
-/

namespace SimplexMpx

open ByteMemory RunRules

namespace LoadStoreFixture

@[simp] theorem frames_mpx (run : Run) (stage : Stage) (machine : Machine) :
    (run.frames stage machine).mpx = machine.mpx := rfl

@[simp] theorem frames_stderr (run : Run) (stage : Stage) (machine : Machine) :
    (run.frames stage machine).stderr = machine.stderr := rfl

theorem frames_mem {run : Run} {address : Word} (foreign : ¬run.Owns address) (stage : Stage)
    (machine : Machine) : (run.frames stage machine).mem address = machine.mem address :=
  overlay_outside foreign

/-! Completing -/

def Run.Aligned (run : Run) : Prop :=
  run.benchmark = .xmmStore ∨ run.benchmark = .xmmLoad →
    run.iterations = 0 ∨ movapsAligned (stackSlot run.rsp) = true

theorem statement_completes_iff (benchmark : Benchmark) (rsp : Word) (state : State) :
    (∃ next, statement benchmark rsp state = .ok next) ↔
      (benchmark = .xmmStore ∨ benchmark = .xmmLoad → movapsAligned (stackSlot rsp) = true) := by
  cases benchmark with
  | xmmStore => cases aligned : movapsAligned (stackSlot rsp) <;> simp [statement, aligned]
  | xmmLoad => cases aligned : movapsAligned (stackSlot rsp) <;> simp [statement, aligned]
  | _ => simp [statement]

theorem passes_complete_iff (run : Run) (count : Nat) (state : State) :
    (∃ next, passes run count state = .ok next) ↔
      (run.benchmark = .xmmStore ∨ run.benchmark = .xmmLoad →
        count = 0 ∨ movapsAligned (stackSlot run.rsp) = true) := by
  induction count with
  | zero => simp [passes]
  | succ count ih =>
      simp only [passes, bind_ok_iff]
      constructor
      · rintro ⟨next, middle, -, passed⟩ uses
        exact .inr ((statement_completes_iff _ _ _).1 ⟨next, passed⟩ uses)
      · intro aligned
        have slot : run.benchmark = .xmmStore ∨ run.benchmark = .xmmLoad →
            movapsAligned (stackSlot run.rsp) = true := fun uses => by simpa using aligned uses
        obtain ⟨middle, before⟩ := ih.2 fun uses => .inr (slot uses)
        obtain ⟨next, passed⟩ := (statement_completes_iff run.benchmark run.rsp
          { middle with
            machine := run.frames (.pass count) middle.machine.nearBranch
            registers := run.between count middle.registers }).2 slot
        exact ⟨next, middle, before, passed⟩

variable {platform : Platform}

theorem init_completes
    (usable : Detected platform → platform.osxsave = true ∧ platform.xcr0.getLsbD 4 = true)
    (buffer : Word) (machine : Machine) :
    ∃ result, callStep platform (.processSpecificInit buffer) machine = .ok result := by
  by_cases found : Detected platform
  · obtain ⟨on, csr⟩ := usable found
    exact ⟨_, callStep_init found on csr buffer machine⟩
  · exact ⟨_, callStep_init_undetected found buffer machine⟩

theorem step_completes_iff
    (usable : Detected platform → platform.osxsave = true ∧ platform.xcr0.getLsbD 4 = true)
    (run : Run) (state : State) :
    (∃ result, step platform run state = .ok result) ↔ run.Aligned := by
  obtain ⟨⟨value, machine⟩, began⟩ :=
    init_completes usable run.initBuffer (readRandom run.random state).machine
  have ended := finish_runs began run.finishBuffer
  have ready : ∃ ready, setUp platform run state = .ok ready := by
    simp [setUp, began, bind, Except.bind, pure, Except.pure]
  obtain ⟨ready, set⟩ := ready
  rw [Run.Aligned, ← passes_complete_iff run run.iterations ready]
  simp only [step, set, bind_ok_iff]
  constructor
  · rintro ⟨_, _, ⟨⟩, next, passed, -⟩
    exact ⟨next, passed⟩
  · rintro ⟨next, passed⟩
    obtain ⟨⟨_, stopped⟩, finished⟩ := ended next.machine
    refine ⟨_, ready, rfl, next, passed,
      { next with machine := run.frames .tearDown stopped }, ?_, rfl⟩
    simp [tearDown, finished, bind, Except.bind, pure, Except.pure]

def sampleRun (benchmark : Benchmark) (rsp : Word) (random : Option Word) : Run where
  benchmark := benchmark
  iterations := 2
  initBuffer := 0x7000
  finishBuffer := 0x8000
  random := random
  clave := 0x10000
  rsp := rsp
  between _ registers := registers
  own := [(rsp - 0x400, 0x400), (0x20000, 0x300)]
  left _ _ := 0xcc

def blankState : State where
  machine := blankMachine
  registers := { r15 := 0, gs := 0, mm0 := 0, xmm1 := 0 }
  gsBase := 0
  val := 0

theorem capable_usable :
    Detected capablePlatform →
      capablePlatform.osxsave = true ∧ capablePlatform.xcr0.getLsbD 4 = true :=
  fun _ => ⟨capablePlatform_capable.osxsave, capablePlatform_capable.bndcsr⟩

/-- What a body leaves in `val`: a load finds what the code around it has put into the register,
but in the bounds register what `SetUp` has. -/
def loaded (benchmark : Benchmark) (registers : OtherRegisters) (val : Word) : Word :=
  match benchmark with
  | .gpLoad => registers.r15
  | .segLoad => registers.gs.setWidth 64
  | .mmxLoad => registers.mm0
  | .xmmLoad => registers.xmm1.setWidth 64
  | .bndLoad => 0
  | _ => val

def stackBytes : Benchmark → Nat
  | .xmmStore => 8
  | .xmmLoad => 16
  | .bndLoad => 16
  | _ => 0

theorem store128_load (address : Word) (value : BitVec 128) (machine : Machine) :
    (store128 address value machine).load address = value.setWidth 64 := by
  simp only [store128, Machine.load, Machine.store]
  rw [Machine.load64_store64_next, load64_store64]

theorem store128_outside {base address : Word} (outside : ¬Within base 16 address)
    (value : BitVec 128) (machine : Machine) :
    (store128 base value machine).mem address = machine.mem address := by
  rw [Machine.within_sixteen, not_or] at outside
  simp only [store128, Machine.store, store64_outside outside.1, store64_outside outside.2]

structure Effect (benchmark : Benchmark) (rsp : Word) (state next : State) : Prop where
  base : next.gsBase = state.gsBase
  configured : next.machine.mpx.bndcfgu = state.machine.mpx.bndcfgu
  unmoved : benchmark ≠ .bndStore → next.machine.mpx = state.machine.mpx
  stderr : next.machine.stderr = state.machine.stderr
  mem : ∀ address, ¬Within state.gsBase 8 address →
    ¬Within (stackSlot rsp) (stackBytes benchmark) address →
      next.machine.mem address = state.machine.mem address
  val : (benchmark = .bndLoad → state.machine.mpx.en = true ∧
    state.machine.mpx.bnd .bnd0 = initPair) → next.val = loaded benchmark state.registers state.val

theorem statement_effect {benchmark : Benchmark} {rsp : Word} {state next : State}
    (ran : statement benchmark rsp state = .ok next) : Effect benchmark rsp state next := by
  cases benchmark with
  | gpStore | mmxStore | gpLoad | segLoad | mmxLoad =>
      obtain rfl := Except.ok.inj ran
      exact ⟨rfl, rfl, fun _ => rfl, rfl, fun _ _ _ => rfl, fun _ => rfl⟩
  | segStore =>
      obtain rfl := Except.ok.inj ran
      exact ⟨rfl, rfl, fun _ => rfl, rfl, fun _ outside _ => store64_outside outside, fun _ => rfl⟩
  | xmmStore =>
      simp only [statement] at ran
      split_ifs at ran
      obtain rfl := Except.ok.inj ran
      exact ⟨rfl, rfl, fun _ => rfl, rfl, fun _ _ outside => store64_outside outside, fun _ => rfl⟩
  | bndStore =>
      obtain rfl := Except.ok.inj ran
      exact ⟨rfl, by simp, fun other => absurd rfl other, by simp, fun _ _ _ => by simp,
        fun _ => rfl⟩
  | xmmLoad =>
      simp only [statement] at ran
      split_ifs at ran
      obtain rfl := Except.ok.inj ran
      exact ⟨rfl, rfl, fun _ => rfl, rfl, fun _ _ outside => store128_outside outside _ _,
        fun _ => store128_load _ _ _⟩
  | bndLoad =>
      obtain rfl := Except.ok.inj ran
      refine ⟨rfl, by simp, fun _ => by simp, by simp,
        fun _ _ outside => Machine.bndmov_mem_outside outside, ?_⟩
      intro ready
      obtain ⟨on, initial⟩ := ready rfl
      exact (Machine.bndmov_load_lower on .bnd0 _).trans (congrArg BndPair.lb initial)

/-- MPX is on as `SetUp` has switched it, and the bounds register is as it was then unless the body
is `BNDStore`. -/
structure Ready (run : Run) (state : State) : Prop where
  enabled : state.machine.mpx.Enabled
  initial : run.benchmark ≠ .bndStore → state.machine.mpx.bnd .bnd0 = initPair
  base : state.gsBase = run.clave

structure Undisturbed (run : Run) (state next : State) : Prop where
  stderr : next.machine.stderr = state.machine.stderr
  mem : ∀ address, ¬Within run.clave 8 address →
    ¬Within (stackSlot run.rsp) (stackBytes run.benchmark) address → ¬run.Owns address →
      next.machine.mem address = state.machine.mem address

theorem Undisturbed.trans {run : Run} {state middle next : State}
    (first : Undisturbed run state middle) (second : Undisturbed run middle next) :
    Undisturbed run state next := by
  refine ⟨second.stderr.trans first.stderr, ?_⟩
  intro address off_page off_slot foreign
  rw [second.mem address off_page off_slot foreign, first.mem address off_page off_slot foreign]

theorem loaded_loaded (benchmark : Benchmark) (first second : OtherRegisters) (val : Word) :
    loaded benchmark second (loaded benchmark first val) = loaded benchmark second val := by
  cases benchmark <;> rfl

theorem pass_spec {run : Run} {index : Nat} {state next : State} (ready : Ready run state)
    (passed : pass run index state = .ok next) :
    Ready run next ∧ next.val = loaded run.benchmark (run.between index state.registers) state.val ∧
      Undisturbed run state next := by
  simp only [pass, Machine.nearBranch_of_enabled ready.enabled] at passed
  have effect := statement_effect passed
  refine ⟨{ enabled := ?_, initial := ?_, base := effect.base.trans ready.base }, ?_,
    { stderr := effect.stderr, mem := ?_ }⟩
  · exact enabled_of_bndcfgu_eq effect.configured ready.enabled
  · intro other
    rw [effect.unmoved other]
    exact ready.initial other
  · refine effect.val fun loading => ⟨ready.enabled.1, ready.initial ?_⟩
    rw [loading]
    decide
  · intro address off_page off_slot foreign
    rw [effect.mem address (ready.base ▸ off_page) off_slot, frames_mem foreign]

theorem passes_spec {run : Run} {count : Nat} {state next : State} (ready : Ready run state)
    (ran : passes run count state = .ok next) :
    Ready run next ∧ Undisturbed run state next ∧ (count = 0 → next.val = state.val) ∧
      (0 < count → ∃ before, passes run (count - 1) state = .ok before ∧
        next.val = loaded run.benchmark (run.between (count - 1) before.registers) state.val) := by
  induction count generalizing next with
  | zero =>
      obtain rfl := Except.ok.inj ran
      exact ⟨ready, { stderr := rfl, mem := fun _ _ _ _ => rfl }, fun _ => rfl,
        fun some_pass => absurd some_pass (Nat.lt_irrefl 0)⟩
  | succ count ih =>
      obtain ⟨middle, before, passed⟩ := bind_ok_iff.1 ran
      obtain ⟨readyMiddle, earlier, unused, used⟩ := ih before
      obtain ⟨readyNext, value, last⟩ := pass_spec readyMiddle passed
      refine ⟨readyNext, earlier.trans last, fun none => absurd none (Nat.succ_ne_zero count),
        fun _ => ⟨middle, before, ?_⟩⟩
      rw [value, Nat.add_sub_cancel]
      rcases Nat.eq_zero_or_pos count with first | later
      · rw [unused first]
      · obtain ⟨_, -, valued⟩ := used later
        rw [valued, loaded_loaded]

def Run.drawn (run : Run) : Word := run.random.getD 0xdeadbeef

def Run.messages (run : Run) : List String :=
  if run.random.isSome then [] else ["Failed to open urandom\n"]

theorem startedMachine_stderr (platform : Platform) (buffer : Word) (machine : Machine) :
    (startedMachine platform buffer machine).stderr = machine.stderr := by
  simp [startedMachine, Machine.configured, enableImage, memsetBuffer]

theorem stoppedMachine_stderr (platform : Platform) (buffer : Word) (machine : Machine) :
    (stoppedMachine platform buffer machine).stderr = machine.stderr := by
  simp [stoppedMachine, Machine.configured, disableImage, memsetBuffer]

theorem setUp_spec (capable : Capable platform) {run : Run} {state ready : State}
    (set : setUp platform run state = .ok ready) :
    Ready run ready ∧ ready.val = run.drawn ∧
      ready.machine.stderr = state.machine.stderr ++ run.messages ∧
        ∀ address, ¬Within run.initBuffer 4096 address → ¬Within run.clave 4096 address →
          ¬run.Owns address → ready.machine.mem address = state.machine.mem address := by
  rw [setUp, callStep_init capable.detected capable.osxsave capable.bndcsr] at set
  obtain rfl := Except.ok.inj set
  have enabled := startedMachine_enabled platform run.initBuffer
    (readRandom run.random state).machine
  have mapped := Machine.nearBranch_of_enabled enabled
  refine ⟨{ enabled := ?_, initial := ?_, base := rfl }, ?_, ?_, ?_⟩
  · simpa only [frames_mpx, mmapPage, mapped] using enabled
  · intro _
    have cleared : (startedMachine platform run.initBuffer
        (readRandom run.random state).machine).mpx.bnd .bnd0 = initPair := by
      simp [startedMachine, Machine.configured, capable.bndregs]
    simpa only [frames_mpx, mmapPage, mapped] using cleared
  · cases drawn : run.random <;> simp [readRandom, Run.drawn, drawn]
  · simp only [frames_stderr, mmapPage, mapped, startedMachine_stderr]
    cases drawn : run.random <;>
      simp [readRandom, Run.messages, drawn, Machine.fprintfStderr]
  · intro address off_image off_page foreign
    rw [frames_mem foreign]
    simp only [mmapPage, mapped, getpagesize]
    rw [fill_outside off_page, startedMachine_outside off_image]
    cases run.random <;> rfl

theorem tearDown_spec (capable : Capable platform) {run : Run} {state final : State}
    (torn : tearDown platform run state = .ok final) :
    final.val = state.val ∧ final.machine.stderr = state.machine.stderr ∧
      final.machine.mpx = { bnd := fun _ => initPair, bndcfgu := 0, bndstatus := 0 } ∧
        ∀ address, ¬Within run.finishBuffer 4096 address → ¬run.Owns address →
          final.machine.mem address = state.machine.mem address := by
  rw [tearDown, callStep_finish capable.detected capable.osxsave capable.bndcsr] at torn
  obtain rfl := Except.ok.inj torn
  refine ⟨rfl, ?_, ?_, ?_⟩
  · rw [frames_stderr, stoppedMachine_stderr]
  · rw [frames_mpx, stoppedMachine_mpx capable.bndregs]
  · intro address outside foreign
    rw [frames_mem foreign, stoppedMachine_outside outside]

/-! Whole runs -/

def Run.Touches (run : Run) (address : Word) : Prop :=
  Within run.initBuffer 4096 address ∨ Within run.finishBuffer 4096 address ∨
    Within run.clave 4096 address ∨
      Within (stackSlot run.rsp) (stackBytes run.benchmark) address ∨ run.Owns address

/-- The value a run from `state` leaves: the one it has drawn, or the one its last pass loads from
the registers as the passes before it have left them. -/
structure Yields (platform : Platform) (run : Run) (state : State) (value : Word) : Prop where
  unused : run.iterations = 0 → value = run.drawn
  used : 0 < run.iterations → ∃ ready before, setUp platform run state = .ok ready ∧
    passes run (run.iterations - 1) ready = .ok before ∧
      value = loaded run.benchmark (run.between (run.iterations - 1) before.registers) run.drawn

def resetMpx : MpxState := { bnd := fun _ => initPair, bndcfgu := 0, bndstatus := 0 }

theorem step_spec (capable : Capable platform) {run : Run} {state final : State} {value : Word}
    (stepped : step platform run state = .ok (value, final)) :
    Yields platform run state value ∧ final.machine.mpx = resetMpx ∧
      final.machine.stderr = state.machine.stderr ++ run.messages ∧
        ∀ address, ¬run.Touches address →
          final.machine.mem address = state.machine.mem address := by
  simp only [step, bind_ok_iff] at stepped
  obtain ⟨ready, set, last, ran, torn, tore, ended⟩ := stepped
  obtain ⟨rfl, rfl⟩ := Prod.mk.inj (Except.ok.inj ended)
  obtain ⟨isReady, drawn, printed, memSet⟩ := setUp_spec capable set
  obtain ⟨-, quiet, unused, used⟩ := passes_spec isReady ran
  obtain ⟨unchanged, silent, off, memTorn⟩ := tearDown_spec capable tore
  refine ⟨{ unused := ?_, used := ?_ }, off, ?_, ?_⟩
  · intro no_passes
    rw [unchanged, unused no_passes, drawn]
  · intro some_pass
    obtain ⟨before, passed, valued⟩ := used some_pass
    refine ⟨ready, before, set, passed, ?_⟩
    rw [unchanged, valued, drawn]
  · rw [silent, quiet.stderr, printed]
  · intro address untouched
    simp only [Run.Touches, not_or] at untouched
    obtain ⟨off_init, off_finish, off_page, off_slot, foreign⟩ := untouched
    have off_base : ¬Within run.clave 8 address := fun within =>
      off_page (lt_trans within (by decide))
    rw [memTorn address off_finish foreign, quiet.mem address off_base off_slot foreign,
      memSet address off_init off_page foreign]

def storeThenLoad : List Run :=
  [sampleRun .bndStore 0x6000 (some 5), sampleRun .bndLoad 0x6000 none,
    sampleRun .gpStore 0x6000 (some 7), sampleRun .gpLoad 0x6000 (some 9)]

theorem storeThenLoad_completes :
    ∃ result, runAll capablePlatform storeThenLoad blankState = .ok result := by
  refine (run_completes_iff (step_completes_iff capable_usable)).2 ?_
  intro run member
  simp only [storeThenLoad, List.mem_cons, List.not_mem_nil, or_false] at member
  rcases member with rfl | rfl | rfl | rfl <;> simp [Run.Aligned, sampleRun]

end LoadStoreFixture

end SimplexMpx
