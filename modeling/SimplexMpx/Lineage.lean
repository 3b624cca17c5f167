import SimplexMpx.Histories
import SimplexMpx.Threads

/-!
Threads one at a time: in any interleaving a thread's registers are what its own calls, after those
of the threads it descends from, make of them alone, whatever happens to the shared memory.
-/

namespace SimplexMpx

open ByteMemory PairStore

/-! The registers after a call do not depend on memory -/

def MpxDetermined (body : Machine → Machine) : Prop :=
  ∀ machine machine' : Machine, machine.mpx = machine'.mpx → (body machine).mpx = (body machine').mpx

theorem nearBranch_determined : MpxDetermined Machine.nearBranch := by
  intro machine machine' same
  simp only [Machine.nearBranch, same]
  split
  · rfl
  · exact same

theorem nearCall_determined {α : Type} {body : Machine → α × Machine}
    (determined : MpxDetermined fun machine => (body machine).2) :
    MpxDetermined fun machine => (machine.nearCall body).2 := by
  intro machine machine' same
  exact nearBranch_determined _ _ (determined _ _ (nearBranch_determined _ _ same))

theorem afterAccess_determined (function : String) (rsp : Word) (reg : BndregT) :
    MpxDetermined (afterAccess function rsp reg) := by
  intro machine machine' same
  rw [afterAccess_mpx, afterAccess_mpx, same]

theorem writePair_off {machine : Machine} (off : machine.mpx.en = false) (function : String)
    (reg : BndregT) (lower displacement : Word) :
    (writePair function reg lower displacement machine).mpx = machine.mpx := by
  unfold writePair
  split
  · simp only [Machine.bndmk, off, Bool.false_eq_true, if_false]
  · rfl

/-- The operands need to agree only while MPX is on. -/
theorem writePair_determined {machine machine' : Machine} (same : machine.mpx = machine'.mpx)
    {lower lower' displacement displacement' : Word} (function : String) (reg : BndregT)
    (operands : machine.mpx.en = true → lower = lower' ∧ displacement = displacement') :
    (writePair function reg lower displacement machine).mpx =
      (writePair function reg lower' displacement' machine').mpx := by
  cases on : machine.mpx.en with
  | true =>
      obtain ⟨rfl, rfl⟩ := operands on
      unfold writePair
      split
      · simp only [Machine.bndmk, Machine.setBnd, same]
        split
        · rfl
        · exact same
      · exact same
  | false =>
      have off : machine'.mpx.en = false := same ▸ on
      rw [writePair_off on, writePair_off off, same]

theorem accessed_determined {machine machine' : Machine} (same : machine.mpx = machine'.mpx)
    (on : machine.mpx.en = true) {α : Type} (invalid : α) (decode : BndPair → α) (rsp : Word)
    (reg : BndregT) :
    accessed invalid decode rsp reg machine = accessed invalid decode rsp reg machine' := by
  have on' : machine'.mpx.en = true := same ▸ on
  rw [accessed_of_en on, accessed_of_en on', same]

theorem getbndl_determined (rsp : Word) (reg : BndregT) :
    MpxDetermined fun machine => (getbndl rsp reg machine).2 := by
  simp only [getbndl_eq]
  exact afterAccess_determined "getbndl" rsp reg

theorem getbndu_determined (rsp : Word) (reg : BndregT) :
    MpxDetermined fun machine => (getbndu rsp reg machine).2 := by
  simp only [getbndu_eq]
  exact afterAccess_determined "getbndu" rsp reg

theorem getbnd_determined (rsp : Word) (reg : BndregT) :
    MpxDetermined fun machine => (getbnd rsp reg machine).2 := by
  simp only [getbnd_eq]
  exact afterAccess_determined "getbndu" rsp reg

theorem qgetbndl_determined (rsp : Word) (reg : BndregT) :
    MpxDetermined fun machine => (qgetbndl rsp reg machine).2 := by
  intro machine machine' same
  simp only [qgetbndl_eq, afterQuickAccess_mpx, same]

theorem setbndl_determined (rsp : Word) (reg : BndregT) (val : Word) :
    MpxDetermined (setbndl rsp reg val) := by
  intro machine machine' same
  have entered := nearBranch_determined _ _ same
  have nested := nearCall_determined (getbndu_determined rsp reg)
  rw [setbndl_eq, setbndl_eq]
  refine writePair_determined (nested _ _ same) "setbndl" reg fun on => ⟨rfl, ?_⟩
  have entry : machine.nearBranch.mpx.en = true := by
    simpa [Machine.nearCall, getbndu_eq] using on
  simp only [Machine.nearCall, getbndu_eq, accessed_determined entered entry]

theorem setbndu_determined (rsp : Word) (reg : BndregT) (val : Word) :
    MpxDetermined (setbndu rsp reg val) := by
  intro machine machine' same
  have entered := nearBranch_determined _ _ same
  have nested := nearCall_determined (getbndl_determined rsp reg)
  rw [setbndu_eq, setbndu_eq]
  refine writePair_determined (nested _ _ same) "setbndu" reg fun on => ?_
  have entry : machine.nearBranch.mpx.en = true := by
    simpa [Machine.nearCall, getbndl_eq] using on
  simp only [Machine.nearCall, getbndl_eq, accessed_determined entered entry, and_self]

theorem setbnd_determined (reg : BndregT) (val : BitVec 128) : MpxDetermined (setbnd reg val) := by
  intro machine machine' same
  rw [setbnd_eq, setbnd_eq]
  exact writePair_determined same "setbndu" reg fun _ => ⟨rfl, rfl⟩

theorem qsetbndl_determined (reg : BndregT) (val : Word) : MpxDetermined (qsetbndl reg val) := by
  intro machine machine' same
  exact writePair_determined same "qsetbndl" reg fun _ => ⟨rfl, rfl⟩

theorem call_determined {α : Type} (returned : α → Returned) {body : Machine → α × Machine}
    (determined : MpxDetermined fun machine => (body machine).2) {machine machine' next : Machine}
    (same : machine.mpx = machine'.mpx) {value : Returned}
    (called : call returned body machine = .ok (value, next)) :
    ∃ value' next', call returned body machine' = .ok (value', next') ∧ next.mpx = next'.mpx := by
  obtain ⟨-, rfl⟩ := Prod.mk.inj (Except.ok.inj called)
  exact ⟨_, _, rfl, nearCall_determined determined _ _ same⟩

theorem configured_determined (platform : Platform) (cfg : Word) {machine machine' : Machine}
    (same : machine.mpx = machine'.mpx) (image image' : Machine) :
    (machine.nearBranch.configured platform cfg image).mpx =
      (machine'.nearBranch.configured platform cfg image').mpx := by
  simp only [Machine.configured, nearBranch_determined _ _ same]

/-- Neither the registers after a call nor whether it faults depend on memory. -/
theorem callStep_determined {platform : Platform} {command : Call}
    {machine machine' next : Machine} (same : machine.mpx = machine'.mpx) {value : Returned}
    (stepped : callStep platform command machine = .ok (value, next)) :
    ∃ value' next', callStep platform command machine' = .ok (value', next') ∧
      next.mpx = next'.mpx := by
  cases command with
  | processSpecificInit buffer =>
      by_cases found : Detected platform
      · obtain ⟨on, csr⟩ := init_runs found stepped
        rw [callStep_init found on csr] at stepped
        obtain ⟨-, rfl⟩ := Prod.mk.inj (Except.ok.inj stepped)
        exact ⟨_, _, callStep_init found on csr buffer machine',
          configured_determined platform 3 same _ _⟩
      · rw [callStep_init_undetected found] at stepped
        obtain ⟨-, rfl⟩ := Prod.mk.inj (Except.ok.inj stepped)
        exact ⟨_, _, callStep_init_undetected found buffer machine',
          nearBranch_determined _ _ (nearBranch_determined _ _ same)⟩
  | processSpecificFinish buffer =>
      by_cases found : Detected platform
      · by_cases ready : platform.osxsave = true ∧ platform.xcr0.getLsbD 4 = true
        · rw [callStep_finish found ready.1 ready.2] at stepped
          obtain ⟨-, rfl⟩ := Prod.mk.inj (Except.ok.inj stepped)
          exact ⟨_, _, callStep_finish found ready.1 ready.2 buffer machine',
            configured_determined platform 0 same _ _⟩
        · obtain ⟨fault, failed⟩ := finish_faults found ready buffer machine.nearBranch
          simp only [callStep, fallibleCall, failed] at stepped
          contradiction
      · rw [callStep_finish_undetected found] at stepped
        obtain ⟨-, rfl⟩ := Prod.mk.inj (Except.ok.inj stepped)
        exact ⟨_, _, callStep_finish_undetected found buffer machine',
          nearBranch_determined _ _ (nearBranch_determined _ _ same)⟩
  | getbndl rsp reg => exact call_determined .word (getbndl_determined rsp reg) same stepped
  | getbndu rsp reg => exact call_determined .word (getbndu_determined rsp reg) same stepped
  | getbnd rsp reg => exact call_determined .wide (getbnd_determined rsp reg) same stepped
  | qgetbndl rsp reg => exact call_determined .word (qgetbndl_determined rsp reg) same stepped
  | setbndl rsp reg val =>
      exact @call_determined _ (fun _ => .void) (procedure (setbndl rsp reg val))
        (setbndl_determined rsp reg val) _ _ _ same _ stepped
  | setbndu rsp reg val =>
      exact @call_determined _ (fun _ => .void) (procedure (setbndu rsp reg val))
        (setbndu_determined rsp reg val) _ _ _ same _ stepped
  | setbnd reg val =>
      exact @call_determined _ (fun _ => .void) (procedure (setbnd reg val))
        (setbnd_determined reg val) _ _ _ same _ stepped
  | qsetbndl reg val =>
      exact @call_determined _ (fun _ => .void) (procedure (qsetbndl reg val))
        (qsetbndl_determined reg val) _ _ _ same _ stepped
  | nearBranch =>
      obtain ⟨-, rfl⟩ := Prod.mk.inj (Except.ok.inj stepped)
      exact ⟨_, _, rfl, nearBranch_determined _ _ same⟩

/-! Threads -/

/-- The thread of the start a thread descends from, and the calls that made its registers: those of
its ancestors up to each creation, then its own. Events come latest first. -/
def lineage : List ThreadEvent → Nat → Nat × List Call
  | [], thread => (thread, [])
  | .create parent child :: earlier, thread =>
      lineage earlier (if child = thread then parent else thread)
  | .call caller command :: earlier, thread =>
      let (root, calls) := lineage earlier thread
      (root, if caller = thread then calls ++ [command] else calls)

variable {platform : Platform}

/-- In any interleaving, on any processor and with MPX on or off, a thread ends with the registers
that a single thread gets from the calls of its lineage, from any memory. -/
theorem registers_follow_lineage {events : List ThreadEvent} {process final : Process}
    {values : List Returned} (ran : runThreads platform events process = .ok (values, final))
    {thread : Nat} {mpx : MpxState} (live : final.thread thread = some mpx) :
    ∃ origin, process.thread (lineage events.reverse thread).1 = some origin ∧
      ∀ machine : Machine, machine.mpx = origin → ∃ returned last,
        runCalls platform (lineage events.reverse thread).2 machine = .ok (returned, last) ∧
          last.mpx = mpx := by
  induction events using List.reverseRecOn generalizing final values thread mpx with
  | nil =>
      simp only [RunRules.run_nil, Except.ok.injEq, Prod.mk.injEq] at ran
      obtain ⟨-, rfl⟩ := ran
      exact ⟨mpx, live, fun machine same => ⟨[], machine, rfl, same⟩⟩
  | append_singleton earlier event ih =>
      obtain ⟨before, middle, value, ranBefore, stepped, -⟩ := RunRules.run_snoc_ok_iff.mp ran
      rw [List.reverse_append, List.reverse_singleton, List.singleton_append]
      cases event with
      | create parent child =>
          obtain ⟨creator, parentLive, _, rfl⟩ := threadStep_create stepped
          simp only [lineage]
          by_cases new : child = thread
          · subst child
            simp only [Process.spawn, Function.update_self, Option.some.injEq] at live
            rw [if_pos rfl]
            exact ih ranBefore (live ▸ parentLive)
          · simp only [Process.spawn, Function.update_of_ne (Ne.symm new)] at live
            rw [if_neg new]
            exact ih ranBefore live
      | call caller command =>
          obtain ⟨mpx', machine', callerLive, called, rfl⟩ := threadStep_call stepped
          simp only [lineage]
          by_cases own : caller = thread
          · subst caller
            simp only [Process.resume, Function.update_self, Option.some.injEq] at live
            obtain ⟨origin, rootLive, follows⟩ := ih ranBefore callerLive
            refine ⟨origin, rootLive, ?_⟩
            intro machine same
            obtain ⟨returned, last, ranAlone, kept⟩ := follows machine same
            obtain ⟨value', next, called', after⟩ :=
              callStep_determined (show (middle.machine mpx').mpx = last.mpx from kept.symm) called
            rw [if_pos rfl]
            exact ⟨returned ++ [value'], next,
              RunRules.run_snoc_ok_iff.mpr ⟨returned, last, value', ranAlone, called', rfl⟩,
              after.symm.trans live⟩
          · simp only [Process.resume, Function.update_of_ne (Ne.symm own)] at live
            rw [if_neg own]
            exact ih ranBefore live

theorem registers_follow_lineage_of_child :
    ∃ values final mpx, runThreads capablePlatform
        [.call 0 (.processSpecificInit 0x5000), .call 0 (.qsetbndl 0 5), .create 0 1,
          .call 0 (.qsetbndl 0 6), .call 1 (.qsetbndl 1 7)] freshProcess = .ok (values, final) ∧
      final.thread 1 = some mpx ∧ ∃ returned last, runCalls capablePlatform
        [.processSpecificInit 0x5000, .qsetbndl 0 5, .qsetbndl 1 7] blankMachine =
          .ok (returned, last) ∧ last.mpx = mpx := by
  have outcome : (runThreads capablePlatform
      [.call 0 (.processSpecificInit 0x5000), .call 0 (.qsetbndl 0 5), .create 0 1,
        .call 0 (.qsetbndl 0 6), .call 1 (.qsetbndl 1 7)] freshProcess).map
      (fun result => (result.2.thread 1).isSome) = .ok true := by decide +kernel
  obtain ⟨values, final, ran, shown⟩ := RunRules.run_of_map outcome
  obtain ⟨mpx, live⟩ := Option.isSome_iff_exists.mp (show (final.thread 1).isSome = true from shown)
  obtain ⟨origin, rooted, follows⟩ := registers_follow_lineage ran live
  obtain rfl : blankMachine.mpx = origin := Option.some.inj rooted
  exact ⟨values, final, mpx, ran, live, follows blankMachine rfl⟩

def ThreadEvent.callOf (thread : Nat) : ThreadEvent → Option Call
  | .call caller command => if caller = thread then some command else none
  | .create _ _ => none

def ThreadEvent.stopsIn (thread : Nat) (event : ThreadEvent) : Bool :=
  match event.callOf thread with
  | some command => command.stops
  | none => false

/-- The thread and the machine it would have alone hold the same registers. -/
def HoldsAlone (thread : Nat) (process : Process) (machine : Machine) : Prop :=
  ∃ store, Holds thread store process ∧ Represents store machine

theorem thread_component (capable : Capable platform) (thread : Nat) :
    RunRules.Component (threadStep platform) (callStep platform)
      (fun event => event.stopsIn thread = false) (ThreadEvent.callOf thread)
      (HoldsAlone thread) := by
  constructor
  · rintro event command process machine value next running picked ⟨store, holds, represented⟩ stepped
    obtain rfl : event = .call thread command := by
      cases event with
      | create parent child => simp [ThreadEvent.callOf] at picked
      | call caller other =>
          by_cases own : caller = thread
          · simp only [ThreadEvent.callOf, own, if_true, Option.some.injEq] at picked
            rw [own, picked]
          · simp [ThreadEvent.callOf, own] at picked
    simp only [ThreadEvent.stopsIn, picked] at running
    obtain ⟨operation, stands⟩ := operationOf_of_running running
    obtain ⟨rfl, kept⟩ := holds_call capable stands holds stepped
    obtain ⟨next', called, kept'⟩ := callStep_refines platform (fun _ => capable) stands represented
    exact ⟨next', called, _, kept, kept'⟩
  · rintro event process machine value next _ left ⟨store, ⟨mpx, live, held⟩, represented⟩ stepped
    have other : ∀ command, event ≠ .call thread command := by
      rintro command rfl
      simp [ThreadEvent.callOf] at left
    exact ⟨store, ⟨mpx, thread_step_other live other stepped, held.enabled, held.pairs⟩, represented⟩

/-- While MPX is on in a thread, its calls return what they would return if it ran alone: creations
and the calls of other threads, starts and stops included, do not show. -/
theorem thread_served_alone (capable : Capable platform) {thread : Nat}
    {events : List ThreadEvent} (running : ∀ event ∈ events, event.stopsIn thread = false)
    {process final : Process} {mpx : MpxState} (live : process.thread thread = some mpx)
    (enabled : mpx.Enabled) {values : List Returned}
    (ran : runThreads platform events process = .ok (values, final)) :
    ∃ alone, runCalls platform (events.filterMap (ThreadEvent.callOf thread))
        (process.machine mpx) =
      .ok (RunRules.valuesOf (ThreadEvent.callOf thread) events values, alone) := by
  have held : Represents (storeOf (process.machine mpx)) (process.machine mpx) :=
    storeOf_represents enabled
  obtain ⟨alone, ranAlone, -⟩ := (thread_component capable thread).run running
    ⟨_, ⟨mpx, live, held⟩, held⟩ ran
  exact ⟨alone, ranAlone⟩

theorem thread_served_alone_of_stop :
    ∃ values final alone, runThreads capablePlatform
        [.create 0 1, .call 0 (.setbndl 0x9000 0 5), .call 1 (.processSpecificFinish 0x6000),
          .call 0 (.getbndl 0x9000 0)]
        (freshProcess.resume 0 (startedMachine capablePlatform 0x5000 blankMachine)) =
        .ok (values, final) ∧
      runCalls capablePlatform [.setbndl 0x9000 0 5, .getbndl 0x9000 0]
        ((freshProcess.resume 0 (startedMachine capablePlatform 0x5000 blankMachine)).machine
          (startedMachine capablePlatform 0x5000 blankMachine).mpx) =
        .ok ([.void, .word 5], alone) := by
  have outcome : (runThreads capablePlatform
      [.create 0 1, .call 0 (.setbndl 0x9000 0 5), .call 1 (.processSpecificFinish 0x6000),
        .call 0 (.getbndl 0x9000 0)]
      (freshProcess.resume 0 (startedMachine capablePlatform 0x5000 blankMachine))).map
      Prod.fst = .ok [.void, .void, .bool true, .word 5] := by decide +kernel
  obtain ⟨values, final, ran, shown⟩ := RunRules.run_of_map outcome
  obtain rfl : values = [.void, .void, .bool true, .word 5] := shown
  obtain ⟨alone, ranAlone⟩ := thread_served_alone capablePlatform_capable (by decide)
    (Function.update_self ..) (startedMachine_enabled capablePlatform 0x5000 blankMachine) ran
  exact ⟨_, final, alone, ran, ranAlone⟩

end SimplexMpx
