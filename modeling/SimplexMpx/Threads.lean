import SimplexMpx.RegisterStore
import SimplexMpx.ThreadsCore
import SimplexMpx.Visible

/-!
Starting and stopping in a process with several threads. Each switches the calling thread only, so
the whole process follows exactly while the other threads are already in the state it leads to.
-/

namespace SimplexMpx

open ByteMemory PairStore

variable {platform : Platform} {process next : Process} {returned : Returned}

theorem threadStep_create {parent child : Nat}
    (stepped : threadStep platform (.create parent child) process = .ok (returned, next)) :
    ∃ mpx, process.thread parent = some mpx ∧ process.thread child = none ∧
      next = process.spawn child mpx := by
  simp only [threadStep] at stepped
  cases creator : process.thread parent with
  | none => simp [creator] at stepped
  | some mpx =>
      cases free : process.thread child with
      | some other => simp [creator, free] at stepped
      | none =>
          simp only [creator, free, Except.ok.injEq, Prod.mk.injEq] at stepped
          exact ⟨mpx, rfl, rfl, stepped.2.symm⟩

theorem threadStep_call {thread : Nat} {command : Call}
    (stepped : threadStep platform (.call thread command) process = .ok (returned, next)) :
    ∃ mpx machine, process.thread thread = some mpx ∧
      callStep platform command (process.machine mpx) = .ok (returned, machine) ∧
      next = process.resume thread machine := by
  simp only [threadStep] at stepped
  cases live : process.thread thread with
  | none => simp [live] at stepped
  | some mpx =>
      cases called : callStep platform command (process.machine mpx) with
      | error fault => simp [live, called] at stepped
      | ok result =>
          simp only [live, called, Except.ok.injEq, Prod.mk.injEq] at stepped
          exact ⟨mpx, result.2, rfl, by rw [called, ← stepped.1], stepped.2.symm⟩

/-! What holds of every live thread -/

def AllThreads (Property : MpxState → Prop) (process : Process) : Prop :=
  ∀ thread mpx, process.thread thread = some mpx → Property mpx

theorem allThreads_resume {Property : MpxState → Prop} {caller : Nat} {machine : Machine}
    (others : ∀ thread mpx, thread ≠ caller → process.thread thread = some mpx → Property mpx)
    (kept : Property machine.mpx) : AllThreads Property (process.resume caller machine) := by
  intro thread mpx live
  by_cases own : thread = caller
  · subst thread
    simp only [Process.resume, Function.update_self, Option.some.injEq] at live
    exact live ▸ kept
  · simp only [Process.resume, Function.update_of_ne own] at live
    exact others thread mpx own live

/-- A property of the thread state that the called function preserves, a step preserves for every
thread: a new thread is a copy. -/
theorem allThreads_step {Property : MpxState → Prop} {event : ThreadEvent}
    (all : AllThreads Property process)
    (preserved : ∀ thread command mpx value machine, event = .call thread command →
      Property mpx → callStep platform command (process.machine mpx) = .ok (value, machine) →
        Property machine.mpx)
    (stepped : threadStep platform event process = .ok (returned, next)) :
    AllThreads Property next := by
  cases event with
  | create parent child =>
      obtain ⟨creator, parentLive, _, rfl⟩ := threadStep_create stepped
      intro thread mpx live
      by_cases new : thread = child
      · subst thread
        simp only [Process.spawn, Function.update_self, Option.some.injEq] at live
        exact live ▸ all parent creator parentLive
      · simp only [Process.spawn, Function.update_of_ne new] at live
        exact all thread mpx live
  | call caller command =>
      obtain ⟨before, machine, callerLive, called, rfl⟩ := threadStep_call stepped
      apply allThreads_resume (fun thread mpx _ live => all thread mpx live)
      exact preserved caller command before returned machine rfl (all caller before callerLive)
        called

theorem thread_step_other {event : ThreadEvent} {thread : Nat} {mpx : MpxState}
    (live : process.thread thread = some mpx)
    (other : ∀ command, event ≠ .call thread command)
    (stepped : threadStep platform event process = .ok (returned, next)) :
    next.thread thread = some mpx := by
  cases event with
  | create parent child =>
      obtain ⟨creator, _, free, rfl⟩ := threadStep_create stepped
      have old : thread ≠ child := by
        rintro rfl
        rw [live] at free
        contradiction
      simp only [Process.spawn, Function.update_of_ne old, live]
  | call caller command =>
      obtain ⟨before, machine, _, _, rfl⟩ := threadStep_call stepped
      have apart : thread ≠ caller := by
        rintro rfl
        exact other command rfl
      simp only [Process.resume, Function.update_of_ne apart, live]

/-! The two sides of the switch -/

def ThreadEvent.starts : ThreadEvent → Bool
  | .call _ (.processSpecificInit _) => true
  | _ => false

def ThreadEvent.stops : ThreadEvent → Bool
  | .call _ (.processSpecificFinish _) => true
  | _ => false

theorem allEnabled_step (capable : Capable platform) {event : ThreadEvent}
    (running : event.stops = false) (all : AllThreads MpxState.Enabled process)
    (stepped : threadStep platform event process = .ok (returned, next)) :
    AllThreads MpxState.Enabled next := by
  refine allThreads_step all ?_ stepped
  intro thread command mpx value machine shape enabled called
  subst shape
  cases stands : operationOf command with
  | none => cases command <;> simp [operationOf, ThreadEvent.stops] at stands running
  | some operation =>
      have before : (process.machine mpx).mpx.Enabled := enabled
      obtain ⟨after, ran, represented⟩ :=
        callStep_refines platform (fun _ => capable) stands (storeOf_represents before)
      rw [called] at ran
      obtain ⟨_, rfl⟩ := Prod.mk.inj (Except.ok.inj ran)
      exact represented.enabled

theorem allOff_step (capable : Capable platform) {event : ThreadEvent}
    (idle : event.starts = false) (all : AllThreads (fun mpx => mpx.en = false) process)
    (stepped : threadStep platform event process = .ok (returned, next)) :
    AllThreads (fun mpx => mpx.en = false) next := by
  refine allThreads_step all ?_ stepped
  intro thread command mpx value machine shape off called
  subst shape
  by_cases register : command.isRegisterCall = true
  · have kept := callStep_bndcfgu platform register called
    rw [MpxState.en, kept]
    exact off
  · cases command with
    | processSpecificInit buffer => simp [ThreadEvent.starts] at idle
    | processSpecificFinish buffer =>
        rw [callStep_finish capable.detected capable.osxsave capable.bndcsr] at called
        obtain ⟨_, rfl⟩ := Prod.mk.inj (Except.ok.inj called)
        exact stoppedMachine_off platform buffer _
    | _ => simp [Call.isRegisterCall] at register

/-! A thread's own registers -/

def Call.isWrite : Call → Bool
  | .setbndl _ _ _ | .setbndu _ _ _ | .setbnd _ _ | .qsetbndl _ _ | .processSpecificInit _ => true
  | _ => false

def ThreadEvent.writes (thread : Nat) : ThreadEvent → Bool
  | .call caller command => caller = thread && command.isWrite
  | .create _ _ => false

def Holds (thread : Nat) (store : RegisterStore) (process : Process) : Prop :=
  ∃ mpx, process.thread thread = some mpx ∧ Represents store (process.machine mpx)

theorem holds_call (capable : Capable platform) {thread : Nat} {command : Call}
    {operation : Operation Bnd Word} (stands : operationOf command = some operation)
    {store : RegisterStore} (holds : Holds thread store process)
    (stepped : threadStep platform (.call thread command) process = .ok (returned, next)) :
    returned = returnedOf (PairStore.apply emptyPair store operation).1 ∧
      Holds thread (PairStore.apply emptyPair store operation).2 next := by
  obtain ⟨mpx, live, represented⟩ := holds
  obtain ⟨mpx', machine, live', called, rfl⟩ := threadStep_call stepped
  obtain rfl : mpx = mpx' := Option.some.inj (live.symm.trans live')
  obtain ⟨after, ran, kept⟩ := callStep_refines platform (fun _ => capable) stands represented
  rw [called] at ran
  obtain ⟨rfl, rfl⟩ := Prod.mk.inj (Except.ok.inj ran)
  exact ⟨rfl, machine.mpx, Function.update_self .., kept.enabled, kept.pairs⟩

theorem operationOf_read {command : Call} (running : (ThreadEvent.call 0 command).stops = false)
    (quiet : command.isWrite = false) :
    ∃ operation, operationOf command = some operation ∧ operation.isRead = true := by
  cases command <;>
    first
      | exact ⟨_, rfl, rfl⟩
      | exact absurd quiet Bool.true_eq_false.mp
      | exact absurd running Bool.true_eq_false.mp

theorem holds_step (capable : Capable platform) {event : ThreadEvent} {thread : Nat}
    (condition : event.stops = false ∧ event.writes thread = false) {store : RegisterStore}
    (holds : Holds thread store process)
    (stepped : threadStep platform event process = .ok (returned, next)) :
    Holds thread store next := by
  obtain ⟨running, quiet⟩ := condition
  by_cases own : ∃ command, event = .call thread command
  · obtain ⟨command, rfl⟩ := own
    have still : command.isWrite = false := by simpa [ThreadEvent.writes] using quiet
    have going : (ThreadEvent.call 0 command).stops = false := by
      cases command <;> first | rfl | simp [ThreadEvent.stops] at running
    obtain ⟨operation, stands, read⟩ := operationOf_read going still
    have after := (holds_call capable stands holds stepped).2
    rwa [apply_read read] at after
  · obtain ⟨mpx, live, represented⟩ := holds
    have apart : ∀ command, event ≠ .call thread command := not_exists.mp own
    exact ⟨mpx, thread_step_other live apart stepped, represented.enabled, represented.pairs⟩

/-! Whole runs -/

/-- A half or a whole written by the first call, read back by the second. -/
inductive MatchingAccess : Call → Call → Returned → Prop
  | lower (rsp rsp' : Word) {reg : BndregT} (valid : (switchReg reg).isSome) (val : Word) :
      MatchingAccess (.setbndl rsp reg val) (.getbndl rsp' reg) (.word val)
  | upper (rsp rsp' : Word) {reg : BndregT} (valid : (switchReg reg).isSome) (val : Word) :
      MatchingAccess (.setbndu rsp reg val) (.getbndu rsp' reg) (.word val)
  | both (rsp' : Word) {reg : BndregT} (valid : (switchReg reg).isSome) (val : BitVec 128) :
      MatchingAccess (.setbnd reg val) (.getbnd rsp' reg) (.wide val)

/-- The effect of starting and stopping on every thread that the documentation promises. -/
structure ActsOnProcess (platform : Platform) (events : List ThreadEvent) (process : Process) :
    Prop where
  setThenGet : ∀ before starter buffer mid thread set between get after expected values final,
    events = before ++ .call starter (.processSpecificInit buffer) ::
      (mid ++ .call thread set :: (between ++ .call thread get :: after)) →
    (∀ event ∈ mid ++ between, event.stops = false) →
    (∀ event ∈ between, event.writes thread = false) → MatchingAccess set get expected →
    runThreads platform events process = .ok (values, final) →
    values[before.length]? = some (.bool true) →
    values[before.length + 1 + mid.length + 1 + between.length]? = some expected
  stopReachesAll : ∀ before stopper buffer after later values reached,
    events = before ++ .call stopper (.processSpecificFinish buffer) :: (after ++ later) →
    (∀ event ∈ after, event.starts = false) →
    runThreads platform (before ++ .call stopper (.processSpecificFinish buffer) :: after)
      process = .ok (values, reached) →
    values[before.length]? = some (.bool true) → AllThreads (fun mpx => mpx.en = false) reached

def Covered : ThreadEvent → Process → Prop
  | .call caller (.processSpecificInit _), process =>
      ∀ thread mpx, thread ≠ caller → process.thread thread = some mpx → mpx.Enabled
  | .call caller (.processSpecificFinish _), process =>
      ∀ thread mpx, thread ≠ caller → process.thread thread = some mpx → mpx.en = false
  | _, _ => True

theorem matchingAccess_returns {set get : Call} {expected : Returned}
    (access : MatchingAccess set get expected) :
    ∃ write read, operationOf set = some write ∧ operationOf get = some read ∧
      ∀ store : RegisterStore, returnedOf (PairStore.apply emptyPair
        (PairStore.apply emptyPair store write).2 read).1 = expected := by
  cases access with
  | lower rsp rsp' valid val =>
      obtain ⟨bnd, named⟩ := Option.isSome_iff_exists.mp valid
      refine ⟨_, _, rfl, rfl, ?_⟩
      intro store
      simp [PairStore.apply, named, returnedOf]
  | upper rsp rsp' valid val =>
      obtain ⟨bnd, named⟩ := Option.isSome_iff_exists.mp valid
      refine ⟨_, _, rfl, rfl, ?_⟩
      intro store
      simp [PairStore.apply, named, returnedOf]
  | both rsp' valid val =>
      obtain ⟨bnd, named⟩ := Option.isSome_iff_exists.mp valid
      refine ⟨_, _, rfl, rfl, ?_⟩
      intro store
      simp [PairStore.apply, named, returnedOf, joined_halves]

theorem started_allEnabled (capable : Capable platform) {starter : Nat} {buffer : Word}
    (covered : Covered (.call starter (.processSpecificInit buffer)) process)
    (stepped : threadStep platform (.call starter (.processSpecificInit buffer)) process =
      .ok (returned, next)) : AllThreads MpxState.Enabled next := by
  obtain ⟨before, machine, _, called, rfl⟩ := threadStep_call stepped
  rw [callStep_init capable.detected capable.osxsave capable.bndcsr] at called
  obtain ⟨_, rfl⟩ := Prod.mk.inj (Except.ok.inj called)
  exact allThreads_resume covered (startedMachine_enabled platform buffer _)

theorem stopped_allOff (capable : Capable platform) {stopper : Nat} {buffer : Word}
    (covered : Covered (.call stopper (.processSpecificFinish buffer)) process)
    (stepped : threadStep platform (.call stopper (.processSpecificFinish buffer)) process =
      .ok (returned, next)) : AllThreads (fun mpx => mpx.en = false) next := by
  obtain ⟨before, machine, _, called, rfl⟩ := threadStep_call stepped
  rw [callStep_finish capable.detected capable.osxsave capable.bndcsr] at called
  obtain ⟨_, rfl⟩ := Prod.mk.inj (Except.ok.inj called)
  exact allThreads_resume covered (stoppedMachine_off platform buffer _)

theorem setThenGet_run (capable : Capable platform) (all : AllThreads MpxState.Enabled process)
    {thread : Nat} {set get : Call} {expected : Returned}
    (access : MatchingAccess set get expected) {between after : List ThreadEvent}
    (quiet : ∀ event ∈ between, event.stops = false ∧ event.writes thread = false)
    {values : List Returned} {final : Process}
    (ran : runThreads platform (.call thread set :: (between ++ .call thread get :: after))
      process = .ok (values, final)) : values[between.length + 1]? = some expected := by
  obtain ⟨write, read, stands, stands', reads⟩ := matchingAccess_returns access
  obtain ⟨first, written, later, wrote, continued, rfl⟩ := RunRules.run_cons_ok_iff.mp ran
  obtain ⟨_, middle, value, _, _, waited, got, _, _, gotAt⟩ := RunRules.run_at continued
  obtain ⟨mpx, _, live, _, _⟩ := threadStep_call wrote
  have before : Holds thread (storeOf (process.machine mpx)) process :=
    ⟨mpx, live, storeOf_represents (all thread mpx live)⟩
  have held := (holds_call capable stands before wrote).2
  have kept := RunRules.run_invariant
    (fun _ _ _ _ condition holds stepped => holds_step capable condition holds stepped)
    (RunRules.along_of_forall (fun event member _ => quiet event member) written) held waited
  have answer := (holds_call capable stands' kept got).1
  rw [reads] at answer
  rw [List.getElem?_cons_succ, gotAt, answer]

theorem actsOnProcess_of_covered (capable : Capable platform) {events : List ThreadEvent}
    (covered : RunRules.Along (threadStep platform) Covered events process) :
    ActsOnProcess platform events process := by
  refine ⟨?_, ?_⟩
  · intro before starter buffer mid thread set between get after expected values final shape
      running quiet access ran _
    subst shape
    obtain ⟨front, middle, _, started, _, ranBefore, began, continued, rfl, _⟩ :=
      RunRules.run_at ran
    have condition := (RunRules.along_append covered ranBefore).2.1
    obtain ⟨waited, settled, last, ranMid, ranLast, rfl⟩ := RunRules.run_append_ok_iff.mp continued
    have all := started_allEnabled capable condition began
    have still := RunRules.run_invariant
      (fun _ _ _ _ going enabled stepped => allEnabled_step capable going enabled stepped)
      (RunRules.along_of_forall (fun event member _ =>
        running event (List.mem_append_left _ member)) started) all ranMid
    have answer := setThenGet_run capable still access (fun event member =>
      ⟨running event (List.mem_append_right _ member), quiet event member⟩) ranLast
    have ahead := RunRules.run_length ranBefore
    have between_starts := RunRules.run_length ranMid
    rw [List.getElem?_append_right (by omega), ahead,
      show before.length + 1 + mid.length + 1 + between.length - before.length =
        waited.length + (between.length + 1) + 1 by omega,
      List.getElem?_cons_succ, List.getElem?_append_right (by omega), Nat.add_sub_cancel_left,
      answer]
  · intro before stopper buffer after later values reached shape idle ran _
    subst shape
    obtain ⟨_, _, _, stopped, _, ranBefore, ended, continued, _, _⟩ := RunRules.run_at ran
    have condition := (RunRules.along_append covered ranBefore).2.1
    exact RunRules.run_invariant
      (fun _ _ _ _ still off stepped => allOff_step capable still off stepped)
      (RunRules.along_of_forall (fun event member _ => idle event member) stopped)
      (stopped_allOff capable condition ended) continued

def freshProcess : Process where
  thread thread := if thread = 0 then some blankMachine.mpx else none
  mem := blankMachine.mem
  stderr := []

def Sole (process : Process) : Prop := ∀ thread, thread ≠ 0 → process.thread thread = none

theorem covered_of_sole (sole : Sole process) (command : Call) :
    Covered (.call 0 command) process := by
  cases command with
  | processSpecificInit buffer | processSpecificFinish buffer =>
      intro thread mpx other live
      rw [sole thread other] at live
      contradiction
  | _ => trivial

theorem sole_call (sole : Sole process) {command : Call}
    (stepped : threadStep platform (.call 0 command) process = .ok (returned, next)) :
    Sole next := by
  obtain ⟨_, machine, _, _, rfl⟩ := threadStep_call stepped
  intro thread other
  simp only [Process.resume, Function.update_of_ne other]
  exact sole thread other

/-- Two starts and a stop of the sole thread, then a thread created under the second start. -/
theorem actsOnProcess_of_start_before_create :
    ActsOnProcess capablePlatform
      [.call 0 (.processSpecificInit 0x5000), .call 0 (.setbnd 2 7), .call 0 (.getbnd 0x9000 2),
        .call 0 (.processSpecificFinish 0x5000), .call 0 (.processSpecificInit 0x5000),
        .create 0 1, .call 1 (.setbndl 0x9000 0 5), .call 1 (.getbndl 0x9000 0)]
      freshProcess := by
  apply actsOnProcess_of_covered capablePlatform_capable
  have fresh : Sole freshProcess := by
    intro thread other
    simp [freshProcess, other]
  refine ⟨covered_of_sole fresh _, fun _ _ started => ?_⟩
  refine ⟨trivial, fun _ _ wrote => ⟨trivial, fun _ _ read => ?_⟩⟩
  have before := sole_call (sole_call (sole_call fresh started) wrote) read
  refine ⟨covered_of_sole before _, fun _ _ stopped => ?_⟩
  refine ⟨covered_of_sole (sole_call before stopped) _, fun _ _ _ => ?_⟩
  exact ⟨trivial, fun _ _ _ => ⟨trivial, fun _ _ _ => ⟨trivial, fun _ _ _ => trivial⟩⟩⟩

/-- A thread created before the start keeps MPX off: what it stores is lost. -/
theorem not_actsOnProcess_of_create_before_start :
    ¬ActsOnProcess capablePlatform
      [.create 0 1, .call 0 (.processSpecificInit 0x5000), .call 1 (.setbndl 0x9000 0 5),
        .call 1 (.getbndl 0x9000 0)] freshProcess := by
  intro acts
  have outcome : (runThreads capablePlatform
      [.create 0 1, .call 0 (.processSpecificInit 0x5000), .call 1 (.setbndl 0x9000 0 5),
        .call 1 (.getbndl 0x9000 0)] freshProcess).map Prod.fst =
      .ok [.void, .bool true, .void, .word 0] := by decide +kernel
  obtain ⟨values, final, ran, outcome⟩ := RunRules.run_of_map outcome
  have returned : values = [.void, .bool true, .void, .word 0] := outcome
  have answer := acts.setThenGet [.create 0 1] 0 0x5000 [] 1 (.setbndl 0x9000 0 5) []
    (.getbndl 0x9000 0) [] (.word 5) values final rfl (by simp) (by simp)
    (.lower _ _ (by decide) _) ran (by rw [returned]; rfl)
  rw [returned] at answer
  exact absurd answer (by decide)

end SimplexMpx
