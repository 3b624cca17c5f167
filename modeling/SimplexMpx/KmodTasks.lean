import SimplexMpx.Kmod

/-!
Processors and context switches out of sight: a kernel behaves as one in which every task owns its
extended state for good, whatever module it loads. The abstract kernel has tasks only; with
`simplexkm` on MPX hardware its loads and unloads switch MPX of the calling task and cannot fail.
-/

namespace SimplexMpx

open ByteMemory

/-- Every task with the state it owns, whether it runs or waits. -/
structure TaskSystem where
  owned : Nat → Option MpxState
  mem : Memory 64
  log : List LogLine
  loaded : Option Int

inductive TaskEvent
  | insmod (task : Nat) (buffer : Word)
  | rmmod (task : Nat) (buffer : Word)
  | create (task child : Nat)
  | user (task : Nat) (instruction : UserInstruction)
deriving DecidableEq, Repr

namespace TaskSystem

def machine (mpx : MpxState) (tasks : TaskSystem) : Machine :=
  { mpx := mpx, mem := tasks.mem, stderr := [] }

def resume (task : Nat) (machine : Machine) (tasks : TaskSystem) : TaskSystem :=
  { tasks with
    owned := Function.update tasks.owned task (some machine.mpx)
    mem := machine.mem }

def load (loadable : KernelModule) (task : Nat) (buffer : Word) (tasks : TaskSystem) :
    Except KernelFault (KernelValue × TaskSystem) :=
  match tasks.owned task, tasks.loaded with
  | none, _ => .error .noSuchTask
  | some _, some _ => .ok (.refused, tasks)
  | some registers, none =>
      match loadable.init buffer (tasks.machine registers) with
      | .error fault => .error (.hardware fault)
      | .ok (result, machine, printed) =>
          .ok (.initReturned result,
            { tasks.resume task machine with
              log := tasks.log ++ printed
              loaded := if result < 0 then none else some result })

def unload (loadable : KernelModule) (task : Nat) (buffer : Word) (tasks : TaskSystem) :
    Except KernelFault (KernelValue × TaskSystem) :=
  match tasks.owned task, tasks.loaded with
  | none, _ => .error .noSuchTask
  | some _, none => .ok (.refused, tasks)
  | some registers, some _ =>
      match loadable.exit buffer (tasks.machine registers) with
      | .error fault => .error (.hardware fault)
      | .ok (machine, printed) =>
          .ok (.cleanedUp,
            { tasks.resume task machine with
              log := tasks.log ++ printed
              loaded := none })

def step (loadable : KernelModule) :
    TaskEvent → TaskSystem → Except KernelFault (KernelValue × TaskSystem)
  | .insmod task buffer, tasks => tasks.load loadable task buffer
  | .rmmod task buffer, tasks => tasks.unload loadable task buffer
  | .create task child, tasks =>
      match tasks.owned task, tasks.owned child with
      | none, _ => .error .noSuchTask
      | some _, some _ => .error .taskExists
      | some registers, none =>
          .ok (.done, { tasks with owned := Function.update tasks.owned child (some registers) })
  | .user task instruction, tasks =>
      match tasks.owned task with
      | none => .error .noSuchTask
      | some registers =>
          .ok (.executed registers.en registers.bndpreserve,
            tasks.resume task (instruction.execute (tasks.machine registers)))

end TaskSystem

abbrev taskStep (platform : Platform) :
    TaskEvent → TaskSystem → Except KernelFault (KernelValue × TaskSystem) :=
  TaskSystem.step (Simplexkm.simplexkm platform)

abbrev runTasks (platform : Platform) :
    List TaskEvent → TaskSystem → Except KernelFault (List KernelValue × TaskSystem) :=
  RunRules.run (taskStep platform)

/-! The two levels -/

structure WellRun (system : System) : Prop where
  marked : ∀ processor current registers,
    system.running processor = some (current, registers) →
      ∃ saved, system.task current = some ⟨true, saved⟩
  alone : ∀ processor processor' current registers registers',
    system.running processor = some (current, registers) →
      system.running processor' = some (current, registers') → processor = processor'

/-- The state of a running task is in its processor, that of a waiting one where it was saved. -/
structure Views (system : System) (tasks : TaskSystem) : Prop where
  well : WellRun system
  running : ∀ processor current registers,
    system.running processor = some (current, registers) → tasks.owned current = some registers
  waiting : ∀ number saved, system.task number = some ⟨false, saved⟩ →
    tasks.owned number = some saved
  absent : ∀ number, system.task number = none → tasks.owned number = none
  mem : tasks.mem = system.mem
  log : tasks.log = system.log
  loaded : tasks.loaded = system.loaded

def actionOf (system : System) : KernelEvent → Option TaskEvent
  | .insmod processor buffer =>
      (system.running processor).map fun current => .insmod current.1 buffer
  | .rmmod processor buffer =>
      (system.running processor).map fun current => .rmmod current.1 buffer
  | .create processor child =>
      (system.running processor).map fun current => .create current.1 child
  | .contextSwitch _ _ => none
  | .user processor instruction =>
      (system.running processor).map fun current => .user current.1 instruction

abbrev schedule (platform : Platform) :
    List KernelEvent → System → List TaskEvent × List KernelValue :=
  RunRules.labelled (kernelStep platform) actionOf

section Steps

variable {system next : System} {tasks : TaskSystem}

theorem resume_running {processor current other number : Nat} {registers : MpxState}
    {machine : Machine}
    (there : (system.resume processor current machine).running other = some (number, registers)) :
    other = processor ∧ number = current ∧ registers = machine.mpx ∨
      other ≠ processor ∧ system.running other = some (number, registers) := by
  by_cases own : other = processor
  · subst other
    simp only [System.resume, Function.update_self, Option.some.injEq, Prod.mk.injEq] at there
    exact .inl ⟨rfl, there.1.symm, there.2.symm⟩
  · simp only [System.resume, Function.update_of_ne own] at there
    exact .inr ⟨own, there⟩

theorem wellRun_resume {processor current : Nat} {registers : MpxState} (well : WellRun system)
    (here : system.running processor = some (current, registers)) (machine : Machine)
    (same : next.task = system.task)
    (resumed : next.running = (system.resume processor current machine).running) :
    WellRun next := by
  have placed : ∀ other number registers', next.running other = some (number, registers') →
      ∃ before, system.running other = some (number, before) := by
    intro other number registers' there
    rw [resumed] at there
    obtain ⟨rfl, rfl, -⟩ | ⟨-, there⟩ := resume_running there
    · exact ⟨registers, here⟩
    · exact ⟨registers', there⟩
  constructor
  · intro other number registers' there
    obtain ⟨before, was⟩ := placed other number registers' there
    rw [same]
    exact well.marked other number before was
  · intro other other' number registers' registers'' there there'
    obtain ⟨before, was⟩ := placed other number registers' there
    obtain ⟨before', was'⟩ := placed other' number registers'' there'
    exact well.alone other other' number before before' was was'

theorem owned_apart {processor other current number : Nat} {registers registers' : MpxState}
    (well : WellRun system) (here : system.running processor = some (current, registers))
    (there : system.running other = some (number, registers')) (apart : other ≠ processor) :
    number ≠ current := by
  rintro rfl
  exact apart (well.alone other processor number registers' registers there here)

theorem views_resume {processor current : Nat} {registers : MpxState} {machine : Machine}
    (views : Views system tasks)
    (here : system.running processor = some (current, registers)) (log : List LogLine)
    (loaded : Option Int) :
    Views { system.resume processor current machine with log := log, loaded := loaded }
      { tasks.resume current machine with log := log, loaded := loaded } := by
  obtain ⟨saved, marked⟩ := views.well.marked processor current registers here
  refine ⟨wellRun_resume views.well here machine rfl rfl, ?_, ?_, ?_, rfl, rfl, rfl⟩
  · intro other number registers' there
    obtain ⟨-, rfl, rfl⟩ | ⟨own, there⟩ := resume_running there
    · exact Function.update_self ..
    · have apart := owned_apart views.well here there own
      simp only [TaskSystem.resume, Function.update_of_ne apart]
      exact views.running other number registers' there
  · intro number waits waiting
    have apart : number ≠ current := by
      rintro rfl
      simp [System.resume, marked] at waiting
    simp only [TaskSystem.resume, Function.update_of_ne apart]
    exact views.waiting number waits waiting
  · intro number missing
    have apart : number ≠ current := by
      rintro rfl
      simp [System.resume, marked] at missing
    simp only [TaskSystem.resume, Function.update_of_ne apart]
    exact views.absent number missing

theorem views_spawn {child : Nat} {registers : MpxState} (views : Views system tasks)
    (free : system.task child = none) :
    Views (system.spawn child registers)
      { tasks with owned := Function.update tasks.owned child (some registers) } := by
  have older : ∀ other number registers', system.running other = some (number, registers') →
      number ≠ child := by
    rintro other number registers' there rfl
    obtain ⟨saved, marked⟩ := views.well.marked other number registers' there
    rw [free] at marked
    contradiction
  refine ⟨⟨?_, views.well.alone⟩, ?_, ?_, ?_, views.mem, views.log, views.loaded⟩
  · intro other number registers' there
    obtain ⟨saved, marked⟩ := views.well.marked other number registers' there
    refine ⟨saved, ?_⟩
    simp only [System.spawn, Function.update_of_ne (older other number registers' there)]
    exact marked
  · intro other number registers' there
    simp only [Function.update_of_ne (older other number registers' there)]
    exact views.running other number registers' there
  · intro number waits waiting
    by_cases new : number = child
    · subst number
      simp only [System.spawn, Function.update_self, Option.some.injEq, Task.mk.injEq] at waiting
      rw [← waiting.2]
      exact Function.update_self ..
    · simp only [System.spawn, Function.update_of_ne new] at waiting
      simp only [Function.update_of_ne new]
      exact views.waiting number waits waiting
  · intro number missing
    by_cases new : number = child
    · subst number
      simp [System.spawn] at missing
    · simp only [System.spawn, Function.update_of_ne new] at missing
      simp only [Function.update_of_ne new]
      exact views.absent number missing

/-- On the other processors a switched system runs what it ran. -/
theorem switch_running {processor current other place number : Nat}
    {registers restored registers' : MpxState}
    (there : (system.switch processor current other registers restored).running place =
      some (number, registers')) :
    place = processor ∧ number = other ∧ registers' = restored ∨
      place ≠ processor ∧ system.running place = some (number, registers') := by
  by_cases own : place = processor
  · subst place
    simp only [System.switch, Function.update_self, Option.some.injEq, Prod.mk.injEq] at there
    exact .inl ⟨rfl, there.1.symm, there.2.symm⟩
  · simp only [System.switch, Function.update_of_ne own] at there
    exact .inr ⟨own, there⟩

theorem running_not_waiting {other place number : Nat} {restored registers' : MpxState}
    (well : WellRun system) (waiting : system.task other = some ⟨false, restored⟩)
    (there : system.running place = some (number, registers')) : number ≠ other := by
  rintro rfl
  obtain ⟨saved, marked⟩ := well.marked place number registers' there
  rw [waiting] at marked
  simp at marked

theorem wellRun_switch {processor current other : Nat} {registers restored : MpxState}
    (well : WellRun system) (here : system.running processor = some (current, registers))
    (waiting : system.task other = some ⟨false, restored⟩) :
    WellRun (system.switch processor current other registers restored) := by
  constructor
  · intro place number registers' there
    obtain ⟨rfl, rfl, rfl⟩ | ⟨own, before⟩ := switch_running there
    · exact ⟨registers', Function.update_self ..⟩
    · obtain ⟨saved, marked⟩ := well.marked place number registers' before
      refine ⟨saved, ?_⟩
      simp only [System.switch,
        Function.update_of_ne (running_not_waiting well waiting before),
        Function.update_of_ne (owned_apart well here before own)]
      exact marked
  · intro first second number registers' registers'' there there'
    obtain ⟨rfl, rfl, rfl⟩ | ⟨own, before⟩ := switch_running there
    · obtain ⟨rfl, -⟩ | ⟨-, before'⟩ := switch_running there'
      · rfl
      · exact absurd rfl (running_not_waiting well waiting before')
    · obtain ⟨rfl, rfl, rfl⟩ | ⟨-, before'⟩ := switch_running there'
      · exact absurd rfl (running_not_waiting well waiting before)
      · exact well.alone first second number registers' registers'' before before'

/-- A switch moves two states and changes none, so no task sees it. -/
theorem views_switch {processor current other : Nat} {registers restored : MpxState}
    (views : Views system tasks)
    (here : system.running processor = some (current, registers))
    (waiting : system.task other = some ⟨false, restored⟩) :
    Views (system.switch processor current other registers restored) tasks := by
  refine ⟨wellRun_switch views.well here waiting, ?_, ?_, ?_, views.mem, views.log,
    views.loaded⟩
  · intro place number registers' there
    obtain ⟨rfl, rfl, rfl⟩ | ⟨-, before⟩ := switch_running there
    · exact views.waiting number registers' waiting
    · exact views.running place number registers' before
  · intro number saved idle
    by_cases enters : number = other
    · subst number
      simp [System.switch] at idle
    by_cases leaves : number = current
    · subst number
      simp only [System.switch, Function.update_of_ne enters, Function.update_self,
        Option.some.injEq, Task.mk.injEq] at idle
      exact idle.2 ▸ views.running processor current registers here
    · simp only [System.switch, Function.update_of_ne enters, Function.update_of_ne leaves]
        at idle
      exact views.waiting number saved idle
  · intro number missing
    by_cases enters : number = other
    · subst number
      simp [System.switch] at missing
    by_cases leaves : number = current
    · subst number
      simp [System.switch, Function.update_of_ne enters] at missing
    · simp only [System.switch, Function.update_of_ne enters, Function.update_of_ne leaves]
        at missing
      exact views.absent number missing

end Steps

/-! What one event is to the tasks -/

section Events

variable {loadable : KernelModule} {system next : System} {tasks : TaskSystem}
  {value : KernelValue}

theorem Views.machine_eq (views : Views system tasks) (registers : MpxState) :
    tasks.machine registers = system.machine registers := by
  simp only [TaskSystem.machine, System.machine, views.mem]

theorem insmod_seen {processor current : Nat} {buffer : Word} {registers : MpxState}
    (views : Views system tasks) (here : system.running processor = some (current, registers))
    (stepped : System.step loadable (.insmod processor buffer) system = .ok (value, next)) :
    ∃ next', TaskSystem.step loadable (.insmod current buffer) tasks = .ok (value, next') ∧
      Views next next' := by
  have owns := views.running processor current registers here
  simp only [System.step, System.load, here] at stepped
  simp only [TaskSystem.step, TaskSystem.load, owns, views.loaded, views.machine_eq]
  cases kept : system.loaded with
  | some result =>
      simp only [kept, Except.ok.injEq, Prod.mk.injEq] at stepped
      obtain ⟨rfl, rfl⟩ := stepped
      exact ⟨tasks, rfl, views⟩
  | none =>
      cases ran : loadable.init buffer (system.machine registers) with
      | error fault => simp [kept, ran] at stepped
      | ok returned =>
          simp only [kept, ran, Except.ok.injEq, Prod.mk.injEq] at stepped
          obtain ⟨rfl, rfl⟩ := stepped
          simp only [ran]
          refine ⟨_, rfl, ?_⟩
          rw [views.log]
          exact views_resume views here _ _

theorem rmmod_seen {processor current : Nat} {buffer : Word} {registers : MpxState}
    (views : Views system tasks) (here : system.running processor = some (current, registers))
    (stepped : System.step loadable (.rmmod processor buffer) system = .ok (value, next)) :
    ∃ next', TaskSystem.step loadable (.rmmod current buffer) tasks = .ok (value, next') ∧
      Views next next' := by
  have owns := views.running processor current registers here
  simp only [System.step, System.unload, here] at stepped
  simp only [TaskSystem.step, TaskSystem.unload, owns, views.loaded, views.machine_eq]
  cases kept : system.loaded with
  | none =>
      simp only [kept, Except.ok.injEq, Prod.mk.injEq] at stepped
      obtain ⟨rfl, rfl⟩ := stepped
      exact ⟨tasks, rfl, views⟩
  | some result =>
      cases ran : loadable.exit buffer (system.machine registers) with
      | error fault => simp [kept, ran] at stepped
      | ok returned =>
          simp only [kept, ran, Except.ok.injEq, Prod.mk.injEq] at stepped
          obtain ⟨rfl, rfl⟩ := stepped
          simp only [ran]
          refine ⟨_, rfl, ?_⟩
          rw [views.log]
          exact views_resume views here _ _

theorem create_seen {processor current child : Nat} {registers : MpxState}
    (views : Views system tasks) (here : system.running processor = some (current, registers))
    (stepped : System.step loadable (.create processor child) system = .ok (value, next)) :
    ∃ next', TaskSystem.step loadable (.create current child) tasks = .ok (value, next') ∧
      Views next next' := by
  have owns := views.running processor current registers here
  simp only [System.step, here] at stepped
  cases free : system.task child with
  | some task => simp [free] at stepped
  | none =>
      simp only [free, Except.ok.injEq, Prod.mk.injEq] at stepped
      obtain ⟨rfl, rfl⟩ := stepped
      simp only [TaskSystem.step, owns, views.absent child free]
      exact ⟨_, rfl, views_spawn views free⟩

theorem user_seen {processor current : Nat} {instruction : UserInstruction} {registers : MpxState}
    (views : Views system tasks) (here : system.running processor = some (current, registers))
    (stepped : System.step loadable (.user processor instruction) system = .ok (value, next)) :
    ∃ next', TaskSystem.step loadable (.user current instruction) tasks = .ok (value, next') ∧
      Views next next' := by
  have owns := views.running processor current registers here
  simp only [System.step, here, Except.ok.injEq, Prod.mk.injEq] at stepped
  obtain ⟨rfl, rfl⟩ := stepped
  simp only [TaskSystem.step, owns, views.machine_eq]
  refine ⟨_, rfl, ?_⟩
  have resumed := @views_resume system tasks processor current registers
    (instruction.execute (system.machine registers)) views here tasks.log tasks.loaded
  rw [views.log, views.loaded] at resumed
  simpa only [System.resume, TaskSystem.resume, views.log, views.loaded] using resumed

/-- Every event is an action of the task on its processor, or a switch that no task sees. -/
theorem tasks_abstract (loadable : KernelModule) :
    RunRules.Abstracts (System.step loadable) (TaskSystem.step loadable) actionOf Views := by
  constructor
  · intro event action system tasks value next acts views stepped
    cases event with
    | contextSwitch processor other => simp [actionOf] at acts
    | insmod processor buffer =>
        obtain ⟨current, here, rfl⟩ := Option.map_eq_some_iff.mp acts
        exact insmod_seen views here stepped
    | rmmod processor buffer =>
        obtain ⟨current, here, rfl⟩ := Option.map_eq_some_iff.mp acts
        exact rmmod_seen views here stepped
    | create processor child =>
        obtain ⟨current, here, rfl⟩ := Option.map_eq_some_iff.mp acts
        exact create_seen views here stepped
    | user processor instruction =>
        obtain ⟨current, here, rfl⟩ := Option.map_eq_some_iff.mp acts
        exact user_seen views here stepped
  · intro event system tasks value next silent views stepped
    cases event with
    | contextSwitch processor other =>
        obtain ⟨current, registers, restored, here, waiting, rfl⟩ := contextSwitch_ok stepped
        exact views_switch views here waiting
    | insmod processor buffer =>
        have idle := Option.map_eq_none_iff.mp silent
        simp [System.step, System.load, idle] at stepped
    | rmmod processor buffer =>
        have idle := Option.map_eq_none_iff.mp silent
        simp [System.step, System.unload, idle] at stepped
    | create processor child =>
        have idle := Option.map_eq_none_iff.mp silent
        simp [System.step, idle] at stepped
    | user processor instruction =>
        have idle := Option.map_eq_none_iff.mp silent
        simp [System.step, idle] at stepped

end Events

/-! Runs -/

section Runs

variable {platform : Platform}

/-- `simplexkm` on MPX hardware: BNDCFGU and BNDSTATUS of the calling task are programmed, through
an image in its local array, and nothing fails. -/
def switching (platform : Platform) : KernelModule where
  init buffer machine :=
    .ok (0, machine.configured platform 3 (enableImage buffer (memsetBuffer buffer machine)),
      Simplexkm.supportedMessages ++ Simplexkm.enableMessages)
  exit buffer machine :=
    .ok (machine.configured platform 0 (disableImage buffer (memsetBuffer buffer machine)),
      Simplexkm.supportedMessages ++ Simplexkm.disableMessages)

theorem simplexkm_switches (capable : Capable platform) :
    Simplexkm.simplexkm platform = switching platform := by
  simp only [Simplexkm.simplexkm, switching, KernelModule.mk.injEq]
  constructor
  · funext buffer machine
    exact Simplexkm.enableInit_switches capable buffer machine
  · funext buffer machine
    exact Simplexkm.enableCleanup_switches capable buffer machine

theorem runKernel_abstracts {events : List KernelEvent} {system final : System}
    {tasks : TaskSystem} {values : List KernelValue} (views : Views system tasks)
    (ran : runKernel platform events system = .ok (values, final)) :
    ∃ last, runTasks platform (schedule platform events system).1 tasks =
        .ok ((schedule platform events system).2, last) ∧ Views final last ∧
      (Capable platform → RunRules.run (TaskSystem.step (switching platform))
        (schedule platform events system).1 tasks =
          .ok ((schedule platform events system).2, last)) := by
  obtain ⟨last, shown, seen⟩ := (tasks_abstract (Simplexkm.simplexkm platform)).run views ran
  refine ⟨last, shown, seen, fun capable => ?_⟩
  rw [← simplexkm_switches capable]
  exact shown

theorem schedule_only_matters {first second : List KernelEvent}
    {system system' final final' : System} {tasks : TaskSystem} {values values' : List KernelValue}
    (views : Views system tasks) (views' : Views system' tasks)
    (same : (schedule platform first system).1 = (schedule platform second system').1)
    (ran : runKernel platform first system = .ok (values, final))
    (ran' : runKernel platform second system' = .ok (values', final')) :
    (schedule platform first system).2 = (schedule platform second system').2 ∧
      ∃ last, Views final last ∧ Views final' last ∧
        (Capable platform → RunRules.run (TaskSystem.step (switching platform))
          (schedule platform first system).1 tasks =
            .ok ((schedule platform first system).2, last)) := by
  obtain ⟨last, shown, seen⟩ := (tasks_abstract (Simplexkm.simplexkm platform)).run views ran
  obtain ⟨last', shown', seen'⟩ := (tasks_abstract (Simplexkm.simplexkm platform)).run views' ran'
  have outcome := shown
  rw [same, shown'] at outcome
  obtain ⟨answers, rfl⟩ := Prod.mk.inj (Except.ok.inj outcome)
  refine ⟨answers.symm, last', seen, seen', fun capable => ?_⟩
  rw [← simplexkm_switches capable]
  exact shown

end Runs

def bootedTasks (others : Nat → Bool) : TaskSystem where
  owned number := if number = 0 ∨ others number then some blankMachine.mpx else none
  mem := blankMachine.mem
  log := []
  loaded := none

theorem views_booted (others : Nat → Bool) : Views (bootedSystem others) (bootedTasks others) := by
  have first : ∀ processor current registers,
      (bootedSystem others).running processor = some (current, registers) →
        processor = 0 ∧ current = 0 ∧ registers = blankMachine.mpx := by
    intro processor current registers here
    simp only [bootedSystem] at here
    split at here
    · rename_i own
      obtain ⟨rfl, rfl⟩ := Prod.mk.inj (Option.some.inj here)
      exact ⟨own, rfl, rfl⟩
    · contradiction
  refine ⟨⟨?_, ?_⟩, ?_, ?_, ?_, rfl, rfl, rfl⟩
  · intro processor current registers here
    obtain ⟨-, rfl, -⟩ := first processor current registers here
    exact ⟨blankMachine.mpx, rfl⟩
  · intro processor processor' current registers registers' here there
    rw [(first processor current registers here).1, (first processor' current registers' there).1]
  · intro processor current registers here
    obtain ⟨-, rfl, rfl⟩ := first processor current registers here
    rfl
  · intro number saved waits
    simp only [bootedSystem] at waits
    simp only [bootedTasks]
    grind
  · intro number missing
    simp only [bootedSystem] at missing
    simp only [bootedTasks]
    grind

theorem runKernel_abstracts_two :
    ∃ values final last, runKernel capablePlatform
        [.insmod 0 0x5000, .contextSwitch 0 1, .user 0 (.bndmk 1 2 .bnd0)] twoTasks =
          .ok (values, final) ∧
      runTasks capablePlatform [.insmod 0 0x5000, .user 1 (.bndmk 1 2 .bnd0)]
          (bootedTasks (· = 1)) = .ok ([.initReturned 0, .executed false false], last) ∧
      Views final last ∧
      RunRules.run (TaskSystem.step (switching capablePlatform))
          [.insmod 0 0x5000, .user 1 (.bndmk 1 2 .bnd0)] (bootedTasks (· = 1)) =
        .ok ([.initReturned 0, .executed false false], last) := by
  have outcome : (runKernel capablePlatform
      [.insmod 0 0x5000, .contextSwitch 0 1, .user 0 (.bndmk 1 2 .bnd0)] twoTasks).map Prod.fst =
      .ok [.initReturned 0, .done, .executed false false] := by decide +kernel
  obtain ⟨values, final, ran, -⟩ := RunRules.run_of_map outcome
  obtain ⟨last, shown, seen, switched⟩ := runKernel_abstracts (views_booted (· = 1)) ran
  have switched := switched capablePlatform_capable
  have acts : schedule capablePlatform
      [.insmod 0 0x5000, .contextSwitch 0 1, .user 0 (.bndmk 1 2 .bnd0)] twoTasks =
      ([.insmod 0 0x5000, .user 1 (.bndmk 1 2 .bnd0)],
        [.initReturned 0, .executed false false]) := by decide +kernel
  rw [show bootedSystem (· = 1) = twoTasks from rfl, acts] at shown switched
  exact ⟨values, final, last, ran, shown, seen, switched⟩

theorem schedule_only_matters_switched :
    (schedule capablePlatform [.insmod 0 0x5000, .user 0 (.bndmk 1 2 .bnd0)] twoTasks).2 =
      (schedule capablePlatform [.insmod 0 0x5000, .contextSwitch 0 1, .contextSwitch 0 0,
        .user 0 (.bndmk 1 2 .bnd0)] twoTasks).2 := by
  have outcome : (runKernel capablePlatform
      [.insmod 0 0x5000, .user 0 (.bndmk 1 2 .bnd0)] twoTasks).map Prod.fst =
      .ok [.initReturned 0, .executed true true] := by decide +kernel
  have outcome' : (runKernel capablePlatform [.insmod 0 0x5000, .contextSwitch 0 1,
      .contextSwitch 0 0, .user 0 (.bndmk 1 2 .bnd0)] twoTasks).map Prod.fst =
      .ok [.initReturned 0, .done, .done, .executed true true] := by decide +kernel
  obtain ⟨values, final, ran, -⟩ := RunRules.run_of_map outcome
  obtain ⟨values', final', ran', -⟩ := RunRules.run_of_map outcome'
  have same : (schedule capablePlatform
      [.insmod 0 0x5000, .user 0 (.bndmk 1 2 .bnd0)] twoTasks).1 =
      (schedule capablePlatform [.insmod 0 0x5000, .contextSwitch 0 1, .contextSwitch 0 0,
        .user 0 (.bndmk 1 2 .bnd0)] twoTasks).1 := by decide +kernel
  exact (schedule_only_matters (views_booted (· = 1)) (views_booted (· = 1)) same ran ran').1

/-! Which tasks have MPX on -/

/-- BNDCFGU of every task as the actions and what they show tell it: a switch of the module reaches
the task that makes it, and a new task takes after the task that creates it. -/
def configAfter (config : Nat → Option Word) : TaskEvent × KernelValue → Nat → Option Word
  | (.insmod task _, .initReturned 0) => Function.update config task (some 3)
  | (.rmmod task _, .cleanedUp) => Function.update config task (some 0)
  | (.create task child, _) => Function.update config child (config task)
  | _ => config

def Configured (config : Nat → Option Word) (tasks : TaskSystem) : Prop :=
  ∀ number, config number = (tasks.owned number).map MpxState.bndcfgu

section Configurations

variable {platform : Platform} {tasks next : TaskSystem} {config : Nat → Option Word}
  {value : KernelValue}

theorem configured_update {task : Nat} {registers : MpxState} {setting : Option Word}
    (configured : Configured config tasks) (sets : setting = some registers.bndcfgu) :
    Configured (Function.update config task setting)
      { tasks with owned := Function.update tasks.owned task (some registers) } := by
  intro number
  by_cases own : number = task
  · subst number
    simp only [Function.update_self, Option.map_some, sets]
  · simp only [Function.update_of_ne own]
    exact configured number

theorem insmod_configured (capable : Capable platform) {task : Nat} {buffer : Word}
    (configured : Configured config tasks)
    (stepped : taskStep platform (.insmod task buffer) tasks = .ok (value, next)) :
    Configured (configAfter config (.insmod task buffer, value)) next := by
  simp only [TaskSystem.step, TaskSystem.load, Simplexkm.simplexkm] at stepped
  cases owns : tasks.owned task with
  | none => simp [owns] at stepped
  | some registers =>
      cases kept : tasks.loaded with
      | some result =>
          simp only [owns, kept, Except.ok.injEq, Prod.mk.injEq] at stepped
          obtain ⟨rfl, rfl⟩ := stepped
          exact configured
      | none =>
          obtain ⟨image, printed, enabled⟩ :=
            Simplexkm.enableInit_ok capable buffer (tasks.machine registers)
          simp only [owns, kept, enabled, Except.ok.injEq, Prod.mk.injEq] at stepped
          obtain ⟨rfl, rfl⟩ := stepped
          exact configured_update configured rfl

theorem rmmod_configured (capable : Capable platform) {task : Nat} {buffer : Word}
    (configured : Configured config tasks)
    (stepped : taskStep platform (.rmmod task buffer) tasks = .ok (value, next)) :
    Configured (configAfter config (.rmmod task buffer, value)) next := by
  simp only [TaskSystem.step, TaskSystem.unload, Simplexkm.simplexkm] at stepped
  cases owns : tasks.owned task with
  | none => simp [owns] at stepped
  | some registers =>
      cases kept : tasks.loaded with
      | none =>
          simp only [owns, kept, Except.ok.injEq, Prod.mk.injEq] at stepped
          obtain ⟨rfl, rfl⟩ := stepped
          exact configured
      | some result =>
          obtain ⟨image, printed, disabled⟩ :=
            Simplexkm.enableCleanup_ok capable buffer (tasks.machine registers)
          simp only [owns, kept, disabled, Except.ok.injEq, Prod.mk.injEq] at stepped
          obtain ⟨rfl, rfl⟩ := stepped
          exact configured_update configured rfl

theorem create_configured {task child : Nat} (configured : Configured config tasks)
    (stepped : taskStep platform (.create task child) tasks = .ok (value, next)) :
    Configured (configAfter config (.create task child, value)) next := by
  simp only [TaskSystem.step] at stepped
  cases owns : tasks.owned task with
  | none => simp [owns] at stepped
  | some registers =>
      cases free : tasks.owned child with
      | some other => simp [owns, free] at stepped
      | none =>
          simp only [owns, free, Except.ok.injEq, Prod.mk.injEq] at stepped
          obtain ⟨rfl, rfl⟩ := stepped
          refine configured_update configured ?_
          rw [configured task, owns]
          rfl

theorem user_configured {task : Nat} {instruction : UserInstruction}
    (configured : Configured config tasks)
    (stepped : taskStep platform (.user task instruction) tasks = .ok (value, next)) :
    Configured (configAfter config (.user task instruction, value)) next := by
  simp only [TaskSystem.step] at stepped
  cases owns : tasks.owned task with
  | none => simp [owns] at stepped
  | some registers =>
      simp only [owns, Except.ok.injEq, Prod.mk.injEq] at stepped
      obtain ⟨rfl, rfl⟩ := stepped
      intro number
      by_cases own : number = task
      · subst number
        simp only [configAfter, TaskSystem.resume, Function.update_self, Option.map_some,
          user_bndcfgu, configured task, owns, TaskSystem.machine]
      · simp only [configAfter, TaskSystem.resume, Function.update_of_ne own]
        exact configured number

theorem configured_step (capable : Capable platform) {action : TaskEvent}
    (configured : Configured config tasks)
    (stepped : taskStep platform action tasks = .ok (value, next)) :
    Configured (configAfter config (action, value)) next := by
  cases action with
  | insmod task buffer => exact insmod_configured capable configured stepped
  | rmmod task buffer => exact rmmod_configured capable configured stepped
  | create task child => exact create_configured configured stepped
  | user task instruction => exact user_configured configured stepped

/-- Neither the processors nor the context switches decide which tasks have MPX on. -/
theorem configuration_of_schedule (capable : Capable platform) {events : List KernelEvent}
    {system final : System} {values : List KernelValue} (views : Views system tasks)
    (ran : runKernel platform events system = .ok (values, final)) :
    let (actions, shown) := schedule platform events system
    let config := (actions.zip shown).foldl configAfter
      fun number => (tasks.owned number).map MpxState.bndcfgu
    (∀ processor current registers, final.running processor = some (current, registers) →
        config current = some registers.bndcfgu) ∧
      ∀ number saved, final.task number = some ⟨false, saved⟩ →
        config number = some saved.bndcfgu := by
  obtain ⟨last, ranTasks, seen⟩ := (tasks_abstract (Simplexkm.simplexkm platform)).run views ran
  have configured := RunRules.run_tracks
    (fun _ _ _ _ _ before stepped => configured_step capable before stepped)
    (show Configured (fun number => (tasks.owned number).map MpxState.bndcfgu) tasks from
      fun _ => rfl) ranTasks
  constructor
  · intro processor current registers here
    rw [configured current, seen.running processor current registers here]
    rfl
  · intro number saved waits
    rw [configured number, seen.waiting number saved waits]
    rfl

end Configurations

theorem configuration_of_schedule_two :
    ∃ values final, runKernel capablePlatform
        [.insmod 0 0x5000, .create 0 2, .contextSwitch 0 1, .rmmod 0 0x5000] twoTasks =
          .ok (values, final) ∧
      ∀ number saved, final.task number = some ⟨false, saved⟩ →
        [((.insmod 0 0x5000, .initReturned 0) : TaskEvent × KernelValue), (.create 0 2, .done),
            (.rmmod 1 0x5000, .cleanedUp)].foldl configAfter
          (fun number => ((bootedTasks (· = 1)).owned number).map MpxState.bndcfgu) number =
          some saved.bndcfgu := by
  have outcome : (runKernel capablePlatform
      [.insmod 0 0x5000, .create 0 2, .contextSwitch 0 1, .rmmod 0 0x5000] twoTasks).map Prod.fst =
      .ok [.initReturned 0, .done, .done, .cleanedUp] := by decide +kernel
  obtain ⟨values, final, ran, -⟩ := RunRules.run_of_map outcome
  have acts : schedule capablePlatform
      [.insmod 0 0x5000, .create 0 2, .contextSwitch 0 1, .rmmod 0 0x5000] twoTasks =
      ([.insmod 0 0x5000, .create 0 2, .rmmod 1 0x5000],
        [.initReturned 0, .done, .cleanedUp]) := by decide +kernel
  have follows := configuration_of_schedule capablePlatform_capable (views_booted (· = 1)) ran
  rw [show bootedSystem (· = 1) = twoTasks from rfl, acts] at follows
  exact ⟨values, final, ran, follows.2⟩

end SimplexMpx
