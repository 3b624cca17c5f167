import SimplexMpx.KmodCore
import SimplexMpx.Startup
import SimplexMpx.Calls

/-!
What loading and unloading the kernel module does to the tasks of the system. Each switches the
registers of one processor, so it reaches the calling task and the tasks created from it later.
-/

namespace SimplexMpx

open ByteMemory

namespace Simplexkm

theorem noMpxSupport_cases (platform : Platform) :
    checkMpxSupport platform = true ∧ noMpxSupport platform =
        (false, [info "Checking MPX support.\n", info "MPX supported!\n"]) ∨
      ∃ text, checkMpxSupport platform = false ∧
        noMpxSupport platform = (true, [info "Checking MPX support.\n", err text]) := by
  simp only [noMpxSupport, checkNoMpxSupport, checkMpxSupport, checkMpxSupportQueries, getCpuidMax,
    cpuid, cpuidCount, bind_assoc, pure_bind]
  by_cases level : (platform.cpuid 0 platform.ecx).eax < 13
  · rw [if_pos level, if_pos level]
    exact Or.inr ⟨_, rfl, rfl⟩
  rw [if_neg level, if_neg level]
  by_cases xsave : (platform.cpuid 0 0).ecx &&& bitXSAVE = 0
  · rw [if_pos xsave, if_pos xsave]
    exact Or.inr ⟨_, rfl, rfl⟩
  rw [if_neg xsave, if_neg xsave]
  by_cases osxsave : (platform.cpuid 0 0).ecx &&& bitOSXSAVE = 0
  · rw [if_pos osxsave, if_pos osxsave]
    exact Or.inr ⟨_, rfl, rfl⟩
  rw [if_neg osxsave, if_neg osxsave]
  by_cases mpx : (platform.cpuid 7 0).ebx &&& bitMPX = 0
  · rw [if_pos mpx, if_pos mpx]
    exact Or.inr ⟨_, rfl, rfl⟩
  rw [if_neg mpx, if_neg mpx]
  by_cases bndregs : (platform.cpuid 13 0).eax &&& bitBNDREGS = 0
  · rw [if_pos bndregs, if_pos bndregs]
    exact Or.inr ⟨_, rfl, rfl⟩
  rw [if_neg bndregs, if_neg bndregs]
  by_cases bndcsr : (platform.cpuid 13 0).eax &&& bitBNDCSR = 0
  · rw [if_pos bndcsr, if_pos bndcsr]
    exact Or.inr ⟨_, rfl, rfl⟩
  · rw [if_neg bndcsr, if_neg bndcsr]
    exact Or.inl ⟨rfl, rfl⟩

def supportedMessages : List LogLine :=
  [info "Checking MPX support.\n", info "MPX supported!\n"]

theorem noMpxSupport_capable {platform : Platform} (capable : Capable platform) :
    noMpxSupport platform = (false, supportedMessages) := by
  have detected := (checkMpxSupport_iff platform).mpr capable.detected
  rcases noMpxSupport_cases platform with ⟨-, told⟩ | ⟨text, unsupported, -⟩
  · exact told
  · simp [detected] at unsupported

theorem enableInit_switches {platform : Platform} (capable : Capable platform) (buffer : Word)
    (machine : Machine) :
    enableInit platform buffer machine =
      .ok (0, machine.configured platform 3 (enableImage buffer (memsetBuffer buffer machine)),
        supportedMessages ++ enableMessages) := by
  simp only [enableInit, noMpxSupport_capable capable, enableMpx,
    enableMpx_ok capable.osxsave capable.bndcsr]
  rfl

theorem enableCleanup_switches {platform : Platform} (capable : Capable platform) (buffer : Word)
    (machine : Machine) :
    enableCleanup platform buffer machine =
      .ok (machine.configured platform 0 (disableImage buffer (memsetBuffer buffer machine)),
        supportedMessages ++ disableMessages) := by
  simp only [enableCleanup, noMpxSupport_capable capable, disableMpx,
    disableMpx_ok capable.osxsave capable.bndcsr]
  rfl

theorem enableInit_ok {platform : Platform} (capable : Capable platform) (buffer : Word)
    (machine : Machine) :
    ∃ image printed, enableInit platform buffer machine =
      .ok (0, machine.configured platform 3 image, printed) :=
  ⟨_, _, enableInit_switches capable buffer machine⟩

theorem enableCleanup_ok {platform : Platform} (capable : Capable platform) (buffer : Word)
    (machine : Machine) :
    ∃ image printed, enableCleanup platform buffer machine =
      .ok (machine.configured platform 0 image, printed) :=
  ⟨_, _, enableCleanup_switches capable buffer machine⟩

end Simplexkm

/-! What one event does -/

section Steps

variable {platform : Platform} {system next : System} {value : KernelValue}

theorem insmod_cases {processor : Nat} {buffer : Word}
    (stepped : kernelStep platform (.insmod processor buffer) system = .ok (value, next)) :
    system.loaded ≠ none ∧ value = .refused ∧ next = system ∨
      ∃ current registers result machine printed, system.loaded = none ∧
        Simplexkm.enableInit platform buffer (system.machine registers) =
          .ok (result, machine, printed) ∧
        value = .initReturned result ∧
        next = { system.resume processor current machine with
          log := system.log ++ printed
          loaded := if result < 0 then none else some result } := by
  simp only [System.step, System.load, Simplexkm.simplexkm] at stepped
  cases here : system.running processor with
  | none => simp [here] at stepped
  | some current =>
      cases kept : system.loaded with
      | some result =>
          simp only [here, kept, Except.ok.injEq, Prod.mk.injEq] at stepped
          exact Or.inl ⟨Option.some_ne_none result, stepped.1.symm, stepped.2.symm⟩
      | none =>
          cases ran : Simplexkm.enableInit platform buffer (system.machine current.2) with
          | error fault => simp [here, kept, ran] at stepped
          | ok returned =>
              simp only [here, kept, ran, Except.ok.injEq, Prod.mk.injEq] at stepped
              exact Or.inr ⟨current.1, current.2, returned.1, returned.2.1, returned.2.2, rfl, ran,
                stepped.1.symm, stepped.2.symm⟩

theorem rmmod_cases {processor : Nat} {buffer : Word}
    (stepped : kernelStep platform (.rmmod processor buffer) system = .ok (value, next)) :
    system.loaded = none ∧ value = .refused ∧ next = system ∨
      ∃ current registers machine printed, system.loaded ≠ none ∧
        Simplexkm.enableCleanup platform buffer (system.machine registers) = .ok (machine, printed) ∧
        value = .cleanedUp ∧
        next = { system.resume processor current machine with
          log := system.log ++ printed
          loaded := none } := by
  simp only [System.step, System.unload, Simplexkm.simplexkm] at stepped
  cases here : system.running processor with
  | none => simp [here] at stepped
  | some current =>
      cases kept : system.loaded with
      | none =>
          simp only [here, kept, Except.ok.injEq, Prod.mk.injEq] at stepped
          exact Or.inl ⟨rfl, stepped.1.symm, stepped.2.symm⟩
      | some result =>
          cases ran : Simplexkm.enableCleanup platform buffer (system.machine current.2) with
          | error fault => simp [here, kept, ran] at stepped
          | ok returned =>
              simp only [here, kept, ran, Except.ok.injEq, Prod.mk.injEq] at stepped
              exact Or.inr ⟨current.1, current.2, returned.1, returned.2, Option.some_ne_none result,
                ran, stepped.1.symm, stepped.2.symm⟩

theorem load_ok (capable : Capable platform) {processor : Nat} {buffer : Word}
    (stepped : kernelStep platform (.insmod processor buffer) system = .ok (value, next)) :
    value = .refused ∧ next = system ∨
      value = .initReturned 0 ∧ system.loaded = none ∧ ∃ current machine,
        machine.mpx.bndcfgu = 3 ∧
        next.task = system.task ∧
        next.running = (system.resume processor current machine).running := by
  rcases insmod_cases stepped with
    ⟨_, refused, same⟩ | ⟨current, registers, result, machine, printed, free, ran, rfl, rfl⟩
  · exact Or.inl ⟨refused, same⟩
  · obtain ⟨image, shown, enabled⟩ :=
      Simplexkm.enableInit_ok capable buffer (system.machine registers)
    rw [ran] at enabled
    obtain ⟨rfl, configured⟩ := Prod.mk.inj (Except.ok.inj enabled)
    obtain ⟨rfl, -⟩ := Prod.mk.inj configured
    exact Or.inr ⟨rfl, free, current, _, rfl, rfl, rfl⟩

theorem unload_ok (capable : Capable platform) {processor : Nat} {buffer : Word}
    (stepped : kernelStep platform (.rmmod processor buffer) system = .ok (value, next)) :
    value = .refused ∧ next = system ∨
      value = .cleanedUp ∧ system.loaded ≠ none ∧ ∃ current machine,
        machine.mpx.bndcfgu = 0 ∧
        next.task = system.task ∧
        next.running = (system.resume processor current machine).running := by
  rcases rmmod_cases stepped with
    ⟨_, refused, same⟩ | ⟨current, registers, machine, printed, held, ran, rfl, rfl⟩
  · exact Or.inl ⟨refused, same⟩
  · obtain ⟨image, shown, disabled⟩ :=
      Simplexkm.enableCleanup_ok capable buffer (system.machine registers)
    rw [ran] at disabled
    obtain ⟨rfl, -⟩ := Prod.mk.inj (Except.ok.inj disabled)
    exact Or.inr ⟨rfl, held, current, _, rfl, rfl, rfl⟩

theorem create_ok {loadable : KernelModule} {processor child : Nat}
    (stepped : System.step loadable (.create processor child) system = .ok (value, next)) :
    ∃ current registers, system.running processor = some (current, registers) ∧
      system.task child = none ∧ next = system.spawn child registers := by
  simp only [System.step] at stepped
  cases here : system.running processor with
  | none => simp [here] at stepped
  | some current =>
      cases free : system.task child with
      | some task => simp [here, free] at stepped
      | none =>
          simp only [here, free, Except.ok.injEq, Prod.mk.injEq] at stepped
          exact ⟨current.1, current.2, rfl, rfl, stepped.2.symm⟩

theorem contextSwitch_ok {loadable : KernelModule} {processor other : Nat}
    (stepped : System.step loadable (.contextSwitch processor other) system = .ok (value, next)) :
    ∃ current registers restored, system.running processor = some (current, registers) ∧
      system.task other = some ⟨false, restored⟩ ∧
      next = system.switch processor current other registers restored := by
  simp only [System.step] at stepped
  cases here : system.running processor with
  | none => simp [here] at stepped
  | some current =>
      cases waiting : system.task other with
      | none => simp [here, waiting] at stepped
      | some task =>
          obtain ⟨onCpu, restored⟩ := task
          cases onCpu with
          | true => simp [here, waiting] at stepped
          | false =>
              simp only [here, waiting, Except.ok.injEq, Prod.mk.injEq] at stepped
              exact ⟨current.1, current.2, restored, rfl, rfl, stepped.2.symm⟩

theorem user_ok {loadable : KernelModule} {processor : Nat} {instruction : UserInstruction}
    (stepped : System.step loadable (.user processor instruction) system = .ok (value, next)) :
    ∃ current registers, system.running processor = some (current, registers) ∧
      value = .executed registers.en registers.bndpreserve ∧
      next = system.resume processor current (instruction.execute (system.machine registers)) := by
  simp only [System.step] at stepped
  cases here : system.running processor with
  | none => simp [here] at stepped
  | some current =>
      simp only [here, Except.ok.injEq, Prod.mk.injEq] at stepped
      exact ⟨current.1, current.2, rfl, stepped.1.symm, stepped.2.symm⟩

theorem user_bndcfgu (instruction : UserInstruction) (machine : Machine) :
    (instruction.execute machine).mpx.bndcfgu = machine.mpx.bndcfgu := by
  cases instruction with
  | bndmk base index bnd => exact Machine.bndmk_bndcfgu ..
  | bndmovStore bnd address => simp [UserInstruction.execute]
  | bndmovLoad address bnd =>
      simp only [UserInstruction.execute]
      split <;> rfl
  | bndmov src dst =>
      simp only [UserInstruction.execute]
      split <;> rfl

end Steps

/-! What holds of every task -/

/-- Of the registers of a running task, of the saved state of a waiting one. -/
structure AllTasks (Property : MpxState → Prop) (system : System) : Prop where
  running : ∀ processor current registers,
    system.running processor = some (current, registers) → Property registers
  waiting : ∀ number saved, system.task number = some ⟨false, saved⟩ → Property saved

structure OtherTasks (Property : MpxState → Prop) (processor : Nat) (system : System) : Prop where
  running : ∀ other current registers, other ≠ processor →
    system.running other = some (current, registers) → Property registers
  waiting : ∀ number saved, system.task number = some ⟨false, saved⟩ → Property saved

theorem AllTasks.others {Property : MpxState → Prop} {system : System}
    (all : AllTasks Property system) (processor : Nat) : OtherTasks Property processor system :=
  ⟨fun other current registers _ here => all.running other current registers here, all.waiting⟩

/-- A property of BNDCFGU alone that a switch of the module establishes where the event is one. -/
structure Carried (Property : MpxState → Prop) (event : KernelEvent) : Prop where
  config : ∀ mpx mpx' : MpxState, mpx'.bndcfgu = mpx.bndcfgu → Property mpx → Property mpx'
  loads : ∀ processor buffer, event = .insmod processor buffer →
    ∀ mpx : MpxState, mpx.bndcfgu = 3 → Property mpx
  unloads : ∀ processor buffer, event = .rmmod processor buffer →
    ∀ mpx : MpxState, mpx.bndcfgu = 0 → Property mpx

section Invariants

variable {platform : Platform} {system next : System} {value : KernelValue}
variable {Property : MpxState → Prop}

theorem allTasks_resume {processor current : Nat} {machine : Machine}
    (others : OtherTasks Property processor system) (kept : Property machine.mpx)
    (same : next.task = system.task)
    (resumed : next.running = (system.resume processor current machine).running) :
    AllTasks Property next := by
  constructor
  · intro other number registers here
    rw [resumed] at here
    by_cases own : other = processor
    · subst other
      simp only [System.resume, Function.update_self, Option.some.injEq, Prod.mk.injEq] at here
      exact here.2 ▸ kept
    · simp only [System.resume, Function.update_of_ne own] at here
      exact others.running other number registers own here
  · intro number saved waits
    rw [same] at waits
    exact others.waiting number saved waits

theorem allTasks_spawn {child : Nat} {registers : MpxState} (all : AllTasks Property system)
    (copied : Property registers) : AllTasks Property (system.spawn child registers) := by
  refine ⟨all.running, ?_⟩
  intro number saved waits
  by_cases new : number = child
  · subst number
    simp only [System.spawn, Function.update_self, Option.some.injEq, Task.mk.injEq] at waits
    exact waits.2 ▸ copied
  · simp only [System.spawn, Function.update_of_ne new] at waits
    exact all.waiting number saved waits

theorem allTasks_switch {processor current other : Nat} {registers restored : MpxState}
    (all : AllTasks Property system) (left : Property registers) (entered : Property restored) :
    AllTasks Property (system.switch processor current other registers restored) := by
  constructor
  · intro processor' number registers' there
    by_cases own : processor' = processor
    · subst processor'
      simp only [System.switch, Function.update_self, Option.some.injEq, Prod.mk.injEq] at there
      exact there.2 ▸ entered
    · simp only [System.switch, Function.update_of_ne own] at there
      exact all.running processor' number registers' there
  · intro number saved waits
    by_cases enters : number = other
    · subst number
      simp [System.switch] at waits
    · by_cases leaves : number = current
      · subst number
        simp only [System.switch, Function.update_of_ne enters, Function.update_self,
          Option.some.injEq, Task.mk.injEq] at waits
        exact waits.2 ▸ left
      · simp only [System.switch, Function.update_of_ne enters, Function.update_of_ne leaves]
          at waits
        exact all.waiting number saved waits

/-- A new task copies the registers of its creator, and a switch moves states around: neither
makes a state that no task had before. -/
theorem allTasks_step (capable : Capable platform) {event : KernelEvent}
    (carried : Carried Property event) (all : AllTasks Property system)
    (stepped : kernelStep platform event system = .ok (value, next)) : AllTasks Property next := by
  cases event with
  | insmod processor buffer =>
      rcases load_ok capable stepped with ⟨_, rfl⟩ | ⟨_, _, current, machine, config, same, resumed⟩
      · exact all
      · exact allTasks_resume (all.others processor) (carried.loads processor buffer rfl _ config)
          same resumed
  | rmmod processor buffer =>
      rcases unload_ok capable stepped with ⟨_, rfl⟩ | ⟨_, _, current, machine, config, same, resumed⟩
      · exact all
      · exact allTasks_resume (all.others processor) (carried.unloads processor buffer rfl _ config)
          same resumed
  | create processor child =>
      obtain ⟨current, registers, here, _, rfl⟩ := create_ok stepped
      exact allTasks_spawn all (all.running processor current registers here)
  | contextSwitch processor other =>
      obtain ⟨current, registers, restored, here, waiting, rfl⟩ := contextSwitch_ok stepped
      exact allTasks_switch all (all.running processor current registers here)
        (all.waiting other restored waiting)
  | user processor instruction =>
      obtain ⟨current, registers, here, _, rfl⟩ := user_ok stepped
      exact allTasks_resume (all.others processor)
        (carried.config registers _ (user_bndcfgu instruction _)
          (all.running processor current registers here)) rfl rfl

theorem enabled_of_three {mpx : MpxState} (config : mpx.bndcfgu = 3) : mpx.Enabled := by
  simp only [MpxState.Enabled, MpxState.en, MpxState.bndpreserve, config]
  decide

theorem off_of_zero {mpx : MpxState} (config : mpx.bndcfgu = 0) : mpx.en = false := by
  simp only [MpxState.en, config]
  decide

def KernelEvent.loads : KernelEvent → Bool
  | .insmod _ _ => true
  | _ => false

def KernelEvent.unloads : KernelEvent → Bool
  | .rmmod _ _ => true
  | _ => false

theorem enabled_carried {event : KernelEvent} (kept : event.unloads = false) :
    Carried MpxState.Enabled event where
  config _ _ same enabled := enabled_of_bndcfgu_eq same enabled
  loads _ _ _ _ config := enabled_of_three config
  unloads _ _ shape _ _ := by simp [shape, KernelEvent.unloads] at kept

theorem off_carried {event : KernelEvent} (idle : event.loads = false) :
    Carried (fun mpx => mpx.en = false) event where
  config mpx mpx' same off := by rwa [MpxState.en, same]
  loads _ _ shape _ _ := by simp [shape, KernelEvent.loads] at idle
  unloads _ _ _ _ config := off_of_zero config

end Invariants

/-! Whole runs -/

/-- What the module is for: while it is loaded every user instruction is executed with MPX on and
the registers preserved, and after it no task has MPX on. -/
structure GloballyEnabled (platform : Platform) (events : List KernelEvent) (system : System) :
    Prop where
  whileLoaded : ∀ before loader buffer mid processor instruction after values final,
    events = before ++ .insmod loader buffer :: (mid ++ .user processor instruction :: after) →
    (∀ event ∈ mid, event.unloads = false) →
    runKernel platform events system = .ok (values, final) →
    values[before.length]? = some (.initReturned 0) →
    values[before.length + 1 + mid.length]? = some (.executed true true)
  afterCleanup : ∀ before unloader buffer after later values reached,
    events = before ++ .rmmod unloader buffer :: (after ++ later) →
    (∀ event ∈ after, event.loads = false) →
    runKernel platform (before ++ .rmmod unloader buffer :: after) system =
      .ok (values, reached) →
    values[before.length]? = some .cleanedUp → AllTasks (fun mpx => mpx.en = false) reached

/-- The module is switched while all other tasks are already as the switch is to leave them. -/
def SwitchCovered : KernelEvent → System → Prop
  | .insmod processor _, system =>
      system.loaded = none → OtherTasks MpxState.Enabled processor system
  | .rmmod processor _, system =>
      system.loaded ≠ none → OtherTasks (fun mpx => mpx.en = false) processor system
  | _, _ => True

section Runs

variable {platform : Platform} {system next : System} {value : KernelValue}

theorem loaded_allEnabled (capable : Capable platform) {processor : Nat} {buffer : Word}
    (covered : SwitchCovered (.insmod processor buffer) system)
    (stepped : kernelStep platform (.insmod processor buffer) system = .ok (value, next))
    (returned : value = .initReturned 0) : AllTasks MpxState.Enabled next := by
  rcases load_ok capable stepped with
    ⟨refused, _⟩ | ⟨_, free, current, machine, config, same, resumed⟩
  · rw [refused] at returned
    contradiction
  · exact allTasks_resume (covered free) (enabled_of_three config) same resumed

theorem unloaded_allOff (capable : Capable platform) {processor : Nat} {buffer : Word}
    (covered : SwitchCovered (.rmmod processor buffer) system)
    (stepped : kernelStep platform (.rmmod processor buffer) system = .ok (value, next))
    (returned : value = .cleanedUp) : AllTasks (fun mpx => mpx.en = false) next := by
  rcases unload_ok capable stepped with
    ⟨refused, _⟩ | ⟨_, held, current, machine, config, same, resumed⟩
  · rw [refused] at returned
    contradiction
  · exact allTasks_resume (covered held) (off_of_zero config) same resumed

theorem user_executed (all : AllTasks MpxState.Enabled system) {processor : Nat}
    {instruction : UserInstruction}
    (stepped : kernelStep platform (.user processor instruction) system = .ok (value, next)) :
    value = .executed true true := by
  obtain ⟨current, registers, here, rfl, _⟩ := user_ok stepped
  obtain ⟨on, preserve⟩ := all.running processor current registers here
  rw [on, preserve]

theorem globallyEnabled_of_covered (capable : Capable platform) {events : List KernelEvent}
    (covered : RunRules.Along (kernelStep platform) SwitchCovered events system) :
    GloballyEnabled platform events system := by
  constructor
  · intro before loader buffer mid processor instruction after values final shape kept ran returned
    subst shape
    obtain ⟨front, middle, first, started, back, ranBefore, began, continued, rfl, loadedAt⟩ :=
      RunRules.run_at ran
    obtain ⟨_, settled, shown, _, _, ranMid, executed, _, _, shownAt⟩ := RunRules.run_at continued
    have condition := (RunRules.along_append covered ranBefore).2.1
    have result : first = .initReturned 0 := Option.some.inj (loadedAt.symm.trans returned)
    have all := loaded_allEnabled capable condition began result
    have still := RunRules.run_invariant
      (fun _ _ _ _ going enabled stepped =>
        allTasks_step capable (enabled_carried going) enabled stepped)
      (RunRules.along_of_forall (fun event member _ => kept event member) started) all ranMid
    have position : before.length + 1 + mid.length - front.length = mid.length + 1 := by
      rw [RunRules.run_length ranBefore]
      omega
    rw [List.getElem?_append_right (by omega), position, List.getElem?_cons_succ, shownAt,
      user_executed still executed]
  · intro before unloader buffer after later values reached shape idle ran returned
    subst shape
    obtain ⟨_, _, first, stopped, _, ranBefore, ended, continued, _, unloadedAt⟩ :=
      RunRules.run_at ran
    have condition := (RunRules.along_append covered ranBefore).2.1
    have result : first = .cleanedUp := Option.some.inj (unloadedAt.symm.trans returned)
    exact RunRules.run_invariant
      (fun _ _ _ _ still off stepped => allTasks_step capable (off_carried still) off stepped)
      (RunRules.along_of_forall (fun event member _ => idle event member) stopped)
      (unloaded_allOff capable condition ended result) continued

end Runs

def bootedSystem (others : Nat → Bool) : System where
  task number :=
    if number = 0 then some { onCpu := true, saved := blankMachine.mpx }
    else if others number then some { onCpu := false, saved := blankMachine.mpx }
    else none
  running processor := if processor = 0 then some (0, blankMachine.mpx) else none
  mem := blankMachine.mem
  log := []
  loaded := none

def soleTask : System := bootedSystem fun _ => false

def twoTasks : System := bootedSystem (· = 1)

/-- No task waits, and no other processor runs one. -/
structure Alone (system : System) : Prop where
  waiting : ∀ number saved, system.task number ≠ some ⟨false, saved⟩
  running : ∀ processor, processor ≠ 0 → system.running processor = none

section Alone

variable {system next : System} {value : KernelValue}

theorem Alone.others (alone : Alone system) (Property : MpxState → Prop) :
    OtherTasks Property 0 system := by
  constructor
  · intro other current registers apart here
    rw [alone.running other apart] at here
    contradiction
  · intro number saved waits
    exact absurd waits (alone.waiting number saved)

theorem Alone.resumed (alone : Alone system) {current : Nat} {machine : Machine}
    (same : next.task = system.task)
    (resumed : next.running = (system.resume 0 current machine).running) : Alone next := by
  constructor
  · rw [same]
    exact alone.waiting
  · intro processor apart
    rw [resumed]
    simp only [System.resume, Function.update_of_ne apart]
    exact alone.running processor apart

theorem Alone.insmod (alone : Alone system) {buffer : Word}
    (stepped : kernelStep capablePlatform (.insmod 0 buffer) system = .ok (value, next)) :
    Alone next := by
  rcases load_ok capablePlatform_capable stepped with
    ⟨_, rfl⟩ | ⟨_, _, current, machine, _, same, resumed⟩
  · exact alone
  · exact alone.resumed same resumed

theorem Alone.rmmod (alone : Alone system) {buffer : Word}
    (stepped : kernelStep capablePlatform (.rmmod 0 buffer) system = .ok (value, next)) :
    Alone next := by
  rcases unload_ok capablePlatform_capable stepped with
    ⟨_, rfl⟩ | ⟨_, _, current, machine, _, same, resumed⟩
  · exact alone
  · exact alone.resumed same resumed

theorem Alone.user (alone : Alone system) {instruction : UserInstruction}
    (stepped : kernelStep capablePlatform (.user 0 instruction) system = .ok (value, next)) :
    Alone next := by
  obtain ⟨current, registers, _, _, rfl⟩ := user_ok stepped
  exact alone.resumed rfl rfl

end Alone

/-- The sole task loads the module, unloads it and loads it again for the task it creates then. -/
theorem globallyEnabled_of_load_before_create :
    GloballyEnabled capablePlatform
      [.insmod 0 0x5000, .user 0 (.bndmk 1 2 .bnd0), .rmmod 0 0x5000, .insmod 0 0x5000,
        .create 0 1, .contextSwitch 0 1, .user 0 (.bndmk 1 2 .bnd0)] soleTask := by
  apply globallyEnabled_of_covered capablePlatform_capable
  have booted : Alone soleTask := by
    constructor
    · intro number saved waits
      simp only [soleTask, bootedSystem] at waits
      split at waits <;> simp at waits
    · intro processor apart
      simp [soleTask, bootedSystem, apart]
  refine ⟨fun _ => booted.others _, fun _ _ loaded => ⟨trivial, fun _ _ used => ?_⟩⟩
  have alone := (booted.insmod loaded).user used
  refine ⟨fun _ => alone.others _, fun _ _ unloaded => ?_⟩
  refine ⟨fun _ => (alone.rmmod unloaded).others _, fun _ _ _ => ?_⟩
  exact ⟨trivial, fun _ _ _ => ⟨trivial, fun _ _ _ => ⟨trivial, fun _ _ _ => trivial⟩⟩⟩

/-- The task that does not load the module keeps MPX off; a child of the loading task keeps it on
when the module is gone. -/
theorem not_globallyEnabled :
    ¬GloballyEnabled capablePlatform
        [.insmod 0 0x5000, .contextSwitch 0 1, .user 0 (.bndmk 1 2 .bnd0)] twoTasks ∧
      ¬GloballyEnabled capablePlatform [.insmod 0 0x5000, .create 0 1, .rmmod 0 0x5000] soleTask := by
  constructor
  · intro enabled
    have outcome : (runKernel capablePlatform
        [.insmod 0 0x5000, .contextSwitch 0 1, .user 0 (.bndmk 1 2 .bnd0)] twoTasks).map Prod.fst =
        .ok [.initReturned 0, .done, .executed false false] := by decide +kernel
    obtain ⟨values, final, ran, shown⟩ := RunRules.run_of_map outcome
    have shown' : values = [.initReturned 0, .done, .executed false false] := shown
    subst shown'
    have on := enabled.whileLoaded [] 0 0x5000 [.contextSwitch 0 1] 0 (.bndmk 1 2 .bnd0) [] _ final
      rfl (by simp [KernelEvent.unloads]) ran rfl
    exact absurd on (by decide)
  · intro enabled
    have outcome : (runKernel capablePlatform
        [.insmod 0 0x5000, .create 0 1, .rmmod 0 0x5000] soleTask).map (fun result =>
          (result.1, (result.2.task 1).map fun task => (task.onCpu, task.saved.en))) =
        .ok ([.initReturned 0, .done, .cleanedUp], some (false, true)) := by decide +kernel
    obtain ⟨values, final, ran, shown⟩ := RunRules.run_of_map outcome
    simp only [Prod.mk.injEq] at shown
    obtain ⟨rfl, left⟩ := shown
    have off := enabled.afterCleanup [.insmod 0 0x5000, .create 0 1] 0 0x5000 [] [] _ final rfl
      (by simp) ran rfl
    cases waits : final.task 1 with
    | none => simp [waits] at left
    | some task =>
        obtain ⟨onCpu, saved⟩ := task
        simp only [waits, Option.map_some, Option.some.injEq, Prod.mk.injEq] at left
        obtain ⟨rfl, on⟩ := left
        rw [off.waiting 1 saved waits] at on
        contradiction

end SimplexMpx
