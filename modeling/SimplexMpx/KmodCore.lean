import SimplexMpx.RegisterCore

/-!
The kernel module of `simplexkm.c` in a kernel that runs tasks on processors. A processor holds the
extended state of the task it runs; a context switch saves it and restores the next task's, and a
new task starts with a copy. Loading and unloading run on the processor of the calling task.
-/

namespace SimplexMpx

open ByteMemory

inductive LogLevel
  | info
  | err
deriving DecidableEq, Repr

structure LogLine where
  level : LogLevel
  text : String
deriving DecidableEq, Repr

/-! `simplexkm.c` -/

namespace Simplexkm

def info (text : String) : LogLine := { level := .info, text := text }

def err (text : String) : LogLine := { level := .err, text := text }

/-- The result, and the messages printed on the way to it. -/
def checkNoMpxSupport (platform : Platform) : CpuidM (Bool × List LogLine) := do
  let maxLevel ← getCpuidMax platform 0
  let checking := info "Checking MPX support.\n"
  if maxLevel < 13 then
    return (true, [checking, err "No required CPUID level support.\n"])
  let regs ← cpuidCount platform 0 0
  if regs.ecx &&& bitXSAVE = 0 then
    return (true, [checking, err "No XSAVE support.\n"])
  if regs.ecx &&& bitOSXSAVE = 0 then
    return (true, [checking, err "No OSXSAVE support.\n"])
  let regs ← cpuidCount platform 7 0
  if regs.ebx &&& bitMPX = 0 then
    return (true, [checking, err "No MPX support.\n"])
  let regs ← cpuidCount platform 13 0
  if regs.eax &&& bitBNDREGS = 0 then
    return (true, [checking, err "No BNDREGS support.\n"])
  if regs.eax &&& bitBNDCSR = 0 then
    return (true, [checking, err "No BNDCSR support.\n"])
  return (false, [checking, info "MPX supported!\n"])

def noMpxSupport (platform : Platform) : Bool × List LogLine :=
  ((checkNoMpxSupport platform).run []).1

def enableMessages : List LogLine :=
  [info "Initalizing MPX...\n", info ("  Enable bit: " ++ toString enable.toNat ++ "\n"),
    info ("  BNDPRESERVE bit: " ++ toString bndpreserve.toNat ++ "\n")]

def disableMessages : List LogLine := [info "Disabling MPX...\n"]

/-- The statements of `enable_mpx` are those of `mpxrt.c`, with three messages in between. -/
def enableMpx (platform : Platform) (buffer : Word) (machine : Machine) :
    Except Fault (Machine × List LogLine) := do
  let machine ← SimplexMpx.enableMpx platform buffer machine
  return (machine, enableMessages)

def disableMpx (platform : Platform) (buffer : Word) (machine : Machine) :
    Except Fault (Machine × List LogLine) := do
  let machine ← SimplexMpx.disableMpx platform buffer machine
  return (machine, disableMessages)

def enableInit (platform : Platform) (buffer : Word) (machine : Machine) :
    Except Fault (Int × Machine × List LogLine) := do
  let (unsupported, checked) := noMpxSupport platform
  if unsupported then
    return (1, machine, checked)
  let (machine, enabled) ← enableMpx platform buffer machine
  return (0, machine, checked ++ enabled)

def enableCleanup (platform : Platform) (buffer : Word) (machine : Machine) :
    Except Fault (Machine × List LogLine) := do
  let (unsupported, checked) := noMpxSupport platform
  if unsupported then
    return (machine, checked)
  let (machine, disabled) ← disableMpx platform buffer machine
  return (machine, checked ++ disabled)

end Simplexkm

/-! The kernel around it -/

/-- What a module gives to `module_init` and `module_exit`. -/
structure KernelModule where
  init : Word → Machine → Except Fault (Int × Machine × List LogLine)
  exit : Word → Machine → Except Fault (Machine × List LogLine)

def Simplexkm.simplexkm (platform : Platform) : KernelModule where
  init := enableInit platform
  exit := enableCleanup platform

/-- `saved` is the extended state as of the last switch away from the task. -/
structure Task where
  onCpu : Bool
  saved : MpxState

/-- `running` gives the task on a processor and the state in its registers, `loaded` the value
`enable_init` returned for the loaded module. -/
structure System where
  task : Nat → Option Task
  running : Nat → Option (Nat × MpxState)
  mem : Memory 64
  log : List LogLine
  loaded : Option Int

inductive UserInstruction
  | bndmk (base index : Word) (bnd : Bnd)
  | bndmovStore (bnd : Bnd) (address : Word)
  | bndmovLoad (address : Word) (bnd : Bnd)
  | bndmov (src dst : Bnd)
deriving DecidableEq, Repr

def UserInstruction.execute (instruction : UserInstruction) (machine : Machine) : Machine :=
  match instruction with
  | bndmk base index bnd => machine.bndmk base index bnd
  | bndmovStore bnd address => machine.bndmov bnd address
  | bndmovLoad address bnd =>
      if machine.mpx.en then
        machine.setBnd bnd { lb := machine.load address, ub := machine.load (address + 8) }
      else machine
  | bndmov src dst =>
      if machine.mpx.en then machine.setBnd dst (machine.mpx.bnd src) else machine

/-- Each event happens on a processor; `buffer` is the address of the local array of the switch. -/
inductive KernelEvent
  | insmod (processor : Nat) (buffer : Word)
  | rmmod (processor : Nat) (buffer : Word)
  | create (processor child : Nat)
  | contextSwitch (processor next : Nat)
  | user (processor : Nat) (instruction : UserInstruction)
deriving DecidableEq, Repr

/-- What an event shows: a user instruction shows the two bits it is executed under. -/
inductive KernelValue
  | done
  | initReturned (result : Int)
  | cleanedUp
  | refused
  | executed (en bndpreserve : Bool)
deriving DecidableEq, Repr

inductive KernelFault
  | noSuchProcessor
  | noSuchTask
  | taskExists
  | taskRunning
  | hardware (fault : Fault)
deriving DecidableEq, Repr

namespace System

def machine (mpx : MpxState) (system : System) : Machine :=
  { mpx := mpx, mem := system.mem, stderr := [] }

def resume (processor current : Nat) (machine : Machine) (system : System) : System :=
  { system with
    running := Function.update system.running processor (some (current, machine.mpx))
    mem := machine.mem }

def spawn (child : Nat) (mpx : MpxState) (system : System) : System :=
  { system with
    task := Function.update system.task child (some { onCpu := false, saved := mpx }) }

def switch (processor current next : Nat) (registers restored : MpxState) (system : System) :
    System :=
  { system with
    task := Function.update
      (Function.update system.task current (some { onCpu := false, saved := registers }))
      next (some { onCpu := true, saved := restored })
    running := Function.update system.running processor (some (next, restored)) }

/-- `insmod`: a module whose init function returns a negative value is not kept. -/
def load (loadable : KernelModule) (processor : Nat) (buffer : Word) (system : System) :
    Except KernelFault (KernelValue × System) :=
  match system.running processor, system.loaded with
  | none, _ => .error .noSuchProcessor
  | some _, some _ => .ok (.refused, system)
  | some (current, registers), none =>
      match loadable.init buffer (system.machine registers) with
      | .error fault => .error (.hardware fault)
      | .ok (result, machine, printed) =>
          .ok (.initReturned result,
            { system.resume processor current machine with
              log := system.log ++ printed
              loaded := if result < 0 then none else some result })

def unload (loadable : KernelModule) (processor : Nat) (buffer : Word) (system : System) :
    Except KernelFault (KernelValue × System) :=
  match system.running processor, system.loaded with
  | none, _ => .error .noSuchProcessor
  | some _, none => .ok (.refused, system)
  | some (current, registers), some _ =>
      match loadable.exit buffer (system.machine registers) with
      | .error fault => .error (.hardware fault)
      | .ok (machine, printed) =>
          .ok (.cleanedUp,
            { system.resume processor current machine with
              log := system.log ++ printed
              loaded := none })

def step (loadable : KernelModule) :
    KernelEvent → System → Except KernelFault (KernelValue × System)
  | .insmod processor buffer, system => system.load loadable processor buffer
  | .rmmod processor buffer, system => system.unload loadable processor buffer
  | .create processor child, system =>
      match system.running processor, system.task child with
      | none, _ => .error .noSuchProcessor
      | some _, some _ => .error .taskExists
      | some (_, registers), none => .ok (.done, system.spawn child registers)
  | .contextSwitch processor next, system =>
      match system.running processor, system.task next with
      | none, _ => .error .noSuchProcessor
      | some _, none => .error .noSuchTask
      | some _, some ⟨true, _⟩ => .error .taskRunning
      | some (current, registers), some ⟨false, restored⟩ =>
          .ok (.done, system.switch processor current next registers restored)
  | .user processor instruction, system =>
      match system.running processor with
      | none => .error .noSuchProcessor
      | some (current, registers) =>
          .ok (.executed registers.en registers.bndpreserve,
            system.resume processor current (instruction.execute (system.machine registers)))

end System

abbrev kernelStep (platform : Platform) :
    KernelEvent → System → Except KernelFault (KernelValue × System) :=
  System.step (Simplexkm.simplexkm platform)

abbrev runKernel (platform : Platform) :
    List KernelEvent → System → Except KernelFault (List KernelValue × System) :=
  RunRules.run (kernelStep platform)

end SimplexMpx
