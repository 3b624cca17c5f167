import SimplexMpx.RegisterCore

/-!
A process with several threads. The operating system keeps the MPX state of each thread apart and
gives a new thread a copy of its creator's; memory and stderr are shared. Calls are atomic.
-/

namespace SimplexMpx

open ByteMemory

structure Process where
  thread : Nat → Option MpxState
  mem : Memory 64
  stderr : List String

inductive ThreadEvent
  | create (parent child : Nat)
  | call (thread : Nat) (command : Call)
deriving DecidableEq, Repr

inductive ThreadFault
  | noSuchThread
  | threadExists
  | hardware (fault : Fault)
deriving DecidableEq, Repr

namespace Process

def machine (mpx : MpxState) (process : Process) : Machine :=
  { mpx := mpx, mem := process.mem, stderr := process.stderr }

def resume (thread : Nat) (machine : Machine) (process : Process) : Process :=
  { thread := Function.update process.thread thread (some machine.mpx)
    mem := machine.mem
    stderr := machine.stderr }

def spawn (child : Nat) (mpx : MpxState) (process : Process) : Process :=
  { process with thread := Function.update process.thread child (some mpx) }

end Process

def threadStep (platform : Platform) :
    ThreadEvent → Process → Except ThreadFault (Returned × Process)
  | .create parent child, process =>
      match process.thread parent, process.thread child with
      | none, _ => .error .noSuchThread
      | some _, some _ => .error .threadExists
      | some mpx, none => .ok (.void, process.spawn child mpx)
  | .call thread command, process =>
      match process.thread thread with
      | none => .error .noSuchThread
      | some mpx =>
          match callStep platform command (process.machine mpx) with
          | .error fault => .error (.hardware fault)
          | .ok (returned, machine) => .ok (returned, process.resume thread machine)

abbrev runThreads (platform : Platform) :
    List ThreadEvent → Process → Except ThreadFault (List Returned × Process) :=
  RunRules.run (threadStep platform)

/-! Call frames -/

/-- A call's return address, saved registers and local variables, and the frames of the functions it
calls: `depth` bytes below the stack pointer of its caller, with what is in them when its
instructions run and what it leaves there. -/
structure CallFrame where
  sp : Word
  depth : Nat
  entered : Memory 64
  left : Memory 64

def CallFrame.Covers (frame : CallFrame) : Word → Prop :=
  Within (frame.sp - BitVec.ofNat 64 frame.depth) frame.depth

instance (frame : CallFrame) : DecidablePred frame.Covers :=
  fun _ => inferInstanceAs (Decidable (Within _ _ _))

def framedStep (platform : Platform) (framed : ThreadEvent × CallFrame) (process : Process) :
    Except ThreadFault (Returned × Process) := do
  let (event, frame) := framed
  let process := { process with mem := overlay frame.Covers frame.entered process.mem }
  let (returned, process) ← threadStep platform event process
  return (returned, { process with mem := overlay frame.Covers frame.left process.mem })

abbrev runFramed (platform : Platform) :
    List (ThreadEvent × CallFrame) → Process → Except ThreadFault (List Returned × Process) :=
  RunRules.run (framedStep platform)

end SimplexMpx
