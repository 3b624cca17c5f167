import SimplexMpx.RegisterCore

/-!
Programs that keep their pointers in bounds registers. Code that is neither theirs nor the
library's is an environment: the results of its allocations and its effects on the machine.
-/

namespace SimplexMpx

open ByteMemory

inductive Access
  | stored (reg : BndregT) (val : Word)
  | fetched (reg : BndregT) (val : Word)
deriving DecidableEq, Repr

/-- The accesses are recorded, and so is what the client asks of foreign code, latest first. -/
structure Client (Foreign : Type) where
  machine : Machine
  accesses : List Access
  calls : List Foreign

/-- `rsp` gives the stack pointer of the n-th access, `buffer` the address of the image the runtime
builds. Foreign code may act on all it was asked before. -/
structure Environment (Foreign : Type) where
  platform : Platform
  buffer : Word
  rsp : Nat → Word
  allocate : List Foreign → Word
  effect : List Foreign → Foreign → Machine → Machine

def Machine.lower (reg : BndregT) (machine : Machine) : Word :=
  match switchReg reg with
  | some bnd => (machine.mpx.bnd bnd).lb
  | none => 0

structure Environment.Keeps {Foreign : Type} (env : Environment Foreign) (regs : List BndregT) :
    Prop where
  config : ∀ calls foreign machine,
    (env.effect calls foreign machine).mpx.bndcfgu = machine.mpx.bndcfgu
  lower : ∀ calls foreign machine, ∀ reg ∈ regs,
    (env.effect calls foreign machine).lower reg = machine.lower reg

namespace Client

variable {Foreign : Type} (env : Environment Foreign)

def processSpecificInit (client : Client Foreign) : Except Fault (Returned × Client Foreign) := do
  let (value, machine) ← callStep env.platform (.processSpecificInit env.buffer) client.machine
  return (value, { client with machine := machine })

def processSpecificFinish (client : Client Foreign) :
    Except Fault (Returned × Client Foreign) := do
  let (value, machine) ← callStep env.platform (.processSpecificFinish env.buffer) client.machine
  return (value, { client with machine := machine })

def qsetbndl (reg : BndregT) (val : Word) (client : Client Foreign) : Client Foreign :=
  let (_, machine) := client.machine.nearCall (procedure (SimplexMpx.qsetbndl reg val))
  { client with machine := machine, accesses := .stored reg val :: client.accesses }

def qgetbndl (reg : BndregT) (client : Client Foreign) : Word × Client Foreign :=
  let rsp := env.rsp client.accesses.length
  let (val, machine) := client.machine.nearCall (SimplexMpx.qgetbndl rsp reg)
  (val, { client with machine := machine, accesses := .fetched reg val :: client.accesses })

def call (foreign : Foreign) (client : Client Foreign) : Client Foreign :=
  let (_, machine) := client.machine.nearCall (procedure (env.effect client.calls foreign))
  { client with machine := machine, calls := foreign :: client.calls }

def perform (foreign : Foreign) (client : Client Foreign) : Client Foreign :=
  { client with
    machine := env.effect client.calls foreign client.machine
    calls := foreign :: client.calls }

def allocate (foreign : Word → Foreign) (client : Client Foreign) : Word × Client Foreign :=
  let ptr := env.allocate client.calls
  (ptr, client.call env (foreign ptr))

def callOn (reg : BndregT) (foreign : Word → Foreign) (client : Client Foreign) :
    Client Foreign :=
  let (ptr, client) := client.qgetbndl env reg
  client.call env (foreign ptr)

def performOn (reg : BndregT) (foreign : Word → Foreign) (client : Client Foreign) :
    Client Foreign :=
  let (ptr, client) := client.qgetbndl env reg
  client.perform env (foreign ptr)

end Client

/-- Each pointer fetched from a register was stored in it before. -/
def OnlyStored : List Access → Prop
  | [] => True
  | .stored _ _ :: earlier => OnlyStored earlier
  | .fetched reg val :: earlier => .stored reg val ∈ earlier ∧ OnlyStored earlier

end SimplexMpx
