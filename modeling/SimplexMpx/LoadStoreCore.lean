import SimplexMpx.RegisterCore
import SimplexMpx.RunRules

/-!
`LoadStoreFixture` of `benchmark.cpp`: ten bodies of one asm statement each, which move a value to
or from a register. One run of the framework sets the fixture up, repeats a body and tears the
fixture down.
-/

namespace SimplexMpx

open ByteMemory

namespace LoadStoreFixture

inductive Benchmark
  | gpStore
  | segStore
  | mmxStore
  | xmmStore
  | bndStore
  | gpLoad
  | segLoad
  | mmxLoad
  | xmmLoad
  | bndLoad
deriving DecidableEq, Repr

structure OtherRegisters where
  r15 : Word
  gs : BitVec 16
  mm0 : Word
  xmm1 : BitVec 128
deriving DecidableEq, Repr

structure State where
  machine : Machine
  registers : OtherRegisters
  gsBase : Word
  val : Word

inductive Stage
  | setUp
  | pass (index : Nat)
  | tearDown
deriving DecidableEq, Repr

/-- One run of a benchmark. `random` is what reading `/dev/urandom` leaves in `val`, none when it
cannot be opened; `clave` is the page `mmap` returns, which `arch_prctl` makes the base of GS; `rsp`
is the stack pointer of the body. The statements do not declare the registers they change, so
`between` is what the code around a pass leaves in them. `own` are the ranges of the call frames and
of the fixture with its stream, and `left` is what a stage leaves there. -/
structure Run where
  benchmark : Benchmark
  iterations : Nat
  initBuffer : Word
  finishBuffer : Word
  random : Option Word
  clave : Word
  rsp : Word
  between : Nat → OtherRegisters → OtherRegisters
  own : List (Word × Nat)
  left : Stage → Memory 64

def Run.Owns (run : Run) (address : Word) : Prop :=
  ∃ range ∈ run.own, Within range.1 range.2 address

instance (run : Run) : DecidablePred run.Owns :=
  fun _ => inferInstanceAs (Decidable (∃ range ∈ run.own, _))

def Run.frames (run : Run) (stage : Stage) (machine : Machine) : Machine :=
  { machine with mem := overlay run.Owns (run.left stage) machine.mem }

def getpagesize : Nat := 4096

def mmapPage (clave : Word) (machine : Machine) : Machine :=
  { machine.nearBranch with mem := fill machine.nearBranch.mem clave getpagesize 0 }

def readRandom (random : Option Word) (state : State) : State :=
  match random with
  | some value => { state with val := value }
  | none =>
      { state with
        val := 0xdeadbeef
        machine := state.machine.fprintfStderr "Failed to open urandom\n" }

def setUp (platform : Platform) (run : Run) (state : State) : Except Fault State := do
  let state := readRandom run.random state
  let (_, machine) ← callStep platform (.processSpecificInit run.initBuffer) state.machine
  let machine := run.frames .setUp (mmapPage run.clave machine)
  return { state with machine := machine, gsBase := run.clave }

def tearDown (platform : Platform) (run : Run) (state : State) : Except Fault State := do
  let (_, machine) ← callStep platform (.processSpecificFinish run.finishBuffer) state.machine
  return { state with machine := run.frames .tearDown machine }

/-- `movaps` faults on an address that is no multiple of 16. -/
def movapsAligned (address : Word) : Bool := address &&& 15 = 0

def load128 (address : Word) (machine : Machine) : BitVec 128 :=
  machine.load (address + 8) ++ machine.load address

def store128 (address : Word) (value : BitVec 128) (machine : Machine) : Machine :=
  (machine.store address (value.setWidth 64)).store (address + 8) ((value >>> 64).setWidth 64)

def stackSlot (rsp : Word) : Word := rsp - 0x80

def statement (benchmark : Benchmark) (rsp : Word) (state : State) : Except Fault State :=
  match benchmark with
  | .gpStore => .ok { state with registers := { state.registers with r15 := state.val } }
  | .segStore => .ok { state with machine := state.machine.store state.gsBase state.val }
  | .mmxStore => .ok { state with registers := { state.registers with mm0 := state.val } }
  | .xmmStore =>
      let machine := state.machine.store (stackSlot rsp) state.val
      if movapsAligned (stackSlot rsp) then
        .ok { state with
          machine := machine
          registers := { state.registers with xmm1 := load128 (stackSlot rsp) machine } }
      else .error .gp
  | .bndStore => .ok { state with machine := state.machine.bndmk state.val 0 .bnd0 }
  | .gpLoad => .ok { state with val := state.registers.r15 }
  | .segLoad => .ok { state with val := state.registers.gs.setWidth 64 }
  | .mmxLoad => .ok { state with val := state.registers.mm0 }
  | .xmmLoad =>
      if movapsAligned (stackSlot rsp) then
        let machine := store128 (stackSlot rsp) state.registers.xmm1 state.machine
        .ok { state with machine := machine, val := machine.load (stackSlot rsp) }
      else .error .gp
  | .bndLoad =>
      let machine := state.machine.bndmov .bnd0 (stackSlot rsp)
      .ok { state with machine := machine, val := machine.load (stackSlot rsp) }

def pass (run : Run) (index : Nat) (state : State) : Except Fault State :=
  statement run.benchmark run.rsp
    { state with
      -- the call of the body
      machine := run.frames (.pass index) state.machine.nearBranch
      registers := run.between index state.registers }

def passes (run : Run) : Nat → State → Except Fault State
  | 0, state => .ok state
  | count + 1, state => do
      let state ← passes run count state
      pass run count state

def step (platform : Platform) (run : Run) (state : State) : Except Fault (Word × State) := do
  let state ← setUp platform run state
  let state ← passes run run.iterations state
  let state ← tearDown platform run state
  return (state.val, state)

abbrev runAll (platform : Platform) : List Run → State → Except Fault (List Word × State) :=
  RunRules.run (step platform)

end LoadStoreFixture

end SimplexMpx
