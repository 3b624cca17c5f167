import SimplexMpx.ByteMemory

/-!
`randomize` and `corrupt` of `benchmark.cpp`. The values of `rand` are a sequence of non-negative
ints; every byte the two functions read or write is recorded, latest first.
-/

namespace SimplexMpx

open ByteMemory

def MB : Word := 1048576

/-- `draws` counts the calls of `rand`. -/
structure BufferState where
  mem : Memory 64
  accesses : List (ByteAccess 64)
  draws : Nat

inductive BenchmarkFault
  | divisionByZero
deriving DecidableEq, Repr

namespace BufferState

def start (mem : Memory 64) (draws : Nat) : BufferState :=
  { mem := mem, accesses := [], draws := draws }

def readByte (address : Word) (state : BufferState) : BitVec 8 × BufferState :=
  (state.mem address, { state with accesses := .read address :: state.accesses })

def writeByte (address : Word) (value : BitVec 8) (state : BufferState) : BufferState :=
  { state with
    mem := Function.update state.mem address value
    accesses := .wrote address :: state.accesses }

def draw (rand : Nat → BitVec 31) (state : BufferState) : BitVec 31 × BufferState :=
  (rand state.draws, { state with draws := state.draws + 1 })

end BufferState

variable (rand : Nat → BitVec 31)

/-- `(rand() % 127) + 1` as a `char` -/
def randomChar (value : BitVec 31) : BitVec 8 := BitVec.ofNat 8 (value.toNat % 127 + 1)

/-- The counter and the state at the end of the `for` loop; `limit` is `sz - 1`. -/
def randomizeLoop (ptr limit c : Word) (state : BufferState) : Word × BufferState :=
  if c < limit then
    let (value, state) := state.draw rand
    let state := state.writeByte (ptr + c) (randomChar value)
    randomizeLoop ptr limit (c + 1) state
  else (c, state)
termination_by (limit - c).toNat
decreasing_by bv_omega

def randomize (ptr sz : Word) (state : BufferState) : BufferState :=
  if ptr ≠ 0 then
    let (c, state) := randomizeLoop rand ptr (sz - 1) 0 state
    state.writeByte (ptr + c) 0
  else state

/-- `memcpy` of the standard library, one byte after the other. -/
def memcpy : Nat → Word → Word → BufferState → BufferState
  | 0, _, _, state => state
  | len + 1, dst, src, state =>
      let (byte, state) := state.readByte src
      let state := state.writeByte dst byte
      memcpy len (dst + 1) (src + 1) state

def corrupt (dst src sz : Word) (state : BufferState) : Except BenchmarkFault BufferState :=
  let state := if src ≠ 0 ∧ dst ≠ 0 then memcpy (4 * MB).toNat dst src state else state
  if dst ≠ 0 then
    let (value, state) := state.draw rand
    if sz = 0 then .error .divisionByZero
    else
      let i := value.setWidth 64 % sz
      let (byte, state) := state.readByte (dst + i)
      .ok (state.writeByte (dst + i) (~~~byte))
  else .ok state

end SimplexMpx
