import SimplexMpx.ClientCore

/-!
`main.c` of 519.lbm_r before and after `519.lbm_r.patch`: `MAIN_initialize`, the loop over the time
steps and `MAIN_finalize`. The arguments of one call are evaluated from left to right.
-/

namespace SimplexMpx

open ByteMemory

inductive SimType
  | ldc
  | channel
deriving DecidableEq, Repr

inductive MainAction
  | nothing
  | compare
  | store
deriving DecidableEq, Repr

structure MainParam where
  nTimeSteps : Int
  resultFilename : String
  action : MainAction
  simType : SimType
  obstacleFilename : Option String

/-- The `LBM_*` calls with the grids they are given, and the `printf` of the loop. -/
inductive LbmCall
  | allocateGrid (ptr : Word)
  | initializeGrid (grid : Word)
  | loadObstacleFile (grid : Word) (filename : String)
  | initializeSpecialCellsForChannel (grid : Word)
  | initializeSpecialCellsForLDC (grid : Word)
  | handleInOutFlow (grid : Word)
  | performStreamCollideTRT (srcGrid dstGrid : Word)
  | swapGrids (grid1 grid2 : Word)
  | printfTimestep (t : Nat)
  | showGridStatistics (grid : Word)
  | compareVelocityField (grid : Word) (filename : String) (binary : Bool)
  | storeVelocityField (grid : Word) (filename : String) (binary : Bool)
  | freeGrid (ptr : Word)
deriving DecidableEq, Repr

/-! The patched program -/

namespace Lbm

variable (env : Environment LbmCall)

def swapGrids (p0 p1 : Word) (client : Client LbmCall) : (Word × Word) × Client LbmCall :=
  ((p1, p0), client.call env (.swapGrids p0 p1))

/-- The part of `MAIN_initialize` between `process_specific_init` and the first use of a grid. -/
def allocateGrids (client : Client LbmCall) : Client LbmCall :=
  let (ptr, client) := client.allocate env .allocateGrid
  let client := client.qsetbndl BND0 ptr
  let (ptr, client) := client.allocate env .allocateGrid
  client.qsetbndl BND1 ptr

def loadObstacles (param : MainParam) (client : Client LbmCall) : Client LbmCall :=
  match param.obstacleFilename with
  | some filename =>
      let client := client.callOn env BND0 (.loadObstacleFile · filename)
      client.callOn env BND1 (.loadObstacleFile · filename)
  | none => client

def initializeSpecialCells (param : MainParam) (client : Client LbmCall) : Client LbmCall :=
  if param.simType = .channel then
    let client := client.callOn env BND0 .initializeSpecialCellsForChannel
    client.callOn env BND1 .initializeSpecialCellsForChannel
  else
    let client := client.callOn env BND0 .initializeSpecialCellsForLDC
    client.callOn env BND1 .initializeSpecialCellsForLDC

def initializeGrids (param : MainParam) (client : Client LbmCall) : Client LbmCall :=
  let client := client.callOn env BND0 .initializeGrid
  let client := client.callOn env BND1 .initializeGrid
  let client := loadObstacles env param client
  let client := initializeSpecialCells env param client
  client.callOn env BND0 .showGridStatistics

def mainInitialize (param : MainParam) (client : Client LbmCall) :
    Except Fault (Client LbmCall) := do
  let (_, client) ← client.processSpecificInit env
  let client := allocateGrids env client
  return initializeGrids env param client

def inOutFlow (param : MainParam) (client : Client LbmCall) : Client LbmCall :=
  if param.simType = .channel then client.callOn env BND0 .handleInOutFlow else client

def streamAndSwap (client : Client LbmCall) : Client LbmCall :=
  let (src, client) := client.qgetbndl env BND0
  let (dst, client) := client.qgetbndl env BND1
  let client := client.call env (.performStreamCollideTRT src dst)
  let (p0, client) := client.qgetbndl env BND0
  let (p1, client) := client.qgetbndl env BND1
  let ((p0, p1), client) := swapGrids env p0 p1 client
  let client := client.qsetbndl BND0 p0
  client.qsetbndl BND1 p1

def stepStatistics (t : Nat) (client : Client LbmCall) : Client LbmCall :=
  if t &&& 63 = 0 then
    let client := client.call env (.printfTimestep t)
    client.callOn env BND0 .showGridStatistics
  else client

def timeStep (param : MainParam) (t : Nat) (client : Client LbmCall) : Client LbmCall :=
  let client := inOutFlow env param client
  let client := streamAndSwap env client
  stepStatistics env t client

/-- The first `count` rounds of the loop, whose counter starts at 1. -/
def timeSteps (param : MainParam) : Nat → Client LbmCall → Client LbmCall
  | 0, client => client
  | count + 1, client => timeStep env param (count + 1) (timeSteps param count client)

def reportGrid (param : MainParam) (client : Client LbmCall) : Client LbmCall :=
  let client := client.callOn env BND0 .showGridStatistics
  let client :=
    if param.action = .compare then
      client.callOn env BND0 (.compareVelocityField · param.resultFilename true)
    else client
  if param.action = .store then
    client.callOn env BND0 (.storeVelocityField · param.resultFilename true)
  else client

def freeGrids (client : Client LbmCall) : Client LbmCall :=
  let (p0, client) := client.qgetbndl env BND0
  let (p1, client) := client.qgetbndl env BND1
  let client := client.call env (.freeGrid p0)
  client.call env (.freeGrid p1)

def mainFinalize (param : MainParam) (client : Client LbmCall) :
    Except Fault (Client LbmCall) := do
  let client := reportGrid env param client
  let client := freeGrids env client
  let (_, client) ← client.processSpecificFinish env
  return client

/-! Where a run stands after the allocations, after `count` time steps, and before it frees. -/

def untilAllocated (client : Client LbmCall) : Except Fault (Client LbmCall) := do
  let (_, client) ← client.processSpecificInit env
  return allocateGrids env client

def untilStep (param : MainParam) (count : Nat) (client : Client LbmCall) :
    Except Fault (Client LbmCall) := do
  let client ← mainInitialize env param client
  return timeSteps env param count client

def untilReported (param : MainParam) (client : Client LbmCall) :
    Except Fault (Client LbmCall) := do
  let client ← untilStep env param param.nTimeSteps.toNat client
  return reportGrid env param client

def main (param : MainParam) (client : Client LbmCall) : Except Fault (Client LbmCall) := do
  let client ← mainInitialize env param client
  let client := timeSteps env param param.nTimeSteps.toNat client
  mainFinalize env param client

end Lbm

/-! The original program, with `srcGrid` and `dstGrid` in static storage. -/

structure Original where
  srcGrid : Word
  dstGrid : Word
  calls : List LbmCall

namespace Original

variable (env : Environment LbmCall)

def call (foreign : LbmCall) (original : Original) : Original :=
  { original with calls := foreign :: original.calls }

def allocateGrids (original : Original) : Original :=
  let ptr := env.allocate original.calls
  let original := { original.call (.allocateGrid ptr) with srcGrid := ptr }
  let ptr := env.allocate original.calls
  { original.call (.allocateGrid ptr) with dstGrid := ptr }

def loadObstacles (param : MainParam) (original : Original) : Original :=
  match param.obstacleFilename with
  | some filename =>
      let original := original.call (.loadObstacleFile original.srcGrid filename)
      original.call (.loadObstacleFile original.dstGrid filename)
  | none => original

def initializeSpecialCells (param : MainParam) (original : Original) : Original :=
  if param.simType = .channel then
    let original := original.call (.initializeSpecialCellsForChannel original.srcGrid)
    original.call (.initializeSpecialCellsForChannel original.dstGrid)
  else
    let original := original.call (.initializeSpecialCellsForLDC original.srcGrid)
    original.call (.initializeSpecialCellsForLDC original.dstGrid)

def initializeGrids (param : MainParam) (original : Original) : Original :=
  let original := original.call (.initializeGrid original.srcGrid)
  let original := original.call (.initializeGrid original.dstGrid)
  let original := original.loadObstacles param
  let original := original.initializeSpecialCells param
  original.call (.showGridStatistics original.srcGrid)

def mainInitialize (param : MainParam) (original : Original) : Original :=
  (original.allocateGrids env).initializeGrids param

def inOutFlow (param : MainParam) (original : Original) : Original :=
  if param.simType = .channel then original.call (.handleInOutFlow original.srcGrid) else original

def streamAndSwap (original : Original) : Original :=
  let original := original.call (.performStreamCollideTRT original.srcGrid original.dstGrid)
  { original.call (.swapGrids original.srcGrid original.dstGrid) with
    srcGrid := original.dstGrid
    dstGrid := original.srcGrid }

def stepStatistics (t : Nat) (original : Original) : Original :=
  if t &&& 63 = 0 then
    let original := original.call (.printfTimestep t)
    original.call (.showGridStatistics original.srcGrid)
  else original

def timeStep (param : MainParam) (t : Nat) (original : Original) : Original :=
  ((original.inOutFlow param).streamAndSwap).stepStatistics t

def timeSteps (param : MainParam) : Nat → Original → Original
  | 0, original => original
  | count + 1, original => (timeSteps param count original).timeStep param (count + 1)

def reportGrid (param : MainParam) (original : Original) : Original :=
  let original := original.call (.showGridStatistics original.srcGrid)
  let original :=
    if param.action = .compare then
      original.call (.compareVelocityField original.srcGrid param.resultFilename true)
    else original
  if param.action = .store then
    original.call (.storeVelocityField original.srcGrid param.resultFilename true)
  else original

/-- `LBM_freeGrid` leaves a null pointer behind its argument. -/
def freeGrids (original : Original) : Original :=
  let original := { original.call (.freeGrid original.srcGrid) with srcGrid := 0 }
  { original.call (.freeGrid original.dstGrid) with dstGrid := 0 }

def mainFinalize (param : MainParam) (original : Original) : Original :=
  (original.reportGrid param).freeGrids

def untilStep (param : MainParam) (count : Nat) (original : Original) : Original :=
  (original.mainInitialize env param).timeSteps param count

def untilReported (param : MainParam) (original : Original) : Original :=
  (original.untilStep env param param.nTimeSteps.toNat).reportGrid param

def main (param : MainParam) (original : Original) : Original :=
  ((original.mainInitialize env param).timeSteps param param.nTimeSteps.toNat).mainFinalize param

def start : Original := { srcGrid := 0, dstGrid := 0, calls := [] }

end Original

/-! What the calls say about the grids -/

def allocatedGrids : List LbmCall → List Word
  | [] => []
  | .allocateGrid ptr :: earlier => ptr :: allocatedGrids earlier
  | _ :: earlier => allocatedGrids earlier

def freedGrids : List LbmCall → List Word
  | [] => []
  | .freeGrid ptr :: earlier => ptr :: freedGrids earlier
  | _ :: earlier => freedGrids earlier

/-- There is room for two grids: the second is not the first. -/
def Fresh (env : Environment LbmCall) : Prop :=
  ∀ calls, (allocatedGrids calls).length < 2 → env.allocate calls ∉ allocatedGrids calls

structure SameGrids (client : Client LbmCall) (original : Original) : Prop where
  srcGrid : (client.machine.mpx.bnd .bnd0).lb = original.srcGrid
  dstGrid : (client.machine.mpx.bnd .bnd1).lb = original.dstGrid

structure FreedOnce (calls : List LbmCall) : Prop where
  two : (allocatedGrids calls).length = 2
  freed : (freedGrids calls).Perm (allocatedGrids calls)
  once : ∀ grid ∈ allocatedGrids calls, (freedGrids calls).count grid = 1

structure LbmSimulates (env : Environment LbmCall) (param : MainParam) (client : Client LbmCall) :
    Prop where
  allocated : ∃ now, Lbm.untilAllocated env client = .ok now ∧
    SameGrids now (Original.start.allocateGrids env)
  stepped : ∀ count ≤ param.nTimeSteps.toNat, ∃ now, Lbm.untilStep env param count client = .ok now ∧
    SameGrids now (Original.start.untilStep env param count)
  reported : ∃ now, Lbm.untilReported env param client = .ok now ∧
    SameGrids now (Original.start.untilReported env param)
  finished : ∃ final, Lbm.main env param client = .ok final ∧
    final.calls = (Original.start.main env param).calls ∧ FreedOnce final.calls

end SimplexMpx
