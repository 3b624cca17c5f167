import SimplexMpx.Client
import SimplexMpx.LbmCore

/-!
The patched lattice-Boltzmann driver simulates the original one. Both runs stay in step as long as
MPX is enabled and the two lower bounds are the two globals; what the calls do to the grids is then
a matter of the original alone.
-/

namespace SimplexMpx

open ByteMemory

structure Agrees (client : Client LbmCall) (original : Original) : Prop where
  enabled : client.machine.mpx.Enabled
  srcGrid : client.machine.lower BND0 = original.srcGrid
  dstGrid : client.machine.lower BND1 = original.dstGrid
  calls : client.calls = original.calls

namespace Agrees

variable {env : Environment LbmCall} {client : Client LbmCall} {original : Original}

theorem sameGrids (agrees : Agrees client original) : SameGrids client original :=
  ⟨agrees.srcGrid, agrees.dstGrid⟩

theorem fetched_src (agrees : Agrees client original) :
    (client.qgetbndl env BND0).1 = original.srcGrid := by
  rw [Client.qgetbndl_value agrees.enabled, agrees.srcGrid]

theorem fetched_dst (agrees : Agrees client original) :
    (client.qgetbndl env BND1).1 = original.dstGrid := by
  rw [Client.qgetbndl_value agrees.enabled, agrees.dstGrid]

theorem qgetbndl (agrees : Agrees client original) (env : Environment LbmCall) (reg : BndregT) :
    Agrees (client.qgetbndl env reg).2 original := by
  constructor
  · exact Client.qgetbndl_enabled agrees.enabled
  · rw [Client.qgetbndl_lower agrees.enabled, agrees.srcGrid]
  · rw [Client.qgetbndl_lower agrees.enabled, agrees.dstGrid]
  · exact agrees.calls

theorem call (agrees : Agrees client original) (keeps : env.Keeps [BND0, BND1])
    (foreign : LbmCall) : Agrees (client.call env foreign) (original.call foreign) := by
  constructor
  · exact Client.call_enabled agrees.enabled keeps foreign
  · rw [Client.call_lower agrees.enabled keeps (by simp)]
    exact agrees.srcGrid
  · rw [Client.call_lower agrees.enabled keeps (by simp)]
    exact agrees.dstGrid
  · exact congrArg (foreign :: ·) agrees.calls

theorem callOn_src (agrees : Agrees client original) (keeps : env.Keeps [BND0, BND1])
    (foreign : Word → LbmCall) :
    Agrees (client.callOn env BND0 foreign) (original.call (foreign original.srcGrid)) := by
  rw [Client.callOn_eq, agrees.fetched_src]
  exact (agrees.qgetbndl env BND0).call keeps _

theorem callOn_dst (agrees : Agrees client original) (keeps : env.Keeps [BND0, BND1])
    (foreign : Word → LbmCall) :
    Agrees (client.callOn env BND1 foreign) (original.call (foreign original.dstGrid)) := by
  rw [Client.callOn_eq, agrees.fetched_dst]
  exact (agrees.qgetbndl env BND1).call keeps _

theorem writeBack (agrees : Agrees client original) (src dst : Word) :
    Agrees ((client.qsetbndl BND0 src).qsetbndl BND1 dst)
      { original with srcGrid := src, dstGrid := dst } := by
  have first := Client.qsetbndl_enabled agrees.enabled BND0 src
  constructor
  · exact Client.qsetbndl_enabled first BND1 dst
  · rw [Client.qsetbndl_lower_of_ne first (by decide),
      Client.qsetbndl_lower_self agrees.enabled (by decide)]
  · exact Client.qsetbndl_lower_self first (by decide) dst
  · exact agrees.calls

end Agrees

section Stages

variable {env : Environment LbmCall} (keeps : env.Keeps [BND0, BND1]) {client : Client LbmCall}
  {original : Original}
include keeps

/-! Initialisation -/

theorem allocateGrids_agree (enabled : client.machine.mpx.Enabled)
    (calls : client.calls = original.calls) :
    Agrees (Lbm.allocateGrids env client) (original.allocateGrids env) := by
  have called := Client.call_enabled enabled keeps (.allocateGrid (env.allocate client.calls))
  have stored := Client.qsetbndl_enabled called BND0 (env.allocate client.calls)
  have again := Client.call_enabled stored keeps (.allocateGrid
    (env.allocate (.allocateGrid (env.allocate client.calls) :: client.calls)))
  simp only [Lbm.allocateGrids, Client.allocate, Original.allocateGrids, Original.call, ← calls,
    Client.qsetbndl_calls, Client.call_calls]
  constructor
  · exact Client.qsetbndl_enabled again BND1 _
  · rw [Client.qsetbndl_lower_of_ne again (by decide),
      Client.call_lower stored keeps (by simp), Client.qsetbndl_lower_self called (by decide)]
  · exact Client.qsetbndl_lower_self again (by decide) _
  · rfl

theorem loadObstacles_agree (agrees : Agrees client original) (param : MainParam) :
    Agrees (Lbm.loadObstacles env param client) (original.loadObstacles param) := by
  unfold Lbm.loadObstacles Original.loadObstacles
  cases param.obstacleFilename with
  | none => exact agrees
  | some filename =>
      exact (agrees.callOn_src keeps (.loadObstacleFile · filename)).callOn_dst keeps
        (.loadObstacleFile · filename)

theorem initializeSpecialCells_agree (agrees : Agrees client original) (param : MainParam) :
    Agrees (Lbm.initializeSpecialCells env param client)
      (original.initializeSpecialCells param) := by
  unfold Lbm.initializeSpecialCells Original.initializeSpecialCells
  split
  · exact (agrees.callOn_src keeps _).callOn_dst keeps _
  · exact (agrees.callOn_src keeps _).callOn_dst keeps _

theorem initializeGrids_agree (agrees : Agrees client original) (param : MainParam) :
    Agrees (Lbm.initializeGrids env param client) (original.initializeGrids param) := by
  have initialized := (agrees.callOn_src keeps .initializeGrid).callOn_dst keeps .initializeGrid
  have loaded := loadObstacles_agree keeps initialized param
  have special := initializeSpecialCells_agree keeps loaded param
  exact special.callOn_src keeps .showGridStatistics

/-! Time steps -/

theorem inOutFlow_agree (agrees : Agrees client original) (param : MainParam) :
    Agrees (Lbm.inOutFlow env param client) (original.inOutFlow param) := by
  unfold Lbm.inOutFlow Original.inOutFlow
  split
  · exact agrees.callOn_src keeps _
  · exact agrees

theorem streamAndSwap_agree (agrees : Agrees client original) :
    Agrees (Lbm.streamAndSwap env client) original.streamAndSwap := by
  have first := agrees.qgetbndl env BND0
  have streamed := (first.qgetbndl env BND1).call keeps
    (.performStreamCollideTRT original.srcGrid original.dstGrid)
  have third := streamed.qgetbndl env BND0
  have swapped := (third.qgetbndl env BND1).call keeps
    (.swapGrids original.srcGrid original.dstGrid)
  simp only [Lbm.streamAndSwap, Lbm.swapGrids, agrees.fetched_src, first.fetched_dst,
    streamed.fetched_src, third.fetched_dst]
  exact swapped.writeBack original.dstGrid original.srcGrid

theorem stepStatistics_agree (agrees : Agrees client original) (t : Nat) :
    Agrees (Lbm.stepStatistics env t client) (original.stepStatistics t) := by
  unfold Lbm.stepStatistics Original.stepStatistics
  split
  · exact (agrees.call keeps _).callOn_src keeps _
  · exact agrees

theorem timeStep_agree (agrees : Agrees client original) (param : MainParam) (t : Nat) :
    Agrees (Lbm.timeStep env param t client) (original.timeStep param t) := by
  have flowed := inOutFlow_agree keeps agrees param
  have swapped := streamAndSwap_agree keeps flowed
  exact stepStatistics_agree keeps swapped t

theorem timeSteps_agree (agrees : Agrees client original) (param : MainParam) (count : Nat) :
    Agrees (Lbm.timeSteps env param count client) (original.timeSteps param count) := by
  induction count with
  | zero => exact agrees
  | succ count ih => exact timeStep_agree keeps ih param (count + 1)

/-! Finalisation -/

theorem reportGrid_agree (agrees : Agrees client original) (param : MainParam) :
    Agrees (Lbm.reportGrid env param client) (original.reportGrid param) := by
  have shown := agrees.callOn_src keeps .showGridStatistics
  unfold Lbm.reportGrid Original.reportGrid
  cases param.action with
  | nothing => exact shown
  | compare => exact shown.callOn_src keeps (.compareVelocityField · param.resultFilename true)
  | store => exact shown.callOn_src keeps (.storeVelocityField · param.resultFilename true)

end Stages

theorem freeGrids_calls (env : Environment LbmCall) {client : Client LbmCall} {original : Original}
    (agrees : Agrees client original) :
    (Lbm.freeGrids env client).calls = original.freeGrids.calls := by
  have first := agrees.qgetbndl env BND0
  simp only [Lbm.freeGrids, agrees.fetched_src, first.fetched_dst, Client.call_calls,
    Client.qgetbndl_calls, agrees.calls]
  rfl

/-! The grids of the original run -/

/-- Between the allocations and the first free the two globals hold the two grids. -/
structure Live (first second : Word) (original : Original) : Prop where
  allocated : allocatedGrids original.calls = [second, first]
  freed : freedGrids original.calls = []
  held : [original.dstGrid, original.srcGrid].Perm [second, first]

namespace Live

variable {first second : Word} {original : Original}

theorem loadObstacles (live : Live first second original) (param : MainParam) :
    Live first second (original.loadObstacles param) := by
  unfold Original.loadObstacles
  cases param.obstacleFilename with
  | none => exact live
  | some filename => exact ⟨live.allocated, live.freed, live.held⟩

theorem initializeSpecialCells (live : Live first second original) (param : MainParam) :
    Live first second (original.initializeSpecialCells param) := by
  unfold Original.initializeSpecialCells
  split
  · exact ⟨live.allocated, live.freed, live.held⟩
  · exact ⟨live.allocated, live.freed, live.held⟩

theorem initializeGrids (live : Live first second original) (param : MainParam) :
    Live first second (original.initializeGrids param) := by
  have initialized : Live first second ((original.call (.initializeGrid original.srcGrid)).call
      (.initializeGrid original.dstGrid)) := ⟨live.allocated, live.freed, live.held⟩
  have special := (initialized.loadObstacles param).initializeSpecialCells param
  exact ⟨special.allocated, special.freed, special.held⟩

theorem inOutFlow (live : Live first second original) (param : MainParam) :
    Live first second (original.inOutFlow param) := by
  unfold Original.inOutFlow
  split
  · exact ⟨live.allocated, live.freed, live.held⟩
  · exact live

theorem streamAndSwap (live : Live first second original) :
    Live first second original.streamAndSwap := by
  constructor
  · exact live.allocated
  · exact live.freed
  · exact (List.Perm.swap original.dstGrid original.srcGrid []).trans live.held

theorem stepStatistics (live : Live first second original) (t : Nat) :
    Live first second (original.stepStatistics t) := by
  unfold Original.stepStatistics
  split
  · exact ⟨live.allocated, live.freed, live.held⟩
  · exact live

theorem timeSteps (live : Live first second original) (param : MainParam) (count : Nat) :
    Live first second (original.timeSteps param count) := by
  induction count with
  | zero => exact live
  | succ count ih => exact (ih.inOutFlow param).streamAndSwap.stepStatistics (count + 1)

theorem reportGrid (live : Live first second original) (param : MainParam) :
    Live first second (original.reportGrid param) := by
  unfold Original.reportGrid
  cases param.action with
  | nothing => exact ⟨live.allocated, live.freed, live.held⟩
  | compare => exact ⟨live.allocated, live.freed, live.held⟩
  | store => exact ⟨live.allocated, live.freed, live.held⟩

theorem freeGrids (live : Live first second original) (differ : second ≠ first) :
    FreedOnce original.freeGrids.calls := by
  have allocated : allocatedGrids original.freeGrids.calls = [second, first] := live.allocated
  have freed : freedGrids original.freeGrids.calls = [original.dstGrid, original.srcGrid] :=
    congrArg (fun earlier => original.dstGrid :: original.srcGrid :: earlier) live.freed
  constructor
  · rw [allocated]
    rfl
  · rw [allocated, freed]
    exact live.held
  · intro grid member
    rw [allocated] at member
    rw [freed, live.held.count_eq]
    exact List.count_eq_one_of_mem (by simp [differ]) member

end Live

theorem allocateGrids_live {env : Environment LbmCall} (fresh : Fresh env) :
    ∃ first second, second ≠ first ∧ Live first second (Original.start.allocateGrids env) := by
  have apart := fresh [.allocateGrid (env.allocate [])] Nat.one_lt_two
  refine ⟨env.allocate [], env.allocate [.allocateGrid (env.allocate [])], ?_, rfl, rfl, .refl _⟩
  intro same
  apply apart
  rw [same]
  exact List.mem_singleton_self _

/-! The whole run -/

section Run

variable {env : Environment LbmCall} {client : Client LbmCall} {started : Machine}

theorem untilAllocated_agrees (keeps : env.Keeps [BND0, BND1]) (begun : client.calls = [])
    (began : callStep env.platform (.processSpecificInit env.buffer) client.machine =
      .ok (.bool true, started)) :
    ∃ now, Lbm.untilAllocated env client = .ok now ∧
      Agrees now (Original.start.allocateGrids env) := by
  obtain ⟨found, on, csr⟩ := init_true began
  have enabled : started.mpx.Enabled := by
    rw [callStep_init found on csr] at began
    obtain ⟨_, rfl⟩ := Prod.mk.inj (Except.ok.inj began)
    exact startedMachine_enabled _ _ _
  refine ⟨Lbm.allocateGrids env { client with machine := started }, ?_, ?_⟩
  · simp only [Lbm.untilAllocated, Client.processSpecificInit_ok_iff.mpr ⟨started, began, rfl⟩]
    rfl
  · exact allocateGrids_agree keeps enabled begun

theorem untilStep_of_allocated {now : Client LbmCall}
    (allocated : Lbm.untilAllocated env client = .ok now) (param : MainParam) (count : Nat) :
    Lbm.untilStep env param count client =
      .ok (Lbm.timeSteps env param count (Lbm.initializeGrids env param now)) := by
  unfold Lbm.untilAllocated at allocated
  cases began : client.processSpecificInit env with
  | error fault =>
      rw [began] at allocated
      contradiction
  | ok result =>
      rw [began] at allocated
      obtain rfl := Except.ok.inj allocated
      simp only [Lbm.untilStep, Lbm.mainInitialize, began]
      rfl

theorem untilReported_of_step {now : Client LbmCall} {param : MainParam}
    (stepped : Lbm.untilStep env param param.nTimeSteps.toNat client = .ok now) :
    Lbm.untilReported env param client = .ok (Lbm.reportGrid env param now) := by
  simp only [Lbm.untilReported, stepped]
  rfl

theorem main_of_step {now stopped : Client LbmCall} {param : MainParam} {value : Returned}
    (stepped : Lbm.untilStep env param param.nTimeSteps.toNat client = .ok now)
    (ended : (Lbm.freeGrids env (Lbm.reportGrid env param now)).processSpecificFinish env =
      .ok (value, stopped)) :
    Lbm.main env param client = .ok stopped := by
  unfold Lbm.untilStep at stepped
  cases initialized : Lbm.mainInitialize env param client with
  | error fault =>
      rw [initialized] at stepped
      contradiction
  | ok middle =>
      rw [initialized] at stepped
      obtain rfl := Except.ok.inj stepped
      simp only [Lbm.main, initialized]
      show Lbm.mainFinalize env param _ = _
      simp only [Lbm.mainFinalize, ended]
      rfl

/-- For all parameters: as long as foreign code keeps the two registers and the second grid is not
the first, the patched program makes the calls of the original on the same grids. -/
theorem lbm_simulates (keeps : env.Keeps [BND0, BND1]) (fresh : Fresh env)
    (begun : client.calls = [])
    (began : callStep env.platform (.processSpecificInit env.buffer) client.machine =
      .ok (.bool true, started)) (param : MainParam) : LbmSimulates env param client := by
  obtain ⟨found, on, csr⟩ := init_true began
  obtain ⟨now, allocated, agrees⟩ := untilAllocated_agrees keeps begun began
  have initialized := initializeGrids_agree keeps agrees param
  have atStep := fun count => timeSteps_agree keeps initialized param count
  have toStep := untilStep_of_allocated allocated param
  have reported := reportGrid_agree keeps (atStep param.nTimeSteps.toNat) param
  constructor
  · exact ⟨now, allocated, agrees.sameGrids⟩
  · intro count _
    exact ⟨_, toStep count, (atStep count).sameGrids⟩
  · exact ⟨_, untilReported_of_step (toStep _), reported.sameGrids⟩
  · obtain ⟨first, second, differ, live⟩ := allocateGrids_live fresh
    have used := ((live.initializeGrids param).timeSteps param param.nTimeSteps.toNat).reportGrid
      param
    have same := freeGrids_calls env reported
    have ended := Client.processSpecificFinish_of_ok
      (callStep_finish found on csr env.buffer (Lbm.freeGrids env (Lbm.reportGrid env param
        (Lbm.timeSteps env param param.nTimeSteps.toNat
          (Lbm.initializeGrids env param now)))).machine)
    refine ⟨_, main_of_step (toStep _) ended, same, ?_⟩
    have once := used.freeGrids differ
    rw [← same] at once
    exact once

end Run

/-- An allocator with two places, and foreign code that writes to the grid it initialises. -/
def twoGrids : Environment LbmCall where
  platform := capablePlatform
  buffer := 0x5000
  rsp := fun _ => 0x7000
  allocate := fun calls =>
    if 0x100000 ∈ allocatedGrids calls then 0x200000 else 0x100000
  effect := fun _ foreign machine =>
    match foreign with
    | .initializeGrid grid => machine.store grid 1
    | _ => machine

theorem twoGrids_keeps (regs : List BndregT) : twoGrids.Keeps regs := by
  have same : ∀ calls foreign machine, (twoGrids.effect calls foreign machine).mpx = machine.mpx := by
    intro calls foreign machine
    cases foreign <;> rfl
  constructor
  · intro calls foreign machine
    rw [same]
  · intro calls foreign machine reg _
    exact lower_of_mpx_eq (same calls foreign machine) reg

theorem twoGrids_fresh : Fresh twoGrids := by
  intro calls short
  simp only [twoGrids]
  split
  case isFalse absent => exact absent
  case isTrue present =>
    obtain ⟨grid, only⟩ : ∃ grid, allocatedGrids calls = [grid] := by
      rw [← List.length_eq_one_iff]
      have nonempty := List.length_pos_of_mem present
      omega
    rw [only, List.mem_singleton] at present ⊢
    subst present
    decide

theorem lbm_simulates_channel :
    LbmSimulates twoGrids
      { nTimeSteps := 65, resultFilename := "reference.dat", action := .compare,
        simType := .channel, obstacleFilename := some "obstacles.of" }
      { machine := blankMachine, accesses := [], calls := [] } := by
  have capable : Capable twoGrids.platform := capablePlatform_capable
  have began := callStep_init capable.detected capable.osxsave capable.bndcsr twoGrids.buffer
    blankMachine
  have nothing : ({ machine := blankMachine, accesses := [], calls := [] } : Client LbmCall).calls =
      [] := rfl
  exact lbm_simulates (twoGrids_keeps _) twoGrids_fresh nothing began _

end SimplexMpx
