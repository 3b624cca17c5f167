import SimplexMpx.Discipline

/-!
The patched chess program makes the calls and assignments of the original one, on two blocks of the
heap in place of its two globals, and gives both blocks back whichever way it exits.
-/

namespace SimplexMpx

open ByteMemory

/-- The registers hold the places of the two objects, and the calls so far are the same. -/
structure Serves (original : SjengOriginal) (client : Client SjengCall) : Prop where
  holding : client.Holding [(BND1, original.gamestate), (BND0, original.state)] original.calls

namespace Serves

variable {env : Environment SjengCall} {client : Client SjengCall} {original : SjengOriginal}

theorem fetched_state (serves : Serves original client) :
    (client.qgetbndl env BND0).1 = original.state :=
  serves.holding.fetched (by simp)

theorem fetched_gamestate (serves : Serves original client) :
    (client.qgetbndl env BND1).1 = original.gamestate :=
  serves.holding.fetched (by simp)

theorem qgetbndl (serves : Serves original client) (env : Environment SjengCall) (reg : BndregT) :
    Serves original (client.qgetbndl env reg).2 :=
  ⟨serves.holding.qgetbndl reg⟩

variable (serves : Serves original client) (keeps : env.Keeps [BND1, BND0])
include serves keeps

theorem call (foreign : SjengCall) : Serves (original.call foreign) (client.call env foreign) :=
  ⟨serves.holding.call keeps foreign⟩

theorem perform (foreign : SjengCall) :
    Serves (original.call foreign) (client.perform env foreign) :=
  ⟨serves.holding.perform keeps foreign⟩

theorem callOn_state (foreign : Word → SjengCall) :
    Serves (original.call (foreign original.state)) (client.callOn env BND0 foreign) :=
  ⟨serves.holding.callOn keeps (by simp) foreign⟩

theorem callOn_gamestate (foreign : Word → SjengCall) :
    Serves (original.call (foreign original.gamestate)) (client.callOn env BND1 foreign) :=
  ⟨serves.holding.callOn keeps (by simp) foreign⟩

theorem performOn_state (foreign : Word → SjengCall) :
    Serves (original.call (foreign original.state)) (client.performOn env BND0 foreign) :=
  ⟨serves.holding.performOn keeps (by simp) foreign⟩

theorem assignGamestate (field : GamestateField) (value : SjengValue) :
    Serves (original.assignGamestate field value) (Sjeng.assignGamestate env field value client) :=
  ⟨serves.holding.performOn keeps (by simp) (.assignGamestate · field value)⟩

/-! Stages of `main` -/

theorem prepare : Serves original.prepare (Sjeng.prepare env client) := by
  have started := ((serves.call keeps (.setbuf .stdout)).call keeps (.setbuf .stdin)).call keeps
    .startUp
  have initialized := (started.callOn_gamestate keeps .initParameters).callOn_state keeps
    .initializeZobrist
  have seeded := ((initialized.call keeps .setupPrecalculatedData).call keeps
    .preprocessPrepare).call keeps (.mysrand 12345)
  have fetched := seeded.qgetbndl env BND1
  have game := (fetched.qgetbndl env BND0).call keeps (.initGame original.gamestate original.state)
  have hashed := (game.callOn_state keeps .initializeHash).call keeps .clearTt
  simp only [Sjeng.prepare, seeded.fetched_gamestate, fetched.fetched_state]
  exact hashed.call keeps .clearPawnTt

theorem assignParameters : Serves original.assignParameters (Sjeng.assignParameters env client) := by
  have clock := (((serves.performOn_state keeps (.assignPly · 0)).assignGamestate keeps .movesToTc
    (.number 40)).assignGamestate keeps .minPerGame (.number 15)).assignGamestate keeps .secPerGame
    (.number 0)
  have color := ((clock.assignGamestate keeps .timeLeft (.number (15 * 60 * 100))).perform keeps
    (.assignGlobal .contempt (.number 0))).assignGamestate keeps .compColor (.number 0)
  have modes := ((color.perform keeps (.assignGlobal .isPondering .FALSE)).perform keeps
    (.assignGlobal .allowPondering .TRUE)).perform keeps (.assignGlobal .isAnalyzing .FALSE)
  have phases := ((modes.assignGamestate keeps .fixedTime .FALSE).assignGamestate keeps .phase
    .OPENING).assignGamestate keeps .rootToMove .WHITE
  exact (phases.perform keeps (.assignGlobal .timeCheckLog (.number 14))).assignGamestate keeps
    .moveNumber (.number 0)

theorem clearHistory : Serves original.clearHistory (Sjeng.clearHistory env client) := by
  have cleared := (serves.callOn_gamestate keeps (.memsetGamestate · .gameHistory)).callOn_gamestate
    keeps (.memsetGamestate · .gameHistoryX)
  have first := cleared.qgetbndl env BND0
  have second := first.qgetbndl env BND1
  have assigned := (second.qgetbndl env BND0).perform keeps
    (.assignHashHistory original.state original.gamestate original.state)
  simp only [Sjeng.clearHistory, cleared.fetched_state, first.fetched_gamestate,
    second.fetched_state]
  exact (assigned.call keeps .memsetBufferedCommand).perform keeps
    (.assignGlobal .bufferedCount (.number 0))

theorem testOrComplain (argv : List String) :
    (Sjeng.testOrComplain env argv client).1 = (original.testOrComplain argv).1 ∧
      Serves (original.testOrComplain argv).2 (Sjeng.testOrComplain env argv client).2 := by
  have complained := serves.call keeps (.myprintf "Please specify the workfile.\n")
  match argv with
  | [] => exact ⟨rfl, complained⟩
  | [testname] =>
      have fetched := serves.qgetbndl env BND1
      have tested := (fetched.qgetbndl env BND0).call keeps
        (.runEpdTestsuite original.gamestate original.state testname)
      simp only [Sjeng.testOrComplain, serves.fetched_gamestate, fetched.fetched_state]
      exact ⟨rfl, tested⟩
  | _ :: _ :: _ => exact ⟨rfl, complained⟩

theorem release_calls :
    (Sjeng.release env client).calls =
      .free original.gamestate :: .free original.state :: original.calls :=
  ((serves.callOn_state keeps .free).callOn_gamestate keeps .free).holding.calls

end Serves

theorem allocate_serves {env : Environment SjengCall} (keeps : env.Keeps [BND0, BND1])
    {client : Client SjengCall} (enabled : client.machine.mpx.Enabled) :
    ∃ s g, Serves ⟨s, g, .mallocGamestate g :: .mallocState s :: client.calls⟩
      (Sjeng.allocate env client) := by
  have nothing : client.Holding [] client.calls := ⟨enabled, by simp, rfl⟩
  have first := (nothing.call (keeps.mono (by simp))
    (.mallocState (env.allocate client.calls))).qsetbndl
    (show (switchReg BND0).isSome by decide) (by simp) (env.allocate client.calls)
  have second := fun ptr => (first.call (keeps.mono (by simp)) (.mallocGamestate ptr)).qsetbndl
    (show (switchReg BND1).isSome by decide) (by simp [BND0, BND1]) ptr
  exact ⟨_, _, ⟨second _⟩⟩

/-! The objects of the original run -/

section Original

variable (original : SjengOriginal)

theorem heapCalls_prepare : heapCalls original.prepare.calls = heapCalls original.calls := by
  simp [heapCalls, SjengOriginal.prepare, SjengOriginal.call]

theorem heapCalls_assignParameters :
    heapCalls original.assignParameters.calls = heapCalls original.calls := by
  simp [heapCalls, SjengOriginal.assignParameters, SjengOriginal.assignGamestate,
    SjengOriginal.call]

theorem heapCalls_clearHistory :
    heapCalls original.clearHistory.calls = heapCalls original.calls := by
  simp [heapCalls, SjengOriginal.clearHistory, SjengOriginal.call]

theorem heapCalls_testOrComplain (argv : List String) :
    heapCalls (original.testOrComplain argv).2.calls = heapCalls original.calls := by
  unfold SjengOriginal.testOrComplain
  split <;> simp [heapCalls, SjengOriginal.call]

@[simp] theorem call_state (foreign : SjengCall) : (original.call foreign).state = original.state :=
  rfl

@[simp] theorem call_gamestate (foreign : SjengCall) :
    (original.call foreign).gamestate = original.gamestate := rfl

/-- The program never moves its two objects. -/
theorem main_pointers (argv : List String) :
    (original.main argv).2.state = original.state ∧
      (original.main argv).2.gamestate = original.gamestate := by
  unfold SjengOriginal.main SjengOriginal.testOrComplain
  split <;> simp [SjengOriginal.clearHistory, SjengOriginal.assignParameters,
    SjengOriginal.assignGamestate, SjengOriginal.prepare]

theorem heapCalls_main (argv : List String) :
    heapCalls (original.main argv).2.calls = heapCalls original.calls := by
  rw [SjengOriginal.main, heapCalls_testOrComplain, heapCalls_clearHistory,
    heapCalls_assignParameters, heapCalls_prepare]

end Original

theorem work_serves {env : Environment SjengCall} (keeps : env.Keeps [BND1, BND0])
    {client : Client SjengCall} {original : SjengOriginal} (serves : Serves original client)
    (argv : List String) :
    (Sjeng.work env argv client).1 = (original.main argv).1 ∧
      (Sjeng.work env argv client).2.calls =
        .free original.gamestate :: .free original.state :: (original.main argv).2.calls := by
  have cleared := ((serves.prepare keeps).assignParameters keeps).clearHistory keeps
  obtain ⟨status, tested⟩ := cleared.testOrComplain keeps argv
  have released := tested.release_calls keeps
  obtain ⟨state, gamestate⟩ := main_pointers original argv
  rw [← state, ← gamestate]
  exact ⟨status, released⟩

theorem main_of_work {env : Environment SjengCall} {client ready stopped : Client SjengCall}
    {argv : List String} {value value' : Returned}
    (began : client.processSpecificInit env = .ok (value, ready))
    (ended : (Sjeng.work env argv (Sjeng.allocate env ready)).2.processSpecificFinish env =
      .ok (value', stopped)) :
    Sjeng.main env argv client =
      .ok ((Sjeng.work env argv (Sjeng.allocate env ready)).1, stopped) := by
  simp only [Sjeng.work] at ended
  simp only [Sjeng.main, Sjeng.work, began, bind, Except.bind, pure, Except.pure, ended]

/-- For all arguments: the patched program exits with the status of the original, whose calls it
makes on two blocks of the heap, allocated first and freed last. -/
theorem sjeng_simulates {env : Environment SjengCall} (keeps : env.Keeps [BND0, BND1])
    {client : Client SjengCall} {started : Machine}
    (began : callStep env.platform (.processSpecificInit env.buffer) client.machine =
      .ok (.bool true, started)) (argv : List String) :
    ∃ s g final,
      let original : SjengOriginal := ⟨s, g, .mallocGamestate g :: .mallocState s :: client.calls⟩
      Sjeng.main env argv client = .ok ((original.main argv).1, final) ∧
        final.calls = .free g :: .free s :: (original.main argv).2.calls ∧
        heapCalls final.calls =
          .free g :: .free s :: .mallocGamestate g :: .mallocState s :: heapCalls client.calls := by
  obtain ⟨found, on, csr⟩ := init_true began
  have ready := Client.processSpecificInit_ok_iff.mpr ⟨started, began, rfl⟩
  obtain ⟨s, g, allocated⟩ := @allocate_serves env keeps { client with machine := started }
    (init_enabled (.inl found) began)
  obtain ⟨status, calls⟩ := work_serves (keeps.mono (by simp)) allocated argv
  have ended := Client.processSpecificFinish_of_ok (callStep_finish found on csr env.buffer
    (Sjeng.work env argv (Sjeng.allocate env { client with machine := started })).2.machine)
  have ran := main_of_work ready ended
  rw [status] at ran
  refine ⟨s, g, _, ran, calls, ?_⟩
  simp only [calls]
  have before := heapCalls_main ⟨s, g, .mallocGamestate g :: .mallocState s :: client.calls⟩ argv
  exact congrArg (fun calls => SjengCall.free g :: SjengCall.free s :: calls) before

/-- An allocator of two blocks; foreign code writes to the objects it initialises. -/
def twoObjects : Environment SjengCall where
  platform := capablePlatform
  buffer := 0x5000
  rsp := fun _ => 0x7000
  allocate := fun calls => if calls = [] then 0x100000 else 0x200000
  effect := fun _ foreign machine =>
    match foreign with
    | .initGame g s => (machine.store g 1).store s 2
    | _ => machine

theorem twoObjects_keeps (regs : List BndregT) : twoObjects.Keeps regs := by
  have same : ∀ calls foreign machine,
      (twoObjects.effect calls foreign machine).mpx = machine.mpx := by
    intro calls foreign machine
    cases foreign <;> rfl
  exact ⟨fun calls foreign machine => by rw [same],
    fun calls foreign machine reg _ => lower_of_mpx_eq (same calls foreign machine) reg⟩

theorem sjeng_simulates_without_workfile :
    ∃ s g final,
      let original : SjengOriginal := ⟨s, g, [.mallocGamestate g, .mallocState s]⟩
      Sjeng.main twoObjects [] ⟨blankMachine, [], []⟩ = .ok ((original.main []).1, final) ∧
        final.calls = .free g :: .free s :: (original.main []).2.calls ∧
        heapCalls final.calls = [.free g, .free s, .mallocGamestate g, .mallocState s] := by
  have began := callStep_init capablePlatform_capable.detected capablePlatform_capable.osxsave
    capablePlatform_capable.bndcsr 0x5000 blankMachine
  exact @sjeng_simulates twoObjects (twoObjects_keeps _) ⟨blankMachine, [], []⟩ _ began []

end SimplexMpx
