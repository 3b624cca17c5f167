import SimplexMpx.RegisterStore

/-!
What the library answers as a function of the calls before: each half of a register holds what was
last written to it, and the calls on one register do not see those on the others.
-/

namespace SimplexMpx

open ByteMemory PairStore

def Call.stops : Call → Bool
  | .processSpecificFinish _ => true
  | _ => false

theorem operationOf_of_running {command : Call} (running : command.stops = false) :
    ∃ operation, operationOf command = some operation := by
  cases command with
  | processSpecificFinish buffer => simp [Call.stops] at running
  | _ => exact ⟨_, rfl⟩

theorem described_of_running {calls : List Call}
    (running : ∀ command ∈ calls, command.stops = false) :
    List.Forall₂ (fun command operation => operationOf command = some operation) calls
      (calls.filterMap operationOf) := by
  induction calls with
  | nil => exact .nil
  | cons command rest ih =>
      obtain ⟨here, later⟩ := List.forall_mem_cons.mp running
      obtain ⟨operation, stands⟩ := operationOf_of_running here
      rw [List.filterMap_cons_some stands]
      exact .cons stands (ih later)

theorem run_represents {platform : Platform} (capable : Capable platform) {calls : List Call}
    (running : ∀ command ∈ calls, command.stops = false) {store : RegisterStore}
    {machine : Machine} (represented : Represents store machine) :
    ∃ values final, runCalls platform calls machine = .ok (values, final) ∧
      Represents (perform emptyPair (calls.filterMap operationOf) store).2 final := by
  have agreed := (refines_lockStep capable).run (described_of_running running) () represented
  rw [run_step] at agreed
  obtain ⟨⟨values, final⟩, ran, _, after⟩ := agreed.ok_left
  exact ⟨values, final, ran, after⟩

/-! The latest write -/

def Call.lowerWrite (bnd : Bnd) : Call → Option Word
  | .processSpecificInit _ => some 0
  | .setbndl _ reg val => if numbered reg = some bnd then some val else none
  | .setbnd reg val => if numbered reg = some bnd then some (lowHalf val) else none
  | .qsetbndl reg val => if numbered reg = some bnd then some val else none
  | _ => none

/-- `qsetbndl` writes the upper half too: its displacement is zero. -/
def Call.upperWrite (bnd : Bnd) : Call → Option Word
  | .processSpecificInit _ => some (BitVec.allOnes 64)
  | .setbndu _ reg val => if numbered reg = some bnd then some val else none
  | .setbnd reg val => if numbered reg = some bnd then some (highHalf val) else none
  | .qsetbndl reg val => if numbered reg = some bnd then some val else none
  | _ => none

def latestLower (calls : List Call) (bnd : Bnd) : Word :=
  (calls.filterMap (Call.lowerWrite bnd)).getLast?.getD 0

def latestUpper (calls : List Call) (bnd : Bnd) : Word :=
  (calls.filterMap (Call.upperWrite bnd)).getLast?.getD (BitVec.allOnes 64)

/-- What a call returns after the calls `before`. -/
def answerAfter (before : List Call) : Call → Returned
  | .processSpecificInit _ => .bool true
  | .getbndl _ reg | .qgetbndl _ reg => .word (((numbered reg).map (latestLower before)).getD 0)
  | .getbndu _ reg => .word (((numbered reg).map (latestUpper before)).getD 0)
  | .getbnd _ reg =>
      .wide (((numbered reg).map fun bnd => latestUpper before bnd ++ latestLower before bnd).getD 0)
  | _ => .void

theorem operationOf_writeAt {command : Call} {operation : Operation Bnd Word}
    (stands : operationOf command = some operation) (bnd : Bnd) :
    operation.writeAt emptyPair bnd = (command.lowerWrite bnd, command.upperWrite bnd) := by
  cases command with
  | processSpecificFinish buffer => simp [operationOf] at stands
  | setbndl rsp reg val | setbndu rsp reg val | setbnd reg val | qsetbndl reg val =>
      obtain rfl := Option.some.inj stands
      simp only [Operation.writeAt, Call.lowerWrite, Call.upperWrite]
      split <;> rfl
  | _ =>
      obtain rfl := Option.some.inj stands
      rfl

theorem filterMap_writes {calls : List Call}
    (running : ∀ command ∈ calls, command.stops = false) (bnd : Bnd) :
    (calls.filterMap operationOf).filterMap (fun operation =>
        (operation.writeAt emptyPair bnd).1) = calls.filterMap (Call.lowerWrite bnd) ∧
      (calls.filterMap operationOf).filterMap (fun operation =>
        (operation.writeAt emptyPair bnd).2) = calls.filterMap (Call.upperWrite bnd) := by
  rw [List.filterMap_filterMap, List.filterMap_filterMap]
  constructor <;>
  · apply List.filterMap_congr
    intro command member
    obtain ⟨operation, stands⟩ := operationOf_of_running (running command member)
    rw [stands, Option.bind_some, operationOf_writeAt stands]

theorem perform_latest {calls : List Call}
    (running : ∀ command ∈ calls, command.stops = false) :
    (perform emptyPair (calls.filterMap operationOf) fun _ => emptyPair).2 =
      fun bnd => { lower := latestLower calls bnd, upper := latestUpper calls bnd } := by
  funext bnd
  obtain ⟨lowers, uppers⟩ := filterMap_writes running bnd
  rw [perform_at, lowers, uppers]
  rfl

theorem returnedOf_latest {command : Call} {operation : Operation Bnd Word}
    (stands : operationOf command = some operation) (before : List Call) :
    returnedOf (PairStore.apply emptyPair
      (fun bnd => { lower := latestLower before bnd, upper := latestUpper before bnd })
      operation).1 = answerAfter before command := by
  cases command with
  | processSpecificFinish buffer => simp [operationOf] at stands
  | getbnd rsp reg =>
      obtain rfl := Option.some.inj stands
      simp only [PairStore.apply, returnedOf, answerAfter, Option.map_map]
      rfl
  | _ =>
      obtain rfl := Option.some.inj stands
      rfl

/-- After a successful start every call returns what the calls before it determine: an accessor the
latest write to the half it reads, whatever register, value or stack pointer is used in between. -/
theorem runCalls_return_latest {platform : Platform} (regs : platform.xcr0.getLsbD 3 = true)
    {buffer : Word} {machine started : Machine}
    (began : callStep platform (.processSpecificInit buffer) machine = .ok (.bool true, started))
    {calls : List Call} (running : ∀ command ∈ calls, command.stops = false) :
    ∃ values final, runCalls platform calls started = .ok (values, final) ∧
      ∀ before command after, calls = before ++ command :: after →
        values[before.length]? = some (answerAfter before command) := by
  obtain ⟨found, on, csr⟩ := init_true began
  have capable : Capable platform := ⟨found, on, regs, csr⟩
  rw [callStep_init found on csr, Except.ok.injEq, Prod.mk.injEq] at began
  have initial : Represents (fun _ => emptyPair) started :=
    began.2 ▸ startedMachine_represents regs buffer machine
  obtain ⟨values, final, ran, -⟩ := run_represents capable running initial
  refine ⟨values, final, ran, ?_⟩
  rintro before command after rfl
  obtain ⟨_, middle, value, next, _, ranBefore, stepped, -, -, here⟩ := RunRules.run_at ran
  obtain ⟨earlier, rest⟩ := List.forall_mem_append.mp running
  obtain ⟨operation, stands⟩ := operationOf_of_running (List.forall_mem_cons.mp rest).1
  obtain ⟨_, middle', ranBefore', represented⟩ := run_represents capable earlier initial
  have ranAlike : runCalls platform before started = _ := ranBefore
  rw [ranAlike, Except.ok.injEq, Prod.mk.injEq] at ranBefore'
  obtain ⟨-, rfl⟩ := ranBefore'
  rw [perform_latest earlier] at represented
  obtain ⟨_, answered, -⟩ := callStep_refines platform (fun _ => capable) stands represented
  rw [stepped, returnedOf_latest stands] at answered
  obtain ⟨rfl, -⟩ := Prod.mk.inj (Except.ok.inj answered)
  exact here

theorem runCalls_return_latest_upper :
    ∃ values final, runCalls capablePlatform [.setbndu 0x7000 1 9, .qsetbndl 1 12, .getbndu 0x7000 1]
        (startedMachine capablePlatform 0x5000 blankMachine) = .ok (values, final) ∧
      values[2]? = some (.word 12) := by
  have started := callStep_init capablePlatform_capable.detected capablePlatform_capable.osxsave
    capablePlatform_capable.bndcsr 0x5000 blankMachine
  obtain ⟨values, final, ran, answers⟩ := @runCalls_return_latest capablePlatform
    capablePlatform_capable.bndregs 0x5000 blankMachine _ started
    [.setbndu 0x7000 1 9, .qsetbndl 1 12, .getbndu 0x7000 1] (by decide)
  exact ⟨values, final, ran,
    answers [.setbndu 0x7000 1 9, .qsetbndl 1 12] (.getbndu 0x7000 1) [] rfl⟩

/-! One register -/

def Call.concerns (bnd : Bnd) (command : Call) : Bool :=
  match operationOf command with
  | some operation => operation.concerns bnd
  | none => false

def SameAt (bnd : Bnd) (machine machine' : Machine) : Prop :=
  ∃ store store' : RegisterStore, Represents store machine ∧ Represents store' machine' ∧
    store bnd = store' bnd

theorem register_component {platform : Platform} (capable : Capable platform) (bnd : Bnd) :
    RunRules.Component (callStep platform) (callStep platform) (fun command => command.stops = false)
      (Option.guard (Call.concerns bnd)) (SameAt bnd) := by
  constructor
  · rintro command command' machine machine' value next running picked
      ⟨store, store', represented, represented', same⟩ stepped
    obtain ⟨rfl, concerned⟩ := Option.guard_eq_some_iff.mp picked
    obtain ⟨operation, stands⟩ := operationOf_of_running running
    simp only [Call.concerns, stands] at concerned
    obtain ⟨reply, after⟩ := apply_concerned concerned emptyPair same
    obtain ⟨_, ran, kept⟩ := callStep_refines platform (fun _ => capable) stands represented
    obtain ⟨next', ran', kept'⟩ := callStep_refines platform (fun _ => capable) stands represented'
    rw [stepped] at ran
    obtain ⟨rfl, rfl⟩ := Prod.mk.inj (Except.ok.inj ran)
    exact ⟨next', by rw [ran', reply], _, _, kept, kept', after⟩
  · rintro command machine machine' value next running left
      ⟨store, store', represented, represented', same⟩ stepped
    obtain ⟨operation, stands⟩ := operationOf_of_running running
    have unconcerned : operation.concerns bnd = false := by
      simpa [Option.guard, Call.concerns, stands] using left
    obtain ⟨_, ran, kept⟩ := callStep_refines platform (fun _ => capable) stands represented
    rw [stepped] at ran
    obtain ⟨-, rfl⟩ := Prod.mk.inj (Except.ok.inj ran)
    exact ⟨_, store', kept, represented', by rw [apply_unconcerned unconcerned, same]⟩

/-- Each register is served as if the calls on the other registers had not been made. -/
theorem registers_served_apart {platform : Platform} (capable : Capable platform)
    {machine : Machine} (enabled : machine.mpx.Enabled) {calls : List Call}
    (running : ∀ command ∈ calls, command.stops = false) :
    ∃ values final, runCalls platform calls machine = .ok (values, final) ∧
      ∀ bnd, ∃ alone, runCalls platform (calls.filter (Call.concerns bnd)) machine =
          .ok (RunRules.valuesOf (Option.guard (Call.concerns bnd)) calls values, alone) ∧
        alone.mpx.bnd bnd = final.mpx.bnd bnd := by
  have initial := storeOf_represents enabled
  obtain ⟨values, final, ran, -⟩ := run_represents capable running initial
  refine ⟨values, final, ran, ?_⟩
  intro bnd
  obtain ⟨alone, ranAlone, store, store', represented, represented', same⟩ :=
    (register_component capable bnd).run running ⟨_, _, initial, initial, rfl⟩ ran
  rw [List.filterMap_eq_filter] at ranAlone
  exact ⟨alone, ranAlone, by rw [represented.pairs, represented'.pairs, same]⟩

theorem registers_served_apart_two :
    ∃ values final, runCalls capablePlatform
        [.setbndl 0x7000 0 5, .qsetbndl 1 7, .getbndl 0x7000 0, .getbndu 0x7000 1]
        (startedMachine capablePlatform 0x5000 blankMachine) = .ok (values, final) ∧
      ∃ alone, runCalls capablePlatform [.qsetbndl 1 7, .getbndu 0x7000 1]
          (startedMachine capablePlatform 0x5000 blankMachine) =
        .ok (RunRules.valuesOf (Option.guard (Call.concerns .bnd1))
          [.setbndl 0x7000 0 5, .qsetbndl 1 7, .getbndl 0x7000 0, .getbndu 0x7000 1] values, alone) ∧
        alone.mpx.bnd .bnd1 = final.mpx.bnd .bnd1 := by
  obtain ⟨values, final, ran, apart⟩ := @registers_served_apart capablePlatform
    capablePlatform_capable _ (startedMachine_enabled capablePlatform 0x5000 blankMachine)
    [.setbndl 0x7000 0 5, .qsetbndl 1 7, .getbndl 0x7000 0, .getbndu 0x7000 1] (by decide)
  exact ⟨values, final, ran, apart .bnd1⟩

end SimplexMpx
