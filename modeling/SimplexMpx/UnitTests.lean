import SimplexMpx.UnitTestsCore
import SimplexMpx.RegisterStore
import SimplexMpx.Visible

/-!
What the unit tests tell: all their assertions hold where MPX is enabled, and every test but the one
of the quick functions has an assertion that fails where it is not. CUnit is assumed to leave the MPX
configuration alone, and where MPX is off also the slot a test reads from.
-/

namespace SimplexMpx

open ByteMemory PairStore

namespace SimplexTest

def Passes (outcome : Except Fault (Asserted × Machine)) : Prop :=
  ∃ asserted final, outcome = .ok (asserted, final) ∧ ∀ holds ∈ asserted, holds = true

/-! CUnit -/

namespace CUnit

structure KeepsConfiguration (cunit : CUnit) : Prop where
  asserted : ∀ outcome machine,
    (cunit.asserted outcome machine).mpx.bndcfgu = machine.mpx.bndcfgu
  dispatch : ∀ machine, (cunit.dispatch machine).mpx.bndcfgu = machine.mpx.bndcfgu

/-- The call for an assertion that holds does not reach down to the slot. -/
def KeepsSlot (cunit : CUnit) (rsp : Word) : Prop :=
  ∀ machine address, InSlot rsp address →
    (cunit.asserted true machine).mem address = machine.mem address

variable {cunit : CUnit} (configured : cunit.KeepsConfiguration)
include configured

theorem KeepsConfiguration.assertAll (outcomes : Asserted) (machine : Machine) :
    (cunit.assertAll outcomes machine).mpx.bndcfgu = machine.mpx.bndcfgu := by
  induction outcomes generalizing machine with
  | nil => rfl
  | cons outcome rest ih => exact (ih _).trans (configured.asserted outcome machine)

theorem KeepsConfiguration.dispatch_enabled {machine : Machine} (enabled : machine.mpx.Enabled) :
    (cunit.dispatch machine).mpx.Enabled :=
  enabled_of_bndcfgu_eq (configured.dispatch machine) enabled

theorem KeepsConfiguration.dispatch_disabled {machine : Machine}
    (disabled : ¬machine.mpx.Enabled) : ¬(cunit.dispatch machine).mpx.Enabled :=
  fun enabled => disabled (enabled_of_bndcfgu_eq (configured.dispatch machine).symm enabled)

theorem KeepsConfiguration.assertAll_disabled {machine : Machine}
    (disabled : ¬machine.mpx.Enabled) (outcomes : Asserted) :
    ¬(cunit.assertAll outcomes machine).mpx.Enabled :=
  fun enabled => disabled
    (enabled_of_bndcfgu_eq (configured.assertAll outcomes machine).symm enabled)

end CUnit

variable {cunit : CUnit}

/-! While MPX is enabled -/

section Enabled

variable (configured : cunit.KeepsConfiguration) (platform : Platform) {machine : Machine}

theorem registerCalls_refine {calls : List Call}
    (register : ∀ command ∈ calls, command.isRegisterCall = true) {store : RegisterStore}
    (represented : Represents store machine) :
    ∃ final, runCalls platform calls machine =
        .ok ((perform emptyPair (calls.filterMap operationOf) store).1.map returnedOf, final) ∧
      Represents (perform emptyPair (calls.filterMap operationOf) store).2 final := by
  induction calls generalizing store machine with
  | nil => exact ⟨machine, rfl, represented⟩
  | cons command rest ih =>
      obtain ⟨here, later⟩ := List.forall_mem_cons.mp register
      obtain ⟨operation, stands, writes⟩ : ∃ operation, operationOf command = some operation ∧
          operation ≠ .reset := by
        cases command <;> simp_all [operationOf, Call.isRegisterCall]
      obtain ⟨next, stepped, after⟩ := callStep_refines platform
        (fun resets => absurd (Option.some.inj (stands.symm.trans resets)) writes) stands
        represented
      obtain ⟨final, continued, represents⟩ := ih later after
      rw [List.filterMap_cons_some stands]
      exact ⟨final, RunRules.run_cons_ok_iff.mpr ⟨_, next, _, stepped, continued, rfl⟩, represents⟩

structure Sound (round : Round) : Prop where
  sets : ∀ command ∈ round.sets, command.isRegisterCall = true
  gets : ∀ command ∈ round.gets.map Prod.fst, command.isRegisterCall = true
  expects : ∀ store : RegisterStore,
    (perform emptyPair ((round.gets.map Prod.fst).filterMap operationOf)
      (perform emptyPair (round.sets.filterMap operationOf) store).2).1.map returnedOf =
      round.gets.map Prod.snd

include configured in
theorem round_passes {round : Round} (sound : Sound round) (enabled : machine.mpx.Enabled) :
    ∃ asserted next, roundStep cunit platform round machine = .ok (asserted, next) ∧
      next.mpx.Enabled ∧ ∀ holds ∈ asserted, holds = true := by
  obtain ⟨middle, written, represented⟩ :=
    registerCalls_refine platform sound.sets (storeOf_represents enabled)
  obtain ⟨final, read, represents⟩ := registerCalls_refine platform sound.gets represented
  have still := enabled_of_bndcfgu_eq
    (configured.assertAll (round.assertEqual (round.gets.map Prod.snd)) final) represents.enabled
  refine ⟨round.assertEqual (round.gets.map Prod.snd), _, ?_, still, ?_⟩
  · simp only [roundStep, written, bind, Except.bind, read, sound.expects]
    rfl
  · rw [Round.assertEqual, List.zipWith_self]
    simp

/-! The eight tests -/

theorem registers_valid {reg : BndregT} (member : reg ∈ registers) :
    ∃ bnd, switchReg reg = some bnd := by
  simp only [registers, List.mem_cons, List.not_mem_nil, or_false] at member
  rcases member with rfl | rfl | rfl | rfl <;> exact ⟨_, rfl⟩

theorem unitTest_sound (test : UnitTest) (stack : TestStack) {round : Round}
    (member : round ∈ test.rounds stack) : Sound round := by
  cases test <;> obtain ⟨reg, among, rfl⟩ := List.mem_map.mp member <;>
    obtain ⟨bnd, named⟩ := registers_valid among <;>
    refine ⟨by simp [Call.isRegisterCall], by simp [Call.isRegisterCall], fun store => ?_⟩ <;>
    simp [operationOf, perform, apply, returnedOf, named, joined_halves]

end Enabled

theorem flattened_holds {Item : Type} {step : Item → Machine → Except Fault (Asserted × Machine)}
    {items : List Item} {Kept : Machine → Prop}
    (each : ∀ item ∈ items, ∀ before, Kept before → ∃ asserted next,
      step item before = .ok (asserted, next) ∧ Kept next ∧ ∀ holds ∈ asserted, holds = true)
    {machine : Machine} (initial : Kept machine) :
    ∃ lists final, RunRules.run step items machine = .ok (lists, final) ∧ Kept final ∧
      ∀ holds ∈ lists.flatten, holds = true := by
  obtain ⟨lists, final, ran, kept, held⟩ := RunRules.run_meets each initial
  refine ⟨lists, final, ran, kept, ?_⟩
  intro holds member
  obtain ⟨here, among, inside⟩ := List.mem_flatten.mp member
  exact held here among holds inside

section Passing

variable (configured : cunit.KeepsConfiguration) (platform : Platform)
include configured

theorem rounds_pass {rounds : List Round}
    (sound : ∀ round ∈ rounds, Sound round) {machine : Machine} (enabled : machine.mpx.Enabled) :
    ∃ asserted final, runRounds cunit platform rounds machine = .ok (asserted, final) ∧
      final.mpx.Enabled ∧ ∀ holds ∈ asserted, holds = true := by
  have each : ∀ round ∈ rounds, ∀ before : Machine, before.mpx.Enabled →
      ∃ asserted next, roundStep cunit platform round before = .ok (asserted, next) ∧
        next.mpx.Enabled ∧ ∀ holds ∈ asserted, holds = true :=
    fun round member _ on => round_passes configured platform (sound round member) on
  obtain ⟨lists, final, ran, kept, held⟩ := flattened_holds each enabled
  exact ⟨lists.flatten, final, by simp only [runRounds, ran]; rfl, kept, held⟩

omit configured in
theorem resetBndRegs_register (stack : TestStack) :
    ∀ command ∈ resetBndRegs stack, command.isRegisterCall = true := by
  simp [resetBndRegs, registers, Call.isRegisterCall]

theorem test_passes (test : UnitTest × TestStack) {machine : Machine}
    (enabled : machine.mpx.Enabled) :
    ∃ asserted final, testStep cunit platform test machine = .ok (asserted, final) ∧
      final.mpx.Enabled ∧ ∀ holds ∈ asserted, holds = true := by
  obtain ⟨reset, cleared, represents⟩ := registerCalls_refine platform
    (resetBndRegs_register test.2) (storeOf_represents (configured.dispatch_enabled enabled))
  obtain ⟨asserted, final, ran, kept, held⟩ := rounds_pass configured platform
    (fun _ member => unitTest_sound test.1 test.2 member)
    (configured.dispatch_enabled represents.enabled)
  refine ⟨asserted, final, ?_, kept, held⟩
  simp only [testStep, cleared]
  exact ran

theorem tests_pass (tests : List (UnitTest × TestStack)) {machine : Machine}
    (enabled : machine.mpx.Enabled) :
    ∃ asserted final, runTests cunit platform tests machine = .ok (asserted, final) ∧
      final.mpx.Enabled ∧ ∀ holds ∈ asserted, holds = true := by
  have each : ∀ test ∈ tests, ∀ before : Machine, before.mpx.Enabled →
      ∃ asserted next, testStep cunit platform test before = .ok (asserted, next) ∧
        next.mpx.Enabled ∧ ∀ holds ∈ asserted, holds = true :=
    fun test _ _ on => test_passes configured platform test on
  obtain ⟨lists, final, ran, kept, held⟩ := flattened_holds each enabled
  exact ⟨lists.flatten, final, by simp only [runTests, ran]; rfl, kept, held⟩

end Passing

/-! Where MPX is not enabled -/

/-- Off or reset by every branch: a register is read as a scrubbed slot or as an initial pair. -/
structure Blank (slot : Word) (machine : Machine) : Prop where
  disabled : ¬machine.mpx.Enabled
  scrubbed : ∀ address, InSlot slot address → machine.mem address = 0

/-- The calls that leave a slot of zeros alone, wherever they put their own. -/
def LeavesZeros (command : Call) : Prop :=
  command.isRegisterCall = true ∧ command.isQuickGet = false

inductive Reads (slot : Word) : Call → (BndPair → Returned) → Prop
  | getbndl {reg : BndregT} {bnd : Bnd} : switchReg reg = some bnd →
      Reads slot (.getbndl slot reg) fun pair => .word pair.lb
  | getbndu {reg : BndregT} {bnd : Bnd} : switchReg reg = some bnd →
      Reads slot (.getbndu slot reg) fun pair => .word (~~~pair.ub)
  | getbnd {reg : BndregT} {bnd : Bnd} : switchReg reg = some bnd →
      Reads slot (.getbnd slot reg) fun pair => .wide (wideOf pair)

section Disabled

variable {platform : Platform} {slot : Word} {machine next : Machine} {command : Call}
  {value : Returned} {decode : BndPair → Returned}

theorem registerCall_disabled (register : command.isRegisterCall = true)
    (disabled : ¬machine.mpx.Enabled)
    (called : callStep platform command machine = .ok (value, next)) : ¬next.mpx.Enabled :=
  fun enabled => disabled
    (enabled_of_bndcfgu_eq (callStep_bndcfgu platform register called).symm enabled)

theorem blank_kept (leaves : LeavesZeros command) (blank : Blank slot machine)
    (called : callStep platform command machine = .ok (value, next)) : Blank slot next := by
  refine ⟨registerCall_disabled leaves.1 blank.disabled called, ?_⟩
  intro address inside
  obtain ⟨value', next', stepped, bytes⟩ := callStep_byte platform leaves.1 machine
  rw [called] at stepped
  obtain ⟨_, rfl⟩ := Prod.mk.inj (Except.ok.inj stepped)
  by_cases clears : Clears command address
  · exact (bytes address).1 clears
  · have spills : ¬Spills command address := by
      have slow := leaves.2
      cases command <;> simp_all [Spills, Call.isQuickGet]
    rw [(bytes address).2 clears spills, blank.scrubbed address inside]

theorem Reads.leaves (reads : Reads slot command decode) : LeavesZeros command := by
  cases reads <;> exact ⟨rfl, rfl⟩

theorem Reads.clears (reads : Reads slot command decode) {address : Word}
    (inside : InSlot slot address) : Clears command address := by
  cases reads <;> rename_i named <;> exact ⟨by rw [named]; rfl, inside⟩

theorem blank_after (reads : Reads slot command decode) (disabled : ¬machine.mpx.Enabled)
    (called : callStep platform command machine = .ok (value, next)) : Blank slot next := by
  refine ⟨registerCall_disabled reads.leaves.1 disabled called, ?_⟩
  intro address inside
  obtain ⟨value', next', stepped, bytes⟩ := callStep_byte platform reads.leaves.1 machine
  rw [called] at stepped
  obtain ⟨_, rfl⟩ := Prod.mk.inj (Except.ok.inj stepped)
  exact (bytes address).1 (reads.clears inside)

theorem spilledPair_reset (on : machine.mpx.en = true) (disabled : ¬machine.mpx.Enabled)
    (bnd : Bnd) (slot : Word) : spilledPair bnd slot machine.nearBranch = initPair := by
  have resets : machine.mpx.bndpreserve = false :=
    Bool.not_eq_true _ ▸ fun preserve => disabled ⟨on, preserve⟩
  rw [spilledPair_of_en (by rwa [Machine.nearBranch_en])]
  simp [Machine.nearBranch, on, resets]

theorem spilledPair_blank (blank : Blank slot machine) (bnd : Bnd) :
    spilledPair bnd slot machine.nearBranch = initPair := by
  by_cases on : machine.mpx.en = true
  · exact spilledPair_reset on blank.disabled bnd slot
  · have off : machine.mpx.en = false := Bool.not_eq_true _ ▸ on
    have zero : ∀ word, (∀ address, Within word 8 address → InSlot slot address) →
        machine.load word = 0 := by
      intro word inside
      rw [Machine.load, ← load64_zero word]
      exact load64_congr fun address member => blank.scrubbed address (inside address member)
    rw [Machine.nearBranch_of_off off, spilledPair_of_off off, upperSlot_eq,
      zero (slot - 0x80) fun address member => (Machine.within_sixteen _ _).mpr (Or.inl member),
      zero (slot - 0x80 + 8) fun address member => (Machine.within_sixteen _ _).mpr (Or.inr member)]
    rfl

theorem call_reads {α : Type} {returned : α → Returned} {body : Machine → α × Machine}
    {invalid : α} {read : BndPair → α} {reg : BndregT} {bnd : Bnd} {after : Machine → Machine}
    (shape : ∀ before, body before = (accessed invalid read slot reg before, after before))
    (named : switchReg reg = some bnd)
    (called : call returned body machine = .ok (value, next)) :
    value = returned (read (spilledPair bnd slot machine.nearBranch)) := by
  have returns : returned (machine.nearCall body).1 = value :=
    congrArg Prod.fst (Except.ok.inj called)
  rw [← returns, Machine.nearCall, shape, accessed, named]

theorem reads_blank (reads : Reads slot command decode) (blank : Blank slot machine)
    (called : callStep platform command machine = .ok (value, next)) : value = decode initPair := by
  cases reads with
  | getbndl named => rw [call_reads (getbndl_eq slot _) named called, spilledPair_blank blank]
  | getbndu named => rw [call_reads (getbndu_eq slot _) named called, spilledPair_blank blank]
  | getbnd named => rw [call_reads (getbnd_eq slot _) named called, spilledPair_blank blank]

theorem runCalls_blank {calls : List Call} (leaves : ∀ command ∈ calls, LeavesZeros command)
    {values : List Returned} (blank : Blank slot machine)
    (ran : runCalls platform calls machine = .ok (values, next)) : Blank slot next :=
  RunRules.run_invariant (fun _ _ _ _ quiet before called => blank_kept quiet before called)
    (RunRules.along_of_forall (fun command member _ => leaves command member) machine) blank ran

theorem runCalls_disabled {calls : List Call}
    (register : ∀ command ∈ calls, command.isRegisterCall = true) {values : List Returned}
    (disabled : ¬machine.mpx.Enabled)
    (ran : runCalls platform calls machine = .ok (values, next)) : ¬next.mpx.Enabled :=
  RunRules.run_invariant
    (fun _ _ _ _ register before called => (registerCall_disabled register before called : ¬_))
    (RunRules.along_of_forall (fun command member _ => register command member) machine) disabled
    ran

end Disabled

section Failing

variable {platform : Platform} {slot : Word} {machine next : Machine} {asserted : Asserted}
  {round : Round}

theorem roundStep_cases (ran : roundStep cunit platform round machine = .ok (asserted, next)) :
    ∃ values middle results last, runCalls platform round.sets machine = .ok (values, middle) ∧
      runCalls platform (round.gets.map Prod.fst) middle = .ok (results, last) ∧
      asserted = round.assertEqual results ∧ next = cunit.assertAll asserted last := by
  obtain ⟨⟨values, middle⟩, written, continued⟩ := RunRules.bind_ok_iff.mp ran
  obtain ⟨⟨results, last⟩, read, ended⟩ := RunRules.bind_ok_iff.mp continued
  obtain ⟨rfl, rfl⟩ := Prod.mk.inj (Except.ok.inj ended)
  exact ⟨values, middle, results, last, written, read, rfl, rfl⟩

theorem runRounds_cases {rounds : List Round}
    (ran : runRounds cunit platform rounds machine = .ok (asserted, next)) :
    ∃ lists, RunRules.run (roundStep cunit platform) rounds machine = .ok (lists, next) ∧
      asserted = lists.flatten := by
  obtain ⟨⟨lists, final⟩, went, ended⟩ := RunRules.bind_ok_iff.mp ran
  obtain ⟨rfl, rfl⟩ := Prod.mk.inj (Except.ok.inj ended)
  exact ⟨lists, went, rfl⟩

theorem testStep_cases {test : UnitTest × TestStack}
    (ran : testStep cunit platform test machine = .ok (asserted, next)) :
    ∃ values middle, runCalls platform (resetBndRegs test.2) (cunit.dispatch machine) =
        .ok (values, middle) ∧
      runRounds cunit platform (test.1.rounds test.2) (cunit.dispatch middle) =
        .ok (asserted, next) := by
  obtain ⟨⟨values, middle⟩, reset, continued⟩ := RunRules.bind_ok_iff.mp ran
  exact ⟨values, middle, reset, continued⟩

/-- The first value a round reads is not the one expected of an initial pair. -/
structure Telling (slot : Word) (round : Round) : Prop where
  sets : ∀ command ∈ round.sets, LeavesZeros command
  reads : ∃ command decode expected rest, round.gets = (command, expected) :: rest ∧
    Reads slot command decode ∧ decode initPair ≠ expected ∧ ∀ get ∈ rest, LeavesZeros get.1

theorem assertAll_blank (configured : cunit.KeepsConfiguration) (kept : cunit.KeepsSlot slot)
    {outcomes : Asserted} (holding : ∀ outcome ∈ outcomes, outcome = true)
    (blank : Blank slot machine) : Blank slot (cunit.assertAll outcomes machine) := by
  refine ⟨configured.assertAll_disabled blank.disabled outcomes, ?_⟩
  intro address inside
  rw [← blank.scrubbed address inside]
  induction outcomes generalizing machine with
  | nil => rfl
  | cons outcome rest ih =>
      obtain ⟨rfl, later⟩ := List.forall_mem_cons.mp holding
      have same := kept machine address inside
      have still : Blank slot (cunit.asserted true machine) := by
        refine ⟨configured.assertAll_disabled blank.disabled [true], ?_⟩
        intro other member
        rw [kept machine other member, blank.scrubbed other member]
      exact (ih later still).trans same

theorem telling_blank (configured : cunit.KeepsConfiguration) (kept : cunit.KeepsSlot slot)
    (telling : Telling slot round) (disabled : ¬machine.mpx.Enabled)
    (ran : roundStep cunit platform round machine = .ok (asserted, next))
    (holding : ∀ outcome ∈ asserted, outcome = true) : Blank slot next := by
  obtain ⟨values, middle, results, last, written, read, -, rfl⟩ := roundStep_cases ran
  obtain ⟨command, decode, expected, rest, shape, reads, -, leaves⟩ := telling.reads
  have after := runCalls_disabled (fun command member => (telling.sets command member).1) disabled
    written
  rw [shape, List.map_cons] at read
  obtain ⟨value, scrubbed, others, called, continued, -⟩ := RunRules.run_cons_ok_iff.mp read
  refine assertAll_blank configured kept holding
    (runCalls_blank ?_ (blank_after reads after called) continued)
  intro other member
  obtain ⟨get, among, rfl⟩ := List.mem_map.mp member
  exact leaves get among

theorem telling_fails (telling : Telling slot round) (blank : Blank slot machine)
    (ran : roundStep cunit platform round machine = .ok (asserted, next)) : false ∈ asserted := by
  obtain ⟨values, middle, results, last, written, read, rfl, -⟩ := roundStep_cases ran
  obtain ⟨command, decode, expected, rest, shape, reads, differs, -⟩ := telling.reads
  have still := runCalls_blank telling.sets blank written
  rw [shape, List.map_cons] at read
  obtain ⟨value, scrubbed, others, called, -, rfl⟩ := RunRules.run_cons_ok_iff.mp read
  rw [Round.assertEqual, shape, List.map_cons, List.zipWith_cons_cons,
    reads_blank reads still called, decide_eq_false differs]
  exact List.mem_cons_self

theorem rounds_fail {first second : Round} {rest : List Round}
    (configured : cunit.KeepsConfiguration) (kept : cunit.KeepsSlot slot)
    (one : Telling slot first) (two : Telling slot second) (disabled : ¬machine.mpx.Enabled)
    (ran : runRounds cunit platform (first :: second :: rest) machine = .ok (asserted, next)) :
    false ∈ asserted := by
  obtain ⟨lists, went, rfl⟩ := runRounds_cases ran
  obtain ⟨held, middle, others, began, continued, rfl⟩ := RunRules.run_cons_ok_iff.mp went
  obtain ⟨held', last, others', followed, -, rfl⟩ := RunRules.run_cons_ok_iff.mp continued
  by_cases failed : false ∈ held
  · exact List.mem_flatten.mpr ⟨held, by simp, failed⟩
  · have holding : ∀ outcome ∈ held, outcome = true := by
      intro outcome member
      cases outcome with
      | true => rfl
      | false => exact absurd member failed
    have blank := telling_blank configured kept one disabled began holding
    exact List.mem_flatten.mpr ⟨held', by simp, telling_fails two blank followed⟩

def UnitTest.reader : UnitTest → TestStack → Word
  | .upperHalf => TestStack.getbndu
  | .wide => TestStack.getbnd
  | .quick => TestStack.qgetbndl
  | _ => TestStack.getbndl

theorem unitTest_telling {test : UnitTest} (slow : test ≠ .quick) (stack : TestStack)
    (member : round ∈ test.rounds stack) : Telling (test.reader stack) round := by
  have wide : wideOf { lb := 0#64, ub := 0#64 } ≠ wideValue := by decide
  cases test <;> first | exact absurd rfl slow | skip
  all_goals
    obtain ⟨reg, among, rfl⟩ := List.mem_map.mp member
    obtain ⟨bnd, named⟩ := registers_valid among
    refine ⟨by simp [LeavesZeros, Call.isRegisterCall, Call.isQuickGet], _, _, _, _, rfl,
      by constructor; exact named, by simp [initPair, wide],
      by simp [LeavesZeros, Call.isRegisterCall, Call.isQuickGet]⟩

theorem unitTest_rounds (test : UnitTest) (stack : TestStack) :
    ∃ first second rest, test.rounds stack = first :: second :: rest := by
  cases test <;> exact ⟨_, _, _, rfl⟩

section Configured

variable (configured : cunit.KeepsConfiguration) {test : UnitTest × TestStack}
include configured

theorem test_fails (slow : test.1 ≠ .quick) (kept : cunit.KeepsSlot (test.1.reader test.2))
    (disabled : ¬machine.mpx.Enabled)
    (ran : testStep cunit platform test machine = .ok (asserted, next)) : false ∈ asserted := by
  obtain ⟨values, middle, reset, continued⟩ := testStep_cases ran
  have after := configured.dispatch_disabled (runCalls_disabled (resetBndRegs_register test.2)
    (configured.dispatch_disabled disabled) reset)
  obtain ⟨first, second, rest, shape⟩ := unitTest_rounds test.1 test.2
  have telling : ∀ round ∈ test.1.rounds test.2, Telling (test.1.reader test.2) round :=
    fun _ member => unitTest_telling slow test.2 member
  rw [shape] at telling continued
  exact rounds_fail configured kept (telling first (by simp)) (telling second (by simp)) after
    continued

theorem round_disabled (sound : Sound round) (disabled : ¬machine.mpx.Enabled)
    (ran : roundStep cunit platform round machine = .ok (asserted, next)) : ¬next.mpx.Enabled := by
  obtain ⟨values, middle, results, last, written, read, -, rfl⟩ := roundStep_cases ran
  exact configured.assertAll_disabled
    (runCalls_disabled sound.gets (runCalls_disabled sound.sets disabled written) read) _

theorem test_disabled (disabled : ¬machine.mpx.Enabled)
    (ran : testStep cunit platform test machine = .ok (asserted, next)) : ¬next.mpx.Enabled := by
  obtain ⟨values, middle, reset, continued⟩ := testStep_cases ran
  obtain ⟨lists, went, -⟩ := runRounds_cases continued
  have after := configured.dispatch_disabled (runCalls_disabled (resetBndRegs_register test.2)
    (configured.dispatch_disabled disabled) reset)
  have kept : ∀ round (before : Machine) held (next : Machine),
      round ∈ test.1.rounds test.2 → ¬before.mpx.Enabled →
      roundStep cunit platform round before = .ok (held, next) → ¬next.mpx.Enabled :=
    fun _ _ _ _ member off stepped =>
      round_disabled configured (unitTest_sound test.1 test.2 member) off stepped
  exact RunRules.run_invariant kept
    (RunRules.along_of_forall (fun round member _ => member) (cunit.dispatch middle)) after went

end Configured

end Failing

/-- The tests tell whether MPX is enabled, on any processor, whatever the stack and the registers
hold. -/
theorem tests_pass_iff_enabled (platform : Platform) (configured : cunit.KeepsConfiguration)
    {tests : List (UnitTest × TestStack)}
    (telling : ∃ test ∈ tests, test.1 ≠ .quick ∧ cunit.KeepsSlot (test.1.reader test.2))
    (machine : Machine) :
    Passes (runTests cunit platform tests machine) ↔ machine.mpx.Enabled := by
  constructor
  · rintro ⟨asserted, final, ran, held⟩
    by_contra disabled
    obtain ⟨test, member, slow, spared⟩ := telling
    obtain ⟨before, after, rfl⟩ := List.append_of_mem member
    obtain ⟨⟨lists, last⟩, went, ended⟩ := RunRules.bind_ok_iff.mp ran
    obtain ⟨rfl, -⟩ := Prod.mk.inj (Except.ok.inj ended)
    obtain ⟨front, middle, here, next, back, ranBefore, stepped, -, rfl, -⟩ := RunRules.run_at went
    have off : ¬middle.mpx.Enabled := by
      have kept : ∀ test (before : Machine) held (next : Machine), True → ¬before.mpx.Enabled →
          testStep cunit platform test before = .ok (held, next) → ¬next.mpx.Enabled :=
        fun _ _ _ _ _ off stepped => test_disabled configured off stepped
      exact RunRules.run_invariant kept (RunRules.along_of_forall (fun _ _ _ => trivial) machine)
        disabled ranBefore
    have failed := held false
      (List.mem_flatten.mpr ⟨here, by simp, test_fails configured slow spared off stepped⟩)
    contradiction
  · intro enabled
    obtain ⟨asserted, final, ran, -, held⟩ := tests_pass configured platform tests enabled
    exact ⟨asserted, final, ran, held⟩

/-- A CUnit whose calls branch and write below the stack pointer of the test: little for an
assertion that holds, and more for one that is to be recorded. -/
def framedCUnit (rsp : Word) : CUnit where
  asserted outcome machine :=
    let depth := if outcome then 0x60 else 0x400
    let machine := machine.nearBranch
    { machine with mem := fill machine.mem (rsp - BitVec.ofNat 64 depth) depth 0xcc }
  dispatch machine :=
    let machine := machine.nearBranch
    { machine with mem := fill machine.mem (rsp - 0x400) 0x400 0xcc }

theorem framedCUnit_configured (rsp : Word) : (framedCUnit rsp).KeepsConfiguration :=
  ⟨fun _ machine => Machine.nearBranch_bndcfgu machine, Machine.nearBranch_bndcfgu⟩

def sampleStack : TestStack where
  getbndl := 0x6ff8
  getbndu := 0x6ff8
  getbnd := 0x6ff0
  qgetbndl := 0x6ff8
  setbndl := 0x6fd8
  setbndu := 0x6fd8
  resetSetbndl := 0x6f88
  resetSetbndu := 0x6f88

theorem framedCUnit_keepsSlot {slot : Word} (near : slot = 0x6ff8 ∨ slot = 0x6ff0) :
    (framedCUnit 0x7000).KeepsSlot slot := by
  intro machine address inside
  have apart : ¬Within (0x7000 - BitVec.ofNat 64 0x60 : Word) 0x60 address := by
    simp only [InSlot, Within] at inside ⊢
    rcases near with rfl | rfl <;> bv_omega
  exact (fill_outside apart _ _).trans (congrFun (Machine.nearBranch_mem machine) address)

theorem tests_pass_iff_enabled_suite :
    ¬Passes (runTests (framedCUnit 0x7000) capablePlatform
        (simplexSuite.map fun test => (test, sampleStack)) blankMachine) := by
  have telling : ∃ test ∈ simplexSuite.map fun test => (test, sampleStack),
      test.1 ≠ .quick ∧ (framedCUnit 0x7000).KeepsSlot (test.1.reader test.2) :=
    ⟨(.lowerHalf, sampleStack), by simp [simplexSuite], by simp,
      framedCUnit_keepsSlot (Or.inl rfl)⟩
  intro passes
  have enabled := (tests_pass_iff_enabled capablePlatform (framedCUnit_configured 0x7000) telling
    blankMachine).mp passes
  exact absurd enabled.1 (by decide)

/-! The test of the quick functions -/

section Quick

variable {platform : Platform} {machine next : Machine} {asserted : Asserted}

def quickRound (slot val : Word) (reg : BndregT) : Round :=
  { sets := [.qsetbndl reg val], gets := [(.qgetbndl slot reg, .word val)] }

theorem quickRound_off (off : machine.mpx.en = false) {reg : BndregT} {bnd : Bnd}
    (named : switchReg reg = some bnd) (slot val : Word) :
    roundStep cunit platform (quickRound slot val reg) machine =
      .ok ([decide (machine.load (slot - 0x80) = val)],
        cunit.asserted (decide (machine.load (slot - 0x80) = val)) machine) := by
  have written : callStep platform (.qsetbndl reg val) machine = .ok (.void, machine) := by
    simp [callStep, call, Machine.nearCall, procedure, qsetbndl_eq, writePair, named,
      Machine.nearBranch_of_off off, Machine.bndmk, off]
  have read : callStep platform (.qgetbndl slot reg) machine =
      .ok (.word (machine.load (slot - 0x80)), machine) := by
    simp [callStep, call, Machine.nearCall, qgetbndl_eq, accessed, afterQuickAccess, named,
      Machine.nearBranch_of_off off, spilledPair_of_off off, Machine.spilled, Machine.bndmov, off]
  simp [roundStep, quickRound, RunRules.run, written, read, Round.assertEqual, CUnit.assertAll, bind,
    Except.bind, pure, Except.pure]

theorem quickRound_reset (on : machine.mpx.en = true) (disabled : ¬machine.mpx.Enabled)
    {reg : BndregT} {bnd : Bnd} (named : switchReg reg = some bnd) {slot val : Word}
    (nonzero : val ≠ 0)
    (ran : roundStep cunit platform (quickRound slot val reg) machine = .ok (asserted, next)) :
    false ∈ asserted := by
  obtain ⟨values, middle, results, last, written, read, rfl, -⟩ := roundStep_cases ran
  obtain ⟨value, final, others, called, -, rfl⟩ := RunRules.run_cons_ok_iff.mp read
  have register : ∀ command ∈ (quickRound slot val reg).sets, command.isRegisterCall = true := by
    simp [quickRound, Call.isRegisterCall]
  have after := runCalls_disabled register disabled written
  have config : middle.mpx.bndcfgu = machine.mpx.bndcfgu := by
    obtain ⟨value', next', others', stepped, ended, -⟩ := RunRules.run_cons_ok_iff.mp written
    obtain ⟨-, rfl⟩ := Prod.mk.inj (Except.ok.inj ended)
    exact callStep_bndcfgu platform rfl stepped
  have still : middle.mpx.en = true := by rwa [MpxState.en, config]
  rw [call_reads (qgetbndl_eq slot reg) named called, spilledPair_reset still after]
  simpa [Round.assertEqual, quickRound, initPair] using Ne.symm nonzero

theorem testQuick_eq (stack : TestStack) :
    testQuick stack = registers.map (quickRound stack.qgetbndl 0xDEADBEEFDEADBEEF) := rfl

theorem passes_cons_iff {first : Round} {rest : List Round} {outcomes : Asserted}
    (stepped : roundStep cunit platform first machine = .ok (outcomes, next)) :
    Passes (runRounds cunit platform (first :: rest) machine) ↔
      (∀ outcome ∈ outcomes, outcome = true) ∧ Passes (runRounds cunit platform rest next) := by
  constructor
  · rintro ⟨asserted, final, ran, held⟩
    obtain ⟨lists, went, rfl⟩ := runRounds_cases ran
    obtain ⟨here, middle, others, began, continued, rfl⟩ := RunRules.run_cons_ok_iff.mp went
    obtain ⟨rfl, rfl⟩ := Prod.mk.inj (Except.ok.inj (stepped.symm.trans began))
    rw [List.flatten_cons] at held
    refine ⟨fun outcome member => held outcome (List.mem_append_left _ member), others.flatten,
      final, ?_, fun outcome member => held outcome (List.mem_append_right _ member)⟩
    simp only [runRounds, continued]
    rfl
  · rintro ⟨here, asserted, final, ran, held⟩
    obtain ⟨others, continued, rfl⟩ := runRounds_cases ran
    have went := RunRules.run_cons_ok_iff.mpr ⟨outcomes, next, others, stepped, continued, rfl⟩
    refine ⟨(outcomes :: others).flatten, final, by simp only [runRounds, went]; rfl, ?_⟩
    rw [List.flatten_cons]
    intro outcome member
    exact (List.mem_append.mp member).elim (here outcome) (held outcome)

theorem quickRounds_off_iff (configured : cunit.KeepsConfiguration) {regs : List BndregT}
    (valid : ∀ reg ∈ regs, ∃ bnd, switchReg reg = some bnd) (off : machine.mpx.en = false)
    (slot val : Word) :
    Passes (runRounds cunit platform (regs.map (quickRound slot val)) machine) ↔
      ∀ round < regs.length, ((cunit.asserted true)^[round] machine).load (slot - 0x80) = val := by
  induction regs generalizing machine with
  | nil =>
      exact ⟨fun _ _ none => absurd none (Nat.not_lt_zero _),
        fun _ => ⟨[], machine, rfl, fun _ member => absurd member List.not_mem_nil⟩⟩
  | cons reg rest ih =>
      obtain ⟨⟨bnd, named⟩, later⟩ := List.forall_mem_cons.mp valid
      rw [List.map_cons, passes_cons_iff (quickRound_off off named slot val), List.length_cons,
        Nat.forall_lt_succ_left, List.forall_mem_singleton, decide_eq_true_eq,
        Function.iterate_zero, id]
      refine and_congr_right fun holds => ?_
      have still : (cunit.asserted true machine).mpx.en = false := by
        rw [MpxState.en, configured.asserted, ← MpxState.en, off]
      rw [holds, decide_eq_true rfl, ih later still]
      simp only [Function.iterate_succ_apply]

theorem iterate_keepsSlot {rsp : Word} (kept : cunit.KeepsSlot rsp) (count : Nat) :
    ((cunit.asserted true)^[count] machine).load (rsp - 0x80) = machine.load (rsp - 0x80) := by
  induction count generalizing machine with
  | zero => rfl
  | succ count ih =>
      rw [Function.iterate_succ_apply, ih]
      exact load64_congr fun address inside =>
        kept machine address ((Machine.within_sixteen _ _).mpr (Or.inl inside))

theorem quick_passes_exactly (configured : cunit.KeepsConfiguration) (stack : TestStack) :
    Passes (runRounds cunit platform (testQuick stack) machine) ↔
      machine.mpx.Enabled ∨ machine.mpx.en = false ∧ ∀ round < 4,
        ((cunit.asserted true)^[round] machine).load (stack.qgetbndl - 0x80) =
          0xDEADBEEFDEADBEEF := by
  have valid : ∀ reg ∈ registers, ∃ bnd, switchReg reg = some bnd :=
    fun _ member => registers_valid member
  constructor
  · intro passes
    by_cases enabled : machine.mpx.Enabled
    · exact Or.inl enabled
    by_cases on : machine.mpx.en = true
    · obtain ⟨asserted, final, ran, held⟩ := passes
      obtain ⟨lists, went, rfl⟩ := runRounds_cases ran
      obtain ⟨first, middle, others, stepped, -, rfl⟩ := RunRules.run_cons_ok_iff.mp went
      have failed := quickRound_reset on enabled (show switchReg BND0 = some .bnd0 from rfl)
        (by decide) stepped
      have holds := held false (List.mem_flatten.mpr ⟨first, by simp, failed⟩)
      contradiction
    · have off : machine.mpx.en = false := Bool.not_eq_true _ ▸ on
      rw [testQuick_eq] at passes
      exact Or.inr ⟨off, (quickRounds_off_iff configured valid off _ _).mp passes⟩
  · rintro (enabled | ⟨off, stale⟩)
    · obtain ⟨asserted, final, ran, -, held⟩ := rounds_pass configured platform
        (fun _ member => unitTest_sound .quick stack member) enabled
      exact ⟨asserted, final, ran, held⟩
    · rw [testQuick_eq]
      exact (quickRounds_off_iff configured valid off _ _).mpr stale

/-- The test of the quick functions can be deceived: with MPX off it reads what the slot holds
before each of its rounds, which is the same four times if the assertions keep it. -/
theorem quick_passes_iff (platform : Platform) (configured : cunit.KeepsConfiguration)
    (stack : TestStack) (machine : Machine) :
    (Passes (runRounds cunit platform (testQuick stack) machine) ↔
      machine.mpx.Enabled ∨ machine.mpx.en = false ∧ ∀ round < 4,
        ((cunit.asserted true)^[round] machine).load (stack.qgetbndl - 0x80) =
          0xDEADBEEFDEADBEEF) ∧
    (cunit.KeepsSlot stack.qgetbndl →
      (Passes (runRounds cunit platform (testQuick stack) machine) ↔
        machine.mpx.Enabled ∨ machine.mpx.en = false ∧
          machine.load (stack.qgetbndl - 0x80) = 0xDEADBEEFDEADBEEF)) := by
  refine ⟨quick_passes_exactly configured stack, ?_⟩
  intro kept
  rw [quick_passes_exactly configured stack]
  simp only [iterate_keepsSlot kept]
  exact or_congr_right (and_congr_right fun _ =>
    ⟨fun all => all 0 (by decide), fun once _ _ => once⟩)

def staleMachine : Machine :=
  { blankMachine with mem := store64 (fun _ => 0) (0x6ff8 - 0x80) 0xDEADBEEFDEADBEEF }

theorem quick_passes_iff_stale :
    Passes (runRounds (framedCUnit 0x7000) capablePlatform (testQuick sampleStack) staleMachine) := by
  refine ((quick_passes_iff capablePlatform (framedCUnit_configured 0x7000) sampleStack
    staleMachine).2 (framedCUnit_keepsSlot (Or.inl rfl))).mpr (Or.inr ⟨by decide, ?_⟩)
  exact load64_store64 (fun _ => 0) (0x6ff8 - 0x80) 0xDEADBEEFDEADBEEF

end Quick

/-! The suite -/

section Suite

variable {platform : Platform} {setup teardown : Word}
  {tests : List (UnitTest × TestStack)} {machine : Machine}

theorem suite_runs (configured : cunit.KeepsConfiguration) (found : Detected platform)
    (on : platform.osxsave = true) (csr : platform.xcr0.getLsbD 4 = true) :
    ∃ asserted final, runSuite cunit platform setup teardown tests machine =
        .ok (asserted, final) ∧
      final.mpx.en = false ∧ ∀ holds ∈ asserted, holds = true := by
  have enabled := enabled_of_bndcfgu_eq
    (configured.asserted true (startedMachine platform setup machine))
    (startedMachine_enabled platform setup machine)
  obtain ⟨asserted, tested, ran, -, held⟩ := tests_pass configured platform tests enabled
  refine ⟨true :: asserted ++ [true],
    cunit.asserted true (stoppedMachine platform teardown (cunit.dispatch tested)), ?_, ?_, ?_⟩
  · simp only [runSuite, callStep_init found on csr, bind, Except.bind, decide_true,
      Bool.not_true, Bool.false_eq_true, if_false, ran, callStep_finish found on csr]
    rfl
  · rw [MpxState.en, configured.asserted, ← MpxState.en, stoppedMachine_off]
  · intro holds member
    simp only [List.cons_append, List.mem_cons, List.mem_append, List.not_mem_nil,
      or_false] at member
    rcases member with rfl | among | rfl
    · rfl
    · exact held holds among
    · rfl

theorem suite_stops_or_started {asserted : Asserted} {final : Machine}
    (ran : runSuite cunit platform setup teardown tests machine = .ok (asserted, final)) :
    asserted = [false] ∨
      Detected platform ∧ platform.osxsave = true ∧ platform.xcr0.getLsbD 4 = true := by
  obtain ⟨⟨value, middle⟩, began, continued⟩ := RunRules.bind_ok_iff.mp ran
  by_cases ready : value = .bool true
  · subst value
    exact Or.inr (init_true began)
  · simp only [ready, decide_false, Bool.not_false, if_true] at continued
    exact Or.inl (Prod.mk.inj (Except.ok.inj continued)).1.symm

end Suite

/-- The suite passes exactly where the processor has MPX and the operating system lets the process
use it; unless it stops at the first assertion it leaves MPX off. -/
theorem suite_passes_iff (platform : Platform) (configured : cunit.KeepsConfiguration)
    (setup teardown : Word) (tests : List (UnitTest × TestStack)) (machine : Machine) :
    (Passes (runSuite cunit platform setup teardown tests machine) ↔
      Detected platform ∧ platform.osxsave = true ∧ platform.xcr0.getLsbD 4 = true) ∧
    ∀ asserted final, runSuite cunit platform setup teardown tests machine =
      .ok (asserted, final) → asserted = [false] ∨ final.mpx.en = false := by
  refine ⟨⟨?_, ?_⟩, ?_⟩
  · rintro ⟨asserted, final, ran, held⟩
    rcases suite_stops_or_started ran with rfl | ready
    · exact absurd (held false (by simp)) (by decide)
    · exact ready
  · rintro ⟨found, on, csr⟩
    obtain ⟨asserted, final, ran, -, held⟩ := suite_runs configured found on csr
    exact ⟨asserted, final, ran, held⟩
  · intro asserted final ran
    rcases suite_stops_or_started ran with stopped | ⟨found, on, csr⟩
    · exact Or.inl stopped
    · obtain ⟨asserted', final', ran', off, -⟩ := suite_runs configured found on csr
      obtain ⟨-, rfl⟩ := Prod.mk.inj (Except.ok.inj (ran.symm.trans ran'))
      exact Or.inr off

theorem suite_passes_iff_capable :
    Passes (runSuite (framedCUnit 0x7000) capablePlatform 0x5000 0x4000
        (simplexSuite.map fun test => (test, sampleStack)) blankMachine) ∧
      ¬Passes (runSuite (framedCUnit 0x7000) platformWithoutMpxState 0x5000 0x4000
        (simplexSuite.map fun test => (test, sampleStack)) blankMachine) := by
  constructor
  · exact (suite_passes_iff capablePlatform (framedCUnit_configured 0x7000) 0x5000 0x4000 _
      blankMachine).1.mpr ⟨capablePlatform_capable.detected, capablePlatform_capable.osxsave,
        capablePlatform_capable.bndcsr⟩
  · intro passes
    have usable := ((suite_passes_iff platformWithoutMpxState (framedCUnit_configured 0x7000) 0x5000
      0x4000 _ blankMachine).1.mp passes).2.2
    exact absurd usable (by decide)

end SimplexTest

end SimplexMpx
