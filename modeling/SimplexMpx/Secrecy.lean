import SimplexMpx.Visible

/-!
Pairs of runs that make the same calls with different stored values. Everything but the register
pairs evolves alike, apart from the slots `qgetbndl` leaves behind.
-/

namespace SimplexMpx

open ByteMemory

/-! Memory reveals no stored value -/

theorem isRegisterCall_shape (command : Call) :
    command.shape.isRegisterCall = command.isRegisterCall := by
  cases command <;> rfl

theorem isQuickGet_shape (command : Call) : command.shape.isQuickGet = command.isQuickGet := by
  cases command <;> rfl

theorem clears_shape (command : Call) : Clears command.shape = Clears command := by
  cases command <;> rfl

theorem spills_shape (command : Call) : Spills command.shape = Spills command := by
  cases command <;> rfl

def dirtied (command : Call) (dirty : Word → Prop) (address : Word) : Prop :=
  Spills command address ∨ (dirty address ∧ ¬Clears command address)

def dirtyAfter (calls : List Call) (dirty : Word → Prop) : Word → Prop :=
  calls.foldl (fun now command => dirtied command now) dirty

theorem secrecy_lockStep (platform : Platform) :
    RunRules.LockStep (callStep platform) (callStep platform) dirtied
      (fun command command' => command.isRegisterCall = true ∧ SameShape command command')
      (fun _ _ => True)
      (fun dirty machine machine' =>
        ∀ address, ¬dirty address → machine.mem address = machine'.mem address) := by
  refine ⟨?_⟩
  intro command command' dirty machine machine' ⟨register, same⟩ related
  have register' : command'.isRegisterCall = true := by
    rw [← isRegisterCall_shape, ← same, isRegisterCall_shape, register]
  have clears : Clears command' = Clears command := by
    rw [← clears_shape, ← same, clears_shape]
  have spills : Spills command' = Spills command := by
    rw [← spills_shape, ← same, spills_shape]
  obtain ⟨value, next, stepped, bytes⟩ := callStep_byte platform register machine
  obtain ⟨value', next', stepped', bytes'⟩ := callStep_byte platform register' machine'
  rw [stepped, stepped']
  refine ⟨trivial, ?_⟩
  intro address clean
  rw [dirtied, not_or, not_and_not_right] at clean
  obtain ⟨apart, scrubbed⟩ := clean
  by_cases cleared : Clears command address
  · rw [(bytes address).1 cleared, (bytes' address).1 (by rwa [clears])]
  · have before : ¬dirty address := fun bad => cleared (scrubbed bad)
    rw [(bytes address).2 cleared apart, (bytes' address).2 (by rwa [clears]) (by rwa [spills])]
    exact related address before

theorem spills_of_dirtyAfter {calls : List Call} {dirty : Word → Prop} {address : Word}
    (ends : dirtyAfter calls dirty address) :
    dirty address ∨ ∃ command ∈ calls, Spills command address := by
  induction calls generalizing dirty with
  | nil => exact Or.inl ends
  | cons command rest ih =>
      rcases ih ends with (spilled | kept) | ⟨later, member, spilled⟩
      · exact Or.inr ⟨command, by simp, spilled⟩
      · exact Or.inl kept.1
      · exact Or.inr ⟨later, List.mem_cons_of_mem _ member, spilled⟩

theorem not_spills_of_clears {command : Call} {address : Word}
    (clears : Clears command address) : ¬Spills command address := by
  intro spills
  cases command with
  | qgetbndl rsp reg => exact clears
  | _ => exact spills

structure ValuesHidden (calls : List Call) (memory memory' : Memory 64) : Prop where
  equal : (∀ command ∈ calls, command.isQuickGet = false) → memory = memory'
  confined : ∀ address, memory address ≠ memory' address →
    ∃ rsp reg, Call.qgetbndl rsp reg ∈ calls ∧ InSlot rsp address
  scrubbed : ∀ before command after address, calls = before ++ command :: after →
    Clears command address → (∀ later ∈ after, ¬Spills later address) →
      memory address = memory' address

theorem valuesHidden_of_dirtyAfter {calls : List Call} {memory memory' : Memory 64}
    (agree : ∀ address, ¬dirtyAfter calls (fun _ => False) address →
      memory address = memory' address) : ValuesHidden calls memory memory' := by
  have spilled : ∀ address, memory address ≠ memory' address →
      ∃ rsp reg, Call.qgetbndl rsp reg ∈ calls ∧ InSlot rsp address := by
    intro address differ
    have dirty : dirtyAfter calls (fun _ => False) address := by
      by_contra clean
      exact differ (agree address clean)
    rcases spills_of_dirtyAfter dirty with none | ⟨command, member, spills⟩
    · exact none.elim
    · cases command with
      | qgetbndl rsp reg => exact ⟨rsp, reg, member, spills⟩
      | _ => exact spills.elim
  refine ⟨?_, spilled, ?_⟩
  · intro slow
    funext address
    by_contra differ
    obtain ⟨rsp, reg, member, _⟩ := spilled address differ
    exact absurd (slow _ member) (by simp [Call.isQuickGet])
  · intro before command after address split clears apart
    apply agree
    intro dirty
    rw [split, dirtyAfter, List.foldl_append, List.foldl_cons] at dirty
    rcases spills_of_dirtyAfter dirty with (now | kept) | ⟨later, member, spills⟩
    · exact not_spills_of_clears clears now
    · exact kept.2 clears
    · exact apart later member spills

/-- Two runs that differ only in the registers and the values they store have the same memory
after every call, but for slots an earlier `qgetbndl` spilled to and no accessor has cleared. -/
theorem runCalls_hide_values (platform : Platform) {machine machine' : Machine}
    (same : machine.mem = machine'.mem) {calls calls' : List Call}
    (paired : List.Forall₂ SameShape calls calls')
    (register : ∀ command ∈ calls, command.isRegisterCall = true) :
    ∃ returned final returned' final', runCalls platform calls machine = .ok (returned, final) ∧
      runCalls platform calls' machine' = .ok (returned', final') ∧
      ValuesHidden calls final.mem final'.mem := by
  have initial : ∀ address, ¬False → machine.mem address = machine'.mem address :=
    fun address _ => congrFun same address
  have agreed := (secrecy_lockStep platform).run
    ((List.forall₂_and_left _ _).mpr ⟨register, paired⟩) (fun _ => False) initial
  obtain ⟨returned, final, ran⟩ := RunRules.run_ok
    (fun command member state => registerCall_ok platform (register command member) state) machine
  rw [ran] at agreed
  obtain ⟨⟨returned', final'⟩, ran', _, hidden⟩ := agreed.ok_right
  exact ⟨returned, final, returned', final', ran, ran', valuesHidden_of_dirtyAfter hidden⟩

theorem runCalls_hide_values_after_scrub :
    ∃ returned final returned' final',
      runCalls capablePlatform [.setbndl 0x7000 0 5, .qgetbndl 0x7000 0, .getbndu 0x7000 1]
          (startedMachine capablePlatform 0x5000 blankMachine) = .ok (returned, final) ∧
        runCalls capablePlatform [.setbndl 0x7000 0 6, .qgetbndl 0x7000 0, .getbndu 0x7000 1]
          (startedMachine capablePlatform 0x5000 blankMachine) = .ok (returned', final') ∧
        ValuesHidden [.setbndl 0x7000 0 5, .qgetbndl 0x7000 0, .getbndu 0x7000 1]
          final.mem final'.mem :=
  runCalls_hide_values capablePlatform rfl (.cons rfl (.cons rfl (.cons rfl .nil))) (by decide)

/-! Stopping forgets the stored values -/

theorem configured_congr {platform : Platform} (regs : platform.xcr0.getLsbD 3 = true)
    (image : Word → Machine → Machine)
    (imageMem : ∀ buffer (first second : Machine), first.mem = second.mem →
      (image buffer first).mem = (image buffer second).mem)
    (imageText : ∀ buffer (first : Machine), (image buffer first).stderr = first.stderr)
    {machine machine' : Machine} (same : machine.withoutPairs = machine'.withoutPairs)
    (cfg buffer : Word) :
    machine.nearBranch.configured platform cfg
        (image buffer (memsetBuffer buffer machine.nearBranch)) =
      machine'.nearBranch.configured platform cfg
        (image buffer (memsetBuffer buffer machine'.nearBranch)) := by
  have memory : machine.mem = machine'.mem := by
    rw [← withoutPairs_mem, same, withoutPairs_mem]
  have text : machine.stderr = machine'.stderr := by
    rw [← withoutPairs_stderr, same, withoutPairs_stderr]
  have zeroed : (memsetBuffer buffer machine.nearBranch).mem =
      (memsetBuffer buffer machine'.nearBranch).mem := by
    simp only [memsetBuffer, Machine.nearBranch_mem, memory]
  have registers : (machine.nearBranch.configured platform cfg
        (image buffer (memsetBuffer buffer machine.nearBranch))).mpx =
      (machine'.nearBranch.configured platform cfg
        (image buffer (memsetBuffer buffer machine'.nearBranch))).mpx := by
    simp only [Machine.configured, regs, if_true]
  refine Machine.ext registers (imageMem buffer _ _ zeroed) ?_
  simp only [Machine.configured, imageText, memsetBuffer, Machine.nearBranch_stderr, text]

theorem startedMachine_congr {platform : Platform} (regs : platform.xcr0.getLsbD 3 = true)
    {machine machine' : Machine} (same : machine.withoutPairs = machine'.withoutPairs)
    (buffer : Word) :
    startedMachine platform buffer machine = startedMachine platform buffer machine' := by
  apply configured_congr regs enableImage _ (fun _ _ => rfl) same
  intro buffer first second memory
  simp only [enableImage, Machine.store, Machine.load, memory]

theorem stoppedMachine_congr {platform : Platform} (regs : platform.xcr0.getLsbD 3 = true)
    {machine machine' : Machine} (same : machine.withoutPairs = machine'.withoutPairs)
    (buffer : Word) :
    stoppedMachine platform buffer machine = stoppedMachine platform buffer machine' := by
  apply configured_congr regs disableImage _ (fun _ _ => rfl) same
  intro buffer first second memory
  simp only [disableImage, Machine.store, memory]

theorem stoppedMachine_mpx {platform : Platform} (regs : platform.xcr0.getLsbD 3 = true)
    (buffer : Word) (machine : Machine) :
    (stoppedMachine platform buffer machine).mpx =
      { bnd := fun _ => initPair, bndcfgu := 0, bndstatus := 0 } := by
  simp only [stoppedMachine, Machine.configured, regs, if_true]

theorem eq_of_shape_of_not_register {command command' : Call}
    (switch : command.isRegisterCall = false) (same : SameShape command command') :
    command' = command := by
  have own : command.shape = command := by
    cases command <;> first | rfl | simp [Call.isRegisterCall] at switch
  have switch' : command'.isRegisterCall = false := by
    rw [← isRegisterCall_shape, ← same, isRegisterCall_shape, switch]
  have own' : command'.shape = command' := by
    cases command' <;> first | rfl | simp [Call.isRegisterCall] at switch'
  rw [← own', ← same, own]

theorem visible_lockStep {platform : Platform} (capable : Capable platform) :
    RunRules.LockStep (callStep platform) (callStep platform) (fun _ ghost => ghost)
      (fun command command' => command.isQuickGet = false ∧ SameShape command command')
      (fun _ _ => True)
      (fun (_ : Unit) machine machine' => machine.withoutPairs = machine'.withoutPairs) := by
  refine ⟨?_⟩
  intro command command' _ machine machine' ⟨slow, same⟩ related
  by_cases register : command.isRegisterCall = true
  · have register' : command'.isRegisterCall = true := by
      rw [← isRegisterCall_shape, ← same, isRegisterCall_shape, register]
    have slow' : command'.isQuickGet = false := by
      rw [← isQuickGet_shape, ← same, isQuickGet_shape, slow]
    obtain ⟨value, next, stepped, visible⟩ := callStep_visible platform register slow machine
    obtain ⟨value', next', stepped', visible'⟩ := callStep_visible platform register' slow' machine'
    have effects : visibleEffect command = visibleEffect command' := by
      rw [← visibleEffect_shape, same, visibleEffect_shape]
    rw [stepped, stepped']
    refine ⟨trivial, ?_⟩
    rw [visible, visible', effects, related]
  · rw [Bool.not_eq_true] at register
    rw [eq_of_shape_of_not_register register same]
    cases command with
    | processSpecificInit buffer =>
        rw [callStep_init capable.detected capable.osxsave capable.bndcsr,
          callStep_init capable.detected capable.osxsave capable.bndcsr,
          startedMachine_congr capable.bndregs related]
        exact ⟨trivial, rfl⟩
    | processSpecificFinish buffer =>
        rw [callStep_finish capable.detected capable.osxsave capable.bndcsr,
          callStep_finish capable.detected capable.osxsave capable.bndcsr,
          stoppedMachine_congr capable.bndregs related]
        exact ⟨trivial, rfl⟩
    | _ => simp [Call.isRegisterCall] at register

/-- Two runs from one state that store different values end in the same state once they have
stopped MPX, so nothing they do later tells them apart. -/
theorem finish_forgets_values {platform : Platform} (regs : platform.xcr0.getLsbD 3 = true)
    {calls calls' : List Call} (paired : List.Forall₂ SameShape calls calls')
    (slow : ∀ command ∈ calls, command.isQuickGet = false) {buffer : Word}
    {machine final : Machine} {returned : List Returned}
    (ended : runCalls platform (calls ++ [.processSpecificFinish buffer]) machine =
      .ok (returned ++ [.bool true], final)) :
    final.mpx = { bnd := fun _ => initPair, bndcfgu := 0, bndstatus := 0 } ∧
      ∃ returned', runCalls platform (calls' ++ [.processSpecificFinish buffer]) machine =
          .ok (returned' ++ [.bool true], final) ∧
        ∀ later, ∃ outcome : Except Fault (List Returned × Machine),
          runCalls platform (calls ++ [.processSpecificFinish buffer] ++ later) machine =
            outcome.map (fun last => (returned ++ [.bool true] ++ last.1, last.2)) ∧
          runCalls platform (calls' ++ [.processSpecificFinish buffer] ++ later) machine =
            outcome.map (fun last => (returned' ++ [.bool true] ++ last.1, last.2)) := by
  obtain ⟨before, middle, value, ran, stopped, values⟩ := RunRules.run_snoc_ok_iff.mp ended
  obtain ⟨rfl, rfl⟩ := List.append_singleton_inj.mp values
  obtain ⟨found, on, csr⟩ := finish_true stopped
  have capable : Capable platform := ⟨found, on, regs, csr⟩
  rw [callStep_finish found on csr, Except.ok.injEq, Prod.mk.injEq] at stopped
  obtain ⟨_, rfl⟩ := stopped
  have agreed := (visible_lockStep capable).run
    ((List.forall₂_and_left _ _).mpr ⟨slow, paired⟩) () (show machine.withoutPairs = _ from rfl)
  rw [ran] at agreed
  obtain ⟨⟨returned', middle'⟩, ran', _, related⟩ := agreed.ok_right
  have ended' : runCalls platform (calls' ++ [.processSpecificFinish buffer]) machine =
      .ok (returned' ++ [.bool true], stoppedMachine platform buffer middle) := by
    refine RunRules.run_snoc_ok_iff.mpr ⟨returned', middle', .bool true, ran', ?_, rfl⟩
    rw [callStep_finish found on csr, stoppedMachine_congr regs related]
  refine ⟨stoppedMachine_mpx regs buffer middle, returned', ended', ?_⟩
  intro later
  exact ⟨runCalls platform later (stoppedMachine platform buffer middle),
    RunRules.run_append_of_ok ended later, RunRules.run_append_of_ok ended' later⟩

theorem finish_forgets_stored_pair :
    ∃ final returned', runCalls capablePlatform
        [.processSpecificInit 0x5000, .setbnd 1 8, .processSpecificFinish 0x5000] blankMachine =
        .ok (returned' ++ [.bool true], final) ∧ final.mpx.bnd .bnd1 = initPair := by
  have started := callStep_init capablePlatform_capable.detected capablePlatform_capable.osxsave
    capablePlatform_capable.bndcsr 0x5000 blankMachine
  have written : callStep capablePlatform (.setbnd 1 7) _ = _ :=
    callStep_setbnd (startedMachine_enabled capablePlatform 0x5000 blankMachine) 1 7
  have stopped := callStep_finish capablePlatform_capable.detected capablePlatform_capable.osxsave
    capablePlatform_capable.bndcsr 0x5000 (writePair "setbndu" 1 (lowHalf 7)
      (highHalf 7 - lowHalf 7) (startedMachine capablePlatform 0x5000 blankMachine))
  have paired : List.Forall₂ SameShape [.processSpecificInit 0x5000, .setbnd 1 7]
      [.processSpecificInit 0x5000, .setbnd 1 8] := .cons rfl (.cons rfl .nil)
  have ended : runCalls capablePlatform
      ([.processSpecificInit 0x5000, .setbnd 1 7] ++ [.processSpecificFinish 0x5000])
      blankMachine = .ok ([.bool true, .void] ++ [.bool true], _) :=
    RunRules.run_cons_ok_iff.mpr ⟨_, _, _, started, RunRules.run_cons_ok_iff.mpr
      ⟨_, _, _, written, RunRules.run_cons_ok_iff.mpr
        ⟨_, _, [], stopped, RunRules.run_nil _, rfl⟩, rfl⟩, rfl⟩
  obtain ⟨cleared, returned', ended', _⟩ := finish_forgets_values
    capablePlatform_capable.bndregs paired (by decide) ended
  exact ⟨_, returned', ended', by rw [cleared]⟩

end SimplexMpx
