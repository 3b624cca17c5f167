import SimplexMpx.Calls
import SimplexMpx.PairStore

/-!
The library as a store of four pairs of words: an upper half is held complemented in the register
and goes through a displacement on its way there, and neither shows in what the accessors return.
-/

namespace SimplexMpx

open ByteMemory PairStore

abbrev RegisterStore := Store Bnd Word

def emptyPair : Pair Word := { lower := 0, upper := BitVec.allOnes 64 }

/-- The register a number names; every other number names none. -/
def numbered (reg : BndregT) : Option Bnd := [Bnd.bnd0, .bnd1, .bnd2, .bnd3][reg.toNat]?

@[simp] theorem numbered_eq (reg : BndregT) : numbered reg = switchReg reg := by
  simp only [numbered, switchReg]
  by_cases small : reg.toNat < 4
  · have among : reg = 0 ∨ reg = 1 ∨ reg = 2 ∨ reg = 3 := by bv_omega
    rcases among with rfl | rfl | rfl | rfl <;> rfl
  · obtain ⟨not0, not1, not2, not3⟩ : reg ≠ 0 ∧ reg ≠ 1 ∧ reg ≠ 2 ∧ reg ≠ 3 := by bv_omega
    rw [if_neg not0, if_neg not1, if_neg not2, if_neg not3, List.getElem?_eq_none]
    simpa using small

/-- The operation a call stands for; `process_specific_finish` ends the store. -/
def operationOf : Call → Option (Operation Bnd Word)
  | .processSpecificInit _ => some .reset
  | .processSpecificFinish _ => none
  | .getbndl _ reg => some (.getLower (numbered reg))
  | .getbndu _ reg => some (.getUpper (numbered reg))
  | .getbnd _ reg => some (.getBoth (numbered reg))
  | .qgetbndl _ reg => some (.getLower (numbered reg))
  | .setbndl _ reg val => some (.setLower (numbered reg) val)
  | .setbndu _ reg val => some (.setUpper (numbered reg) val)
  | .setbnd reg val =>
      some (.setBoth (numbered reg) { lower := lowHalf val, upper := highHalf val })
  | .qsetbndl reg val => some (.setBoth (numbered reg) { lower := val, upper := val })
  | .nearBranch => some .idle

def joined (pair : Pair Word) : BitVec 128 := pair.upper ++ pair.lower

/-- How a call returns a reply: nothing found is returned as zero. -/
def returnedOf : Reply Word → Returned
  | .started => .bool true
  | .done => .void
  | .half value => .word (value.getD 0)
  | .both pair => .wide ((pair.map joined).getD 0)

def encodePair (pair : Pair Word) : BndPair := { lb := pair.lower, ub := ~~~pair.upper }

structure Represents (store : RegisterStore) (machine : Machine) : Prop where
  enabled : machine.mpx.Enabled
  pairs : ∀ bnd, machine.mpx.bnd bnd = encodePair (store bnd)

theorem startedMachine_represents {platform : Platform}
    (regs : platform.xcr0.getLsbD 3 = true) (buffer : Word) (machine : Machine) :
    Represents (fun _ => emptyPair) (startedMachine platform buffer machine) := by
  refine ⟨startedMachine_enabled platform buffer machine, ?_⟩
  intro bnd
  have cleared : (startedMachine platform buffer machine).mpx.bnd bnd = initPair := by
    simp [startedMachine, Machine.configured, regs]
  rw [cleared]
  decide

theorem wideOf_encodePair (pair : Pair Word) : wideOf (encodePair pair) = joined pair := by
  apply BitVec.eq_of_getLsbD_eq
  intro index bound
  simp only [wideOf, encodePair, joined, BitVec.getLsbD_append, BitVec.getLsbD_or,
    BitVec.getLsbD_setWidth, BitVec.getLsbD_shiftLeft, BitVec.getLsbD_not]
  by_cases low : index < 64
  · simp [low, bound]
  · have high : index - 64 < 64 := by omega
    have wide : index - 64 < 128 := by omega
    have above : pair.lower.getLsbD index = false := BitVec.getLsbD_of_ge _ _ (by omega)
    simp [low, high, wide, bound, above]

theorem joined_halves (val : BitVec 128) :
    joined { lower := lowHalf val, upper := highHalf val } = val := by
  apply BitVec.eq_of_getLsbD_eq
  intro index bound
  simp only [joined, lowHalf, highHalf, BitVec.getLsbD_append, BitVec.getLsbD_setWidth,
    BitVec.getLsbD_ushiftRight]
  by_cases low : index < 64
  · simp [low]
  · have high : index - 64 < 64 := by omega
    have back : 64 + (index - 64) = index := by omega
    simp [low, high, back]

/-! What a call reads and writes, in terms of the store -/

section Represented

variable {store : RegisterStore} {machine : Machine}

theorem accessed_represented {α : Type} (represented : Represents store machine) (invalid : α)
    (decode : BndPair → α) (rsp : Word) (reg : BndregT) :
    accessed invalid decode rsp reg machine =
      ((switchReg reg).map fun bnd => decode (encodePair (store bnd))).getD invalid := by
  rw [accessed_of_en represented.enabled.1]
  cases switchReg reg with
  | none => rfl
  | some bnd => exact congrArg decode (represented.pairs bnd)

theorem afterAccess_represents (represented : Represents store machine) (function : String)
    (rsp : Word) (reg : BndregT) : Represents store (afterAccess function rsp reg machine) := by
  refine ⟨afterAccess_enabled represented.enabled function rsp reg, ?_⟩
  intro bnd
  rw [afterAccess_mpx]
  exact represented.pairs bnd

theorem afterQuickAccess_represents (represented : Represents store machine) (rsp : Word)
    (reg : BndregT) : Represents store (afterQuickAccess rsp reg machine) := by
  refine ⟨by rw [afterQuickAccess_mpx]; exact represented.enabled, ?_⟩
  intro bnd
  rw [afterQuickAccess_mpx]
  exact represented.pairs bnd

theorem writePair_represents (represented : Represents store machine) (change : Pair Word → Pair Word)
    {function : String} {reg : BndregT} {lower displacement : Word}
    (operands : ∀ bnd, switchReg reg = some bnd →
      (change (store bnd)).lower = lower ∧ (change (store bnd)).upper = lower + displacement) :
    Represents (modify (switchReg reg) change store)
      (writePair function reg lower displacement machine) := by
  refine ⟨writePair_enabled represented.enabled function reg lower displacement, ?_⟩
  intro other
  rw [writePair_bnd_of_en represented.enabled.1]
  cases named : switchReg reg with
  | none => exact represented.pairs other
  | some bnd =>
      obtain ⟨low, high⟩ := operands bnd named
      have written : encodePair (change (store bnd)) =
          { lb := lower, ub := ~~~(lower + displacement) } := by
        rw [encodePair, low, high]
      have before : machine.mpx.bnd = fun bnd => encodePair (store bnd) :=
        funext represented.pairs
      rw [encode_modify encodePair, written, before]

theorem accessed_lower (represented : Represents store machine) {reg : BndregT} {bnd : Bnd}
    (named : switchReg reg = some bnd) (rsp : Word) :
    accessed 0 BndPair.lb rsp reg machine = (store bnd).lower := by
  rw [accessed_represented represented, named]
  rfl

theorem accessed_upper (represented : Represents store machine) {reg : BndregT} {bnd : Bnd}
    (named : switchReg reg = some bnd) (rsp : Word) :
    accessed 0 (fun pair => ~~~pair.ub) rsp reg machine = (store bnd).upper := by
  rw [accessed_represented represented, named]
  exact BitVec.not_not

end Represented

def storeOf (machine : Machine) : RegisterStore := fun bnd =>
  { lower := (machine.mpx.bnd bnd).lb, upper := ~~~(machine.mpx.bnd bnd).ub }

theorem storeOf_represents {machine : Machine} (enabled : machine.mpx.Enabled) :
    Represents (storeOf machine) machine := by
  refine ⟨enabled, ?_⟩
  intro bnd
  simp only [storeOf, encodePair, BitVec.not_not]

theorem callStep_refines (platform : Platform) {command : Call}
    (capable : operationOf command = some .reset → Capable platform)
    {operation : Operation Bnd Word} (stands : operationOf command = some operation)
    {store : RegisterStore} {machine : Machine} (represented : Represents store machine) :
    ∃ next, callStep platform command machine =
        .ok (returnedOf (PairStore.apply emptyPair store operation).1, next) ∧
      Represents (PairStore.apply emptyPair store operation).2 next := by
  have enabled := represented.enabled
  cases command with
  | processSpecificInit buffer =>
      obtain rfl := Option.some.inj stands
      have able := capable rfl
      exact ⟨_, callStep_init able.detected able.osxsave able.bndcsr buffer machine,
        startedMachine_represents able.bndregs buffer machine⟩
  | processSpecificFinish buffer => simp [operationOf] at stands
  | getbndl rsp reg =>
      obtain rfl := Option.some.inj stands
      rw [numbered_eq]
      refine ⟨_, ?_, afterAccess_represents represented "getbndl" rsp reg⟩
      rw [callStep_getbndl enabled, accessed_represented represented]
      rfl
  | getbndu rsp reg =>
      obtain rfl := Option.some.inj stands
      rw [numbered_eq]
      refine ⟨_, ?_, afterAccess_represents represented "getbndu" rsp reg⟩
      rw [callStep_getbndu enabled, accessed_represented represented]
      simp only [encodePair, BitVec.not_not]
      rfl
  | getbnd rsp reg =>
      obtain rfl := Option.some.inj stands
      rw [numbered_eq]
      refine ⟨_, ?_, afterAccess_represents represented "getbndu" rsp reg⟩
      rw [callStep_getbnd enabled, accessed_represented represented]
      simp only [wideOf_encodePair, returnedOf, PairStore.apply, Option.map_map]
      rfl
  | qgetbndl rsp reg =>
      obtain rfl := Option.some.inj stands
      rw [numbered_eq]
      refine ⟨_, ?_, afterQuickAccess_represents represented rsp reg⟩
      rw [callStep_qgetbndl enabled, accessed_represented represented]
      rfl
  | setbndl rsp reg val =>
      obtain rfl := Option.some.inj stands
      rw [numbered_eq]
      refine ⟨_, callStep_setbndl enabled rsp reg val, ?_⟩
      apply writePair_represents (afterAccess_represents represented "getbndu" rsp reg)
        (fun pair => { pair with lower := val })
      intro bnd named
      refine ⟨rfl, ?_⟩
      rw [accessed_upper represented named, add_sub_cancel]
  | setbndu rsp reg val =>
      obtain rfl := Option.some.inj stands
      rw [numbered_eq]
      refine ⟨_, callStep_setbndu enabled rsp reg val, ?_⟩
      apply writePair_represents (afterAccess_represents represented "getbndl" rsp reg)
        (fun pair => { pair with upper := val })
      intro bnd named
      rw [accessed_lower represented named, add_sub_cancel]
      exact ⟨rfl, rfl⟩
  | setbnd reg val =>
      obtain rfl := Option.some.inj stands
      rw [numbered_eq]
      refine ⟨_, callStep_setbnd enabled reg val, ?_⟩
      apply writePair_represents represented
        (fun _ => { lower := lowHalf val, upper := highHalf val })
      intro bnd _
      refine ⟨rfl, ?_⟩
      rw [add_sub_cancel]
  | qsetbndl reg val =>
      obtain rfl := Option.some.inj stands
      rw [numbered_eq]
      refine ⟨_, callStep_qsetbndl enabled reg val, ?_⟩
      apply writePair_represents represented (fun _ => { lower := val, upper := val })
      intro bnd _
      refine ⟨rfl, ?_⟩
      rw [add_zero]
  | nearBranch =>
      obtain rfl := Option.some.inj stands
      exact ⟨machine, callStep_nearBranch enabled, represented⟩

theorem refines_lockStep {platform : Platform} (capable : Capable platform) :
    RunRules.LockStep (callStep platform) (PairStore.step emptyPair) (fun _ ghost => ghost)
      (fun command operation => operationOf command = some operation)
      (fun returned reply => returned = returnedOf reply)
      (fun (_ : Unit) machine store => Represents store machine) := by
  refine ⟨?_⟩
  intro command operation _ machine store stands represented
  obtain ⟨next, stepped, after⟩ := callStep_refines platform (fun _ => capable) stands represented
  rw [stepped]
  exact ⟨rfl, after⟩

/-- After a successful start every run of the library, with any registers, values and branches,
returns exactly what the store of four pairs answers, and never faults. -/
theorem runCalls_refines_store {platform : Platform} (regs : platform.xcr0.getLsbD 3 = true)
    {buffer : Word} {machine started : Machine}
    (began : callStep platform (.processSpecificInit buffer) machine =
      .ok (.bool true, started))
    {calls : List Call} {operations : List (Operation Bnd Word)}
    (described : List.Forall₂ (fun command operation => operationOf command = some operation)
      calls operations) :
    ∃ final, runCalls platform calls started =
        .ok ((perform emptyPair operations fun _ => emptyPair).1.map returnedOf, final) ∧
      Represents (perform emptyPair operations fun _ => emptyPair).2 final := by
  obtain ⟨found, on, csr⟩ := init_true began
  have capable : Capable platform := ⟨found, on, regs, csr⟩
  rw [callStep_init found on csr, Except.ok.injEq, Prod.mk.injEq] at began
  have initial : Represents (fun _ => emptyPair) started :=
    began.2 ▸ startedMachine_represents regs buffer machine
  have agreed := (refines_lockStep capable).run described () initial
  rw [run_step] at agreed
  obtain ⟨⟨returned, final⟩, ran, same, represented⟩ := agreed.ok_left
  refine ⟨final, ?_, represented⟩
  rw [runCalls, ran]
  have values : returned =
      (perform emptyPair operations fun _ => emptyPair).1.map returnedOf := by
    rw [← List.forall₂_eq_eq_eq, List.forall₂_map_right_iff]
    exact same
  rw [values]

theorem runCalls_refines_store_inverted_pair :
    ∃ final, runCalls capablePlatform
        [.setbndu 0x7000 2 9, .setbndl 0x7000 2 12, .nearBranch, .getbnd 0x7000 2,
          .getbndl 0x7000 0xFFFFFFFF]
        (startedMachine capablePlatform 0x5000 blankMachine) =
        .ok ([.void, .void, .void, .wide ((9 : Word) ++ (12 : Word)), .word 0], final) ∧
      Represents (fun bnd => if bnd = .bnd2 then { lower := 12, upper := 9 } else emptyPair)
        final := by
  have described : List.Forall₂ (fun command operation => operationOf command = some operation)
      [.setbndu 0x7000 2 9, .setbndl 0x7000 2 12, .nearBranch, .getbnd 0x7000 2,
        .getbndl 0x7000 0xFFFFFFFF]
      [.setUpper (some .bnd2) 9, .setLower (some .bnd2) 12, .idle, .getBoth (some .bnd2),
        .getLower none] :=
    .cons rfl (.cons rfl (.cons rfl (.cons rfl (.cons rfl .nil))))
  have started := callStep_init capablePlatform_capable.detected
    capablePlatform_capable.osxsave capablePlatform_capable.bndcsr 0x5000 blankMachine
  obtain ⟨final, ran, represented⟩ :=
    runCalls_refines_store capablePlatform_capable.bndregs started described
  refine ⟨final, ran, represented.enabled, ?_⟩
  intro bnd
  rw [represented.pairs]
  cases bnd <;> rfl

end SimplexMpx
