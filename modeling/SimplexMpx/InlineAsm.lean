import SimplexMpx.InlineAsmCore
import SimplexMpx.Registers

/-!
The orders in which the statements of an accessor may be executed. The fetch declares an output
only, so nothing keeps the scrub behind it.
-/

namespace SimplexMpx

open ByteMemory RunRules

def Accessor.halves (pair : BndPair) : Accessor → Returned
  | getbndl => .word pair.lb
  | getbndu => .word (~~~pair.ub)
  | getbnd => .wide (~~~pair.ub ++ pair.lb)

theorem wide_append (lower upper : Word) :
    lower.setWidth 128 ||| (~~~upper.setWidth 128) <<< 64 = ~~~upper ++ lower := by
  apply BitVec.eq_of_getLsbD_eq
  intro index bound
  simp only [BitVec.getLsbD_or, BitVec.getLsbD_setWidth, BitVec.getLsbD_shiftLeft,
    BitVec.getLsbD_not, BitVec.getLsbD_append]
  by_cases low : index < 64
  · simp [low, bound]
  · have above : lower.getLsbD index = false := BitVec.getLsbD_of_ge _ _ (by omega)
    have next : index - 64 < 64 := by omega
    have wrapped : index - 64 < 128 := by omega
    simp [low, bound, above, next, wrapped]

theorem lowSlot_eq (rsp : Word) : rsp + -0x80 = rsp - 0x80 := by bv_omega

theorem highSlot_eq (rsp : Word) : rsp + -0x78 = rsp - 0x78 := by bv_omega

section Statements

variable {rsp : Word} {bnd : Bnd} {state : AsmState}

theorem fetch_machine (accessor : Accessor) :
    ((accessor.fetch bnd).execute rsp state).machine = state.machine.spilled bnd rsp := by
  cases accessor <;>
    simp only [Accessor.fetch, AsmStatement.execute, AsmInstruction.execute, List.foldl_cons,
      List.foldl_nil, Machine.spilled, lowSlot_eq]

theorem fetch_result (on : state.machine.mpx.en = true) (accessor : Accessor) :
    accessor.result ((accessor.fetch bnd).execute rsp state).operand =
      accessor.halves (state.machine.mpx.bnd bnd) := by
  have pair := spilledPair_of_en on bnd rsp
  rw [spilledPair, BndPair.ext_iff] at pair
  obtain ⟨lower, upper⟩ := pair
  simp only [Machine.spilled] at lower upper
  cases accessor with
  | getbndl =>
      simp only [Accessor.fetch, AsmStatement.execute, AsmInstruction.execute, List.foldl_cons,
        List.foldl_nil, Accessor.result, Accessor.halves, Function.update_self, lowSlot_eq, lower]
  | getbndu =>
      simp only [Accessor.fetch, AsmStatement.execute, AsmInstruction.execute, List.foldl_cons,
        List.foldl_nil, Accessor.result, Accessor.halves, Function.update_self, lowSlot_eq,
        highSlot_eq, upper]
  | getbnd =>
      simp only [Accessor.fetch, AsmStatement.execute, AsmInstruction.execute, List.foldl_cons,
        List.foldl_nil, Accessor.result, Accessor.halves, Function.update_apply, lowSlot_eq,
        highSlot_eq, lower, upper, wide_append, reduceCtorEq, if_true, if_false]

theorem scrub_execute :
    scrub.execute rsp state = { state with machine := state.machine.scrubbed rsp } := by
  rw [← sanitize_eq]
  simp only [scrub, AsmStatement.execute, AsmInstruction.execute, List.foldl_cons, List.foldl_nil,
    sanitize, lowSlot_eq, highSlot_eq]

theorem scrub_result (accessor : Accessor) :
    accessor.result (scrub.execute rsp state).operand = accessor.result state.operand := by
  rw [scrub_execute]

end Statements

/-! The order of the source is the model of `simplex.c` the library is verified with. -/

def accessorBody (accessor : Accessor) (rsp : Word) (reg : BndregT) (machine : Machine) :
    Returned × Machine :=
  match accessor with
  | .getbndl => (.word (getbndl rsp reg machine).1, (getbndl rsp reg machine).2)
  | .getbndu => (.word (getbndu rsp reg machine).1, (getbndu rsp reg machine).2)
  | .getbnd => (.wide (getbnd rsp reg machine).1, (getbnd rsp reg machine).2)

theorem source_order_body {reg : BndregT} {bnd : Bnd} (named : switchReg reg = some bnd)
    {rsp : Word} {state : AsmState} (on : state.machine.mpx.en = true) (accessor : Accessor) :
    (accessor.result (executeInOrder rsp (accessor.statements bnd) state).operand,
        (executeInOrder rsp (accessor.statements bnd) state).machine) =
      accessorBody accessor rsp reg state.machine := by
  have order : executeInOrder rsp (accessor.statements bnd) state =
      scrub.execute rsp ((accessor.fetch bnd).execute rsp state) := rfl
  rw [order, scrub_result, fetch_result on, scrub_execute]
  have machine : ((accessor.fetch bnd).execute rsp state).machine = state.machine.spilled bnd rsp :=
    fetch_machine accessor
  have pair := spilledPair_of_en on bnd rsp
  simp only [machine, scrubbed_spilled]
  cases accessor with
  | getbndl =>
      simp only [accessorBody, Accessor.halves, getbndl_eq, accessed, afterAccess, named, pair]
  | getbndu =>
      simp only [accessorBody, Accessor.halves, getbndu_eq, accessed, afterAccess, named, pair]
  | getbnd =>
      simp only [accessorBody, Accessor.halves, getbnd_eq, accessed, afterAccess, named, pair,
        wideOf, wide_append]

/-! Every permitted order -/

theorem fetch_scrub_exchange (accessor : Accessor) (bnd : Bnd) :
    mayExchange (accessor.fetch bnd) scrub = true := by
  cases accessor <;> rfl

theorem permitted_iff (accessor : Accessor) (bnd : Bnd) (order : List AsmStatement) :
    Permitted (accessor.statements bnd) order ↔
      order = accessor.statements bnd ∨ order = [scrub, accessor.fetch bnd] := by
  unfold Permitted Accessor.statements
  exact reordering_pair (fun first second => mayExchange first second = true)
    (fetch_scrub_exchange accessor bnd)

/-- What an accessor promises of one execution of its statements. -/
structure ScrubbedAccess (accessor : Accessor) (rsp : Word) (pair : BndPair) (after : AsmState) :
    Prop where
  returned : accessor.result after.operand = accessor.halves pair
  zero : ∀ address, InSlot rsp address → after.machine.mem address = 0

section Orders

variable {rsp : Word} {bnd : Bnd} {state : AsmState}

theorem load_of_slot_zero {machine : Machine}
    (zero : ∀ address, InSlot rsp address → machine.mem address = 0) :
    machine.load (rsp - 0x80) = 0 ∧ machine.load (rsp - 0x78) = 0 := by
  have word : ∀ base, (∀ address, Within base 8 address → InSlot rsp address) →
      machine.load base = 0 := by
    intro base inside
    rw [Machine.load, ← load64_zero base]
    exact load64_congr fun address member => zero address (inside address member)
  constructor
  · apply word
    intro address member
    simp only [InSlot, Within] at member ⊢
    bv_omega
  · apply word
    intro address member
    simp only [InSlot, Within] at member ⊢
    bv_omega

theorem source_order_access (on : state.machine.mpx.en = true) (accessor : Accessor) :
    ScrubbedAccess accessor rsp (state.machine.mpx.bnd bnd)
      (executeInOrder rsp (accessor.statements bnd) state) := by
  have order : executeInOrder rsp (accessor.statements bnd) state =
      scrub.execute rsp ((accessor.fetch bnd).execute rsp state) := rfl
  rw [order]
  constructor
  · rw [scrub_result, fetch_result on]
  · intro address inside
    rw [scrub_execute]
    exact scrubbed_mem_inside inside _

theorem exchanged_order_access (on : state.machine.mpx.en = true) (accessor : Accessor) :
    ScrubbedAccess accessor rsp (state.machine.mpx.bnd bnd)
        (executeInOrder rsp [scrub, accessor.fetch bnd] state) ↔
      state.machine.mpx.bnd bnd = ⟨0, 0⟩ := by
  have order : executeInOrder rsp [scrub, accessor.fetch bnd] state =
      (accessor.fetch bnd).execute rsp (scrub.execute rsp state) := rfl
  have same : (scrub.execute rsp state).machine.mpx = state.machine.mpx := by
    rw [scrub_execute]
    rfl
  have still : (scrub.execute rsp state).machine.mpx.en = true := by rw [same, on]
  have pair := spilledPair_of_en still bnd rsp
  rw [order]
  constructor
  · intro access
    have zero := access.zero
    rw [fetch_machine] at zero
    obtain ⟨lower, upper⟩ := load_of_slot_zero zero
    rw [← same, ← pair, spilledPair, lower, upper]
  · intro empty
    constructor
    · rw [fetch_result still, same]
    · intro address inside
      rw [fetch_machine, Machine.spilled, Machine.bndmov, if_pos still, same, empty]
      rw [InSlot, Machine.within_sixteen] at inside
      rcases inside with lower | upper
      · by_cases both : Within (rsp - 0x80 + 8) 8 address
        · exact store64_zero_inside both
        · rw [Machine.store_mem, store64_outside both]
          exact store64_zero_inside lower
      · exact store64_zero_inside upper

/-- An accessor returns its halves and leaves its slot zero in exactly those permitted orders that
fetch before they scrub, or if there is nothing to hide. -/
theorem scrubbedAccess_iff (on : state.machine.mpx.en = true) {accessor : Accessor}
    {order : List AsmStatement}
    (permitted : Permitted (accessor.statements bnd) order) :
    ScrubbedAccess accessor rsp (state.machine.mpx.bnd bnd) (executeInOrder rsp order state) ↔
      order = accessor.statements bnd ∨ state.machine.mpx.bnd bnd = ⟨0, 0⟩ := by
  have different : [scrub, accessor.fetch bnd] ≠ accessor.statements bnd := by
    cases accessor <;> simp [Accessor.statements, scrub, Accessor.fetch]
  rcases (permitted_iff accessor bnd order).mp permitted with rfl | rfl
  · exact iff_of_true (source_order_access on accessor) (Or.inl rfl)
  · rw [exchanged_order_access on accessor, or_iff_right different]

end Orders

def accessState : AsmState where
  machine :=
    { mpx := { bnd := fun _ => ⟨0x2000, 0x41⟩, bndcfgu := 3, bndstatus := 0 }
      mem := fun _ => 0
      stderr := [] }
  operand := fun _ => 0

theorem scrubbedAccess_accessState :
    ScrubbedAccess .getbnd 0x8000 ⟨0x2000, 0x41⟩
        (executeInOrder 0x8000 [Accessor.fetch .bnd2 .getbnd, scrub] accessState) ↔
      [Accessor.fetch .bnd2 .getbnd, scrub] = Accessor.getbnd.statements .bnd2 ∨
        (⟨0x2000, 0x41⟩ : BndPair) = ⟨0, 0⟩ := by
  have on : accessState.machine.mpx.en = true := by decide
  exact scrubbedAccess_iff on (.refl _)

theorem secret_stays_after_early_scrub :
    Permitted (Accessor.getbndl.statements .bnd0) [scrub, Accessor.fetch .bnd0 .getbndl] ∧
      ¬ScrubbedAccess .getbndl 0x8000 ⟨0x2000, 0x41⟩
        (executeInOrder 0x8000 [scrub, Accessor.fetch .bnd0 .getbndl] accessState) := by
  refine ⟨(permitted_iff _ _ _).mpr (Or.inr rfl), ?_⟩
  intro access
  have left := access.zero 0x7f81 (by decide)
  have stored : (executeInOrder 0x8000 [scrub, Accessor.fetch .bnd0 .getbndl]
      accessState).machine.mem 0x7f81 = 0x20 := by decide +kernel
  rw [stored] at left
  exact absurd left (by decide)

end SimplexMpx
