import SimplexMpx.Traverse

/-!
How far the two traversals go and what they leave behind: the number of rounds, the bytes they
load, and the registers they saved.
-/

namespace SimplexMpx

open ByteMemory

/-! Number of rounds -/

theorem rounds_mono {body : Cpu → Round × Cpu} {fuel : Nat} {cpu : Cpu}
    {result : List Round × Cpu} (ran : rounds body fuel cpu = some result) :
    ∀ more, fuel ≤ more → rounds body more cpu = some result := by
  induction fuel generalizing cpu result with
  | zero => simp [rounds] at ran
  | succ fuel ih =>
      intro more enough
      obtain ⟨more, rfl⟩ := Nat.exists_eq_add_of_le' (Nat.le_trans (by omega) enough : 1 ≤ more)
      by_cases leaves : (body cpu).2.zf = true
      · simp only [rounds, leaves, if_true] at ran ⊢
        exact ran
      · have going : (body cpu).2.zf = false := by simpa using leaves
        rw [rounds_continue going] at ran
        obtain ⟨later, ranLater, joined⟩ := Option.map_eq_some_iff.mp ran
        rw [rounds_continue going, ih ranLater more (by omega), Option.map_some, joined]

def ReturnsAfter (run : Nat → Option (List Round × Cpu)) (count : Nat) : Prop :=
  ∃ fuel done final, run fuel = some (done, final) ∧ done.length = count

def FuelMonotone (run : Nat → Option (List Round × Cpu)) : Prop :=
  ∀ fuel result, run fuel = some result → ∀ more, fuel ≤ more → run more = some result

theorem monotone_after_rounds (body : Cpu → Round × Cpu) (cpu : Cpu)
    (leave : List Round × Cpu → List Round × Cpu) :
    FuelMonotone fun fuel => (rounds body fuel cpu).map leave := by
  intro fuel result ran more enough
  obtain ⟨looped, ranLoop, left⟩ := Option.map_eq_some_iff.mp ran
  simp only [rounds_mono ranLoop more enough, Option.map_some, left]

theorem gptraverse_monotone (cpu : Cpu) : FuelMonotone (gptraverse · cpu) :=
  monotone_after_rounds _ _ _

theorem mpxtraverse_monotone (cpu : Cpu) : FuelMonotone (mpxtraverse · cpu) :=
  monotone_after_rounds _ _ _

section Settled

variable {run : Nat → Option (List Round × Cpu)} (monotone : FuelMonotone run) {enough : Nat}
  {result : List Round × Cpu} (settled : ∀ fuel, enough ≤ fuel → run fuel = some result)
include monotone settled

/-- A run that gives one result for every large fuel gives no other for any fuel. -/
theorem run_unique {fuel : Nat} {other : List Round × Cpu} (ran : run fuel = some other) :
    other = result := by
  have late := monotone fuel other ran (max fuel enough) (le_max_left _ _)
  rw [settled (max fuel enough) (le_max_right _ _)] at late
  exact (Option.some.inj late).symm

theorem returnsAfter_iff (count : Nat) : ReturnsAfter run count ↔ result.1.length = count := by
  constructor
  · rintro ⟨fuel, done, final, ran, length⟩
    rw [← run_unique monotone settled ran, length]
  · intro length
    exact ⟨enough, result.1, result.2, settled enough (Nat.le_refl enough), length⟩

end Settled

theorem gptraverse_result {cpu : Cpu} {fuel : Nat} {result : List Round × Cpu}
    (ran : gptraverse fuel cpu = some result) :
    ∃ last, last.machine = (gptraverseEntry cpu).machine ∧
      last.reg .rsp = cpu.reg .rsp - 48 ∧
      result = (roundsOver cpu (gptraverseEntry cpu).machine.mem, traverseExit last) := by
  obtain ⟨last, machine, -, rsp, settled⟩ := gptraverse_ends cpu
  exact ⟨last, machine, rsp, run_unique (gptraverse_monotone cpu) settled ran⟩

theorem mpxtraverse_result {cpu : Cpu} (enabled : cpu.machine.mpx.Enabled) {fuel : Nat}
    {result : List Round × Cpu} (ran : mpxtraverse fuel cpu = some result) :
    ∃ last, MpxLooping (mpxtraverseEntry cpu) (roundCount (cpu.reg .rsi >>> 1)) last ∧
      ScratchZero (mpxtraverseEntry cpu) last ∧
      result = (roundsOver cpu (fill (mpxtraverseEntry cpu).machine.mem
        ((mpxtraverseEntry cpu).reg .rsp - 32) 32 0), traverseExit last) := by
  obtain ⟨last, looped, zero, settled⟩ := mpxtraverse_ends enabled
  exact ⟨last, looped, zero, run_unique (mpxtraverse_monotone cpu) settled ran⟩

theorem half_toNat (size : Word) : (size >>> 1).toNat = size.toNat / 2 := by
  rw [BitVec.toNat_ushiftRight, Nat.shiftRight_eq_div_pow, pow_one]

theorem roundCount_half (size : Word) :
    roundCount (size >>> 1) = size.toNat / 2 ↔ 2 ≤ size.toNat := by
  have half := half_toNat size
  have bound := size.isLt
  unfold roundCount
  split
  · rename_i empty
    have zero : size.toNat / 2 = 0 := by
      rw [← half, empty]
      rfl
    omega
  · rename_i nonempty
    have positive : (size >>> 1).toNat ≠ 0 := fun zero => nonempty (BitVec.eq_of_toNat_eq zero)
    omega

/-! `mpxtraverse` where MPX is off or its registers do not survive a jump -/

theorem roundCount_zero : roundCount 0 = 2 ^ 64 := if_pos rfl

/-- A run that goes on after its first round, and from then on with both halves at zero. -/
theorem wraps_after_first {start : Cpu} {outcome : Nat → Round} {Invariant : Nat → Cpu → Prop}
    (going : (mpxtraverseContinue start).2.zf = false)
    (first : Invariant 1 (mpxtraverseContinue start).2.branch)
    (step : ∀ counter cpu, Invariant counter cpu → (mpxtraverseContinue cpu).1 = outcome counter ∧
      (mpxtraverseContinue cpu).2.zf = decide (BitVec.ofNat 64 (counter + 1) = 0) ∧
      Invariant (counter + 1) (mpxtraverseContinue cpu).2.branch) :
    ∃ result, (∀ fuel, roundCount 0 ≤ fuel →
      rounds mpxtraverseContinue fuel start = some result) ∧ result.1.length = roundCount 0 := by
  have many : 2 ≤ roundCount 0 := by
    rw [roundCount_zero]
    decide
  obtain ⟨final, -, ran⟩ :=
    rounds_from step (roundCount 0 - 2) 1 (by omega) first
  refine ⟨((mpxtraverseContinue start).1 :: (List.range' 1 (roundCount 0 - 2 + 1)).map outcome,
    final), ?_, ?_⟩
  · intro fuel enough
    obtain ⟨fuel, rfl⟩ := Nat.exists_eq_add_of_le' (Nat.le_trans (by omega) enough : 1 ≤ fuel)
    rw [rounds_continue going, ran fuel (by omega), Option.map_some]
  · rw [List.length_cons, List.length_map, List.length_range']
    omega

/-- With MPX off the first round loads what lies in the scratch bytes. -/
def StaleHalvesNext (cpu : Cpu) : Prop :=
  cpu.machine.load (cpu.reg .rsp - 80) = cpu.machine.load (cpu.reg .rsp - 64) + 1

section Off

variable {cpu : Cpu} (off : cpu.machine.mpx.en = false)
include off

theorem spillBounds_off : (spillBounds cpu).machine = cpu.machine := by
  simp [spillBounds, Cpu.bndmov, Machine.bndmov, off]

theorem mpxtraverseEntry_off : (mpxtraverseEntry cpu).machine.mpx.en = false := by
  rw [mpxtraverseEntry_en, off]

theorem first_round_off :
    (mpxtraverseContinue (mpxtraverseEntry cpu)).2.zf =
        decide (BitVec.ofNat 64 (0 + 1) =
          cpu.machine.load (cpu.reg .rsp - 80) - cpu.machine.load (cpu.reg .rsp - 64)) ∧
      MpxLooping (mpxtraverseEntry cpu) 1 (mpxtraverseContinue (mpxtraverseEntry cpu)).2.branch ∧
      ScratchZero (mpxtraverseEntry cpu) (mpxtraverseContinue (mpxtraverseEntry cpu)).2.branch := by
  have entered := mpxtraverseEntry_entered cpu
  have kept : ∀ displacement : Word, displacement = -0x10 ∨ displacement = -0x20 →
      (spillBounds (mpxtraverseEntry cpu)).machine.load
          ((mpxtraverseEntry cpu).reg .rsp + displacement) =
        cpu.machine.load (cpu.reg .rsp - 48 + displacement) := by
    intro displacement below
    rw [spillBounds_off (mpxtraverseEntry_off off), entered.rsp]
    apply load64_congr
    intro address inside
    apply entered.wrote.mem
    simp only [Frame, Within] at inside ⊢
    bv_omega
  have start : MpxLooping (mpxtraverseEntry cpu) 0 (mpxtraverseEntry cpu) :=
    ⟨rfl, entered.rdx, rfl, rfl, .refl _⟩
  have above : cpu.reg .rsp - 48 + -0x10 = cpu.reg .rsp - 64 := by bv_omega
  have below : cpu.reg .rsp - 48 + -0x20 = cpu.reg .rsp - 80 := by bv_omega
  have lower := kept _ (Or.inl rfl)
  have middle := kept _ (Or.inr rfl)
  rw [above] at lower
  rw [below, ← add_sub_cancel (cpu.machine.load (cpu.reg .rsp - 64))
    (cpu.machine.load (cpu.reg .rsp - 80))] at middle
  obtain ⟨-, flag, after, zero⟩ :=
    mpxtraverseContinue_loaded entered.settled start lower middle
  exact ⟨flag, after, zero⟩

theorem later_round_off (counter : Nat) (later : Cpu)
    (looping : MpxLooping (mpxtraverseEntry cpu) counter later ∧
      ScratchZero (mpxtraverseEntry cpu) later) :
    (mpxtraverseContinue later).1 = roundAt (fill (mpxtraverseEntry cpu).machine.mem
        ((mpxtraverseEntry cpu).reg .rsp - 32) 32 0) 0 (0 + 0) counter ∧
      (mpxtraverseContinue later).2.zf = decide (BitVec.ofNat 64 (counter + 1) = 0) ∧
      MpxLooping (mpxtraverseEntry cpu) (counter + 1) (mpxtraverseContinue later).2.branch ∧
      ScratchZero (mpxtraverseEntry cpu) (mpxtraverseContinue later).2.branch := by
  obtain ⟨looping, zero⟩ := looping
  have silent : later.machine.mpx.en = false := by rw [looping.mpx, mpxtraverseEntry_off off]
  have empty : ∀ displacement : Word, displacement = -0x10 ∨ displacement = -0x20 →
      (spillBounds later).machine.load (later.reg .rsp + displacement) = 0 := by
    intro displacement below
    rw [spillBounds_off silent, looping.rsp, ← load64_zero _]
    apply load64_congr
    intro address inside
    apply zero
    simp only [Scratch, Within] at inside ⊢
    bv_omega
  exact mpxtraverseContinue_loaded (mpxtraverseEntry_entered cpu).settled looping
    (empty _ (Or.inl rfl)) (empty _ (Or.inr rfl))

theorem mpxtraverse_off_stops (next : StaleHalvesNext cpu) :
    ∃ result, (∀ fuel, 1 ≤ fuel → mpxtraverse fuel cpu = some result) ∧
      result.1.length = 1 := by
  have one : BitVec.ofNat 64 (0 + 1) = 1 := rfl
  have flag := (first_round_off off).1
  rw [next, add_sub_cancel_left, decide_eq_true one] at flag
  refine ⟨([(mpxtraverseContinue (mpxtraverseEntry cpu)).1],
    traverseExit (mpxtraverseContinue (mpxtraverseEntry cpu)).2.branch), ?_, rfl⟩
  intro fuel enough
  obtain ⟨fuel, rfl⟩ := Nat.exists_eq_add_of_le' enough
  simp only [mpxtraverse, rounds, flag, if_true, Option.map_some]

theorem mpxtraverse_off_wraps (apart : ¬StaleHalvesNext cpu) :
    ∃ result, (∀ fuel, roundCount 0 ≤ fuel → mpxtraverse fuel cpu = some result) ∧
      result.1.length = roundCount 0 := by
  obtain ⟨flag, after⟩ := first_round_off off
  have going : BitVec.ofNat 64 (0 + 1) ≠
      cpu.machine.load (cpu.reg .rsp - 80) - cpu.machine.load (cpu.reg .rsp - 64) := by
    intro same
    exact apart (sub_eq_iff_eq_add'.mp same.symm)
  rw [decide_eq_false going] at flag
  obtain ⟨result, ran, length⟩ := wraps_after_first flag after (later_round_off off)
  refine ⟨(result.1, traverseExit result.2), ?_, length⟩
  intro fuel enough
  rw [mpxtraverse, ran fuel enough]
  rfl

end Off

/-- Without BNDPRESERVE the jump into the loop resets both registers, and each has lower bound
zero. -/
theorem mpxtraverse_reset_wraps {cpu : Cpu} (on : cpu.machine.mpx.en = true)
    (resets : cpu.machine.mpx.bndpreserve = false) :
    ∃ result, (∀ fuel, roundCount 0 ≤ fuel → mpxtraverse fuel cpu = some result) ∧
      result.1.length = roundCount 0 := by
  have entered := mpxtraverseEntry_entered cpu
  have config := prepareBounds_bndcfgu cpu
  have jumping : (prepareBounds cpu).machine.mpx.en &&
      !(prepareBounds cpu).machine.mpx.bndpreserve := by
    rw [MpxState.en, MpxState.bndpreserve, config, ← MpxState.en, ← MpxState.bndpreserve, on, resets]
    rfl
  have initial : ∀ bnd, (mpxtraverseEntry cpu).machine.mpx.bnd bnd = initPair := by
    intro bnd
    simp only [mpxtraverseEntry_eq, Cpu.branch, Machine.nearBranch, jumping, if_true]
  have lower : ((mpxtraverseEntry cpu).machine.mpx.bnd .bnd0).lb = 0 := by
    rw [initial]
    rfl
  have middle : ((mpxtraverseEntry cpu).machine.mpx.bnd .bnd1).lb = 0 + 0 := by
    rw [initial]
    rfl
  have start : MpxLooping (mpxtraverseEntry cpu) 0 (mpxtraverseEntry cpu) :=
    ⟨rfl, entered.rdx, rfl, rfl, .refl _⟩
  have active : (mpxtraverseEntry cpu).machine.mpx.en = true := by rw [mpxtraverseEntry_en, on]
  obtain ⟨last, -, ran⟩ :=
    rounds_all (mpxtraverseContinue_step entered.settled active lower middle)
      ⟨start, fun impossible => absurd impossible (Nat.lt_irrefl 0)⟩
  refine ⟨((List.range (roundCount 0)).map (roundAt (fill (mpxtraverseEntry cpu).machine.mem
    ((mpxtraverseEntry cpu).reg .rsp - 32) 32 0) 0 (0 + 0)), traverseExit last), ?_, ?_⟩
  · intro fuel enough
    rw [mpxtraverse, ran fuel enough]
    rfl
  · rw [List.length_map, List.length_range]

theorem half_ne_wrapped (size : Word) : roundCount 0 ≠ size.toNat / 2 := by
  have bound := size.isLt
  rw [roundCount_zero]
  omega

/-- Where the jumps of `mpxtraverse` do what its loop relies on, or its first round happens to
end a loop of one. -/
def MpxTraverseEnds (cpu : Cpu) : Prop :=
  cpu.machine.mpx.Enabled ∨
    cpu.machine.mpx.en = false ∧ (cpu.reg .rsi).toNat < 4 ∧ StaleHalvesNext cpu

theorem mpxtraverse_returns_after_half (cpu : Cpu) :
    ReturnsAfter (mpxtraverse · cpu) ((cpu.reg .rsi).toNat / 2) ↔
      2 ≤ (cpu.reg .rsi).toNat ∧ MpxTraverseEnds cpu := by
  cases on : cpu.machine.mpx.en with
  | true =>
      cases preserve : cpu.machine.mpx.bndpreserve with
      | true =>
          have enabled : cpu.machine.mpx.Enabled := ⟨on, preserve⟩
          obtain ⟨last, -, -, settled⟩ := mpxtraverse_ends enabled
          rw [returnsAfter_iff (mpxtraverse_monotone cpu) settled, roundsOver_length,
            roundCount_half]
          exact ⟨fun size => ⟨size, Or.inl enabled⟩, And.left⟩
      | false =>
          obtain ⟨result, settled, length⟩ := mpxtraverse_reset_wraps on preserve
          rw [returnsAfter_iff (mpxtraverse_monotone cpu) settled, length]
          constructor
          · intro wrapped
            exact absurd wrapped (half_ne_wrapped _)
          · rintro ⟨-, enabled | ⟨off, -⟩⟩
            · exact absurd (preserve.symm.trans enabled.2) Bool.false_ne_true
            · exact absurd (off.symm.trans on) Bool.false_ne_true
  | false =>
      have disabled : ¬cpu.machine.mpx.Enabled :=
        fun enabled => Bool.false_ne_true (on.symm.trans enabled.1)
      by_cases next : StaleHalvesNext cpu
      · obtain ⟨result, settled, length⟩ := mpxtraverse_off_stops on next
        rw [returnsAfter_iff (mpxtraverse_monotone cpu) settled, length, MpxTraverseEnds]
        constructor
        · intro one
          exact ⟨by omega, Or.inr ⟨on, by omega, next⟩⟩
        · rintro ⟨size, enabled | ⟨-, small, -⟩⟩
          · exact absurd enabled disabled
          · omega
      · obtain ⟨result, settled, length⟩ := mpxtraverse_off_wraps on next
        rw [returnsAfter_iff (mpxtraverse_monotone cpu) settled, length]
        constructor
        · intro wrapped
          exact absurd wrapped (half_ne_wrapped _)
        · rintro ⟨-, enabled | ⟨-, -, stale⟩⟩
          · exact absurd enabled disabled
          · exact absurd stale next

/-- Both traversals test against the midpoint after the first round, so they return after one
round for every two bytes exactly when there are two; `mpxtraverse` needs its registers as well. -/
theorem traversals_return_after_half (cpu : Cpu) :
    (ReturnsAfter (gptraverse · cpu) ((cpu.reg .rsi).toNat / 2) ↔ 2 ≤ (cpu.reg .rsi).toNat) ∧
      (ReturnsAfter (mpxtraverse · cpu) ((cpu.reg .rsi).toNat / 2) ↔
        2 ≤ (cpu.reg .rsi).toNat ∧ MpxTraverseEnds cpu) := by
  refine ⟨?_, mpxtraverse_returns_after_half cpu⟩
  obtain ⟨last, -, -, -, settled⟩ := gptraverse_ends cpu
  rw [returnsAfter_iff (gptraverse_monotone cpu) settled, roundsOver_length, roundCount_half]

def emptyBuffer : Cpu :=
  { smallBuffer with reg := Function.update smallBuffer.reg .rsi 0 }

theorem emptyBuffer_not_returns_at_once :
    ¬ReturnsAfter (gptraverse · emptyBuffer) ((emptyBuffer.reg .rsi).toNat / 2) := by
  rintro ⟨fuel, done, final, ran, length⟩
  have none : (emptyBuffer.reg .rsi).toNat / 2 = 0 := by decide
  obtain ⟨last, -, -, same⟩ := gptraverse_result ran
  have rounded := roundCount_pos (emptyBuffer.reg .rsi >>> 1)
  rw [none, (Prod.mk.inj same).1, roundsOver_length] at length
  omega

/-! Bytes loaded -/

def StaysInside (run : Nat → Option (List Round × Cpu)) (cpu : Cpu) : Prop :=
  ∀ fuel done final, run fuel = some (done, final) → ∀ round ∈ done, ∀ address,
    Within round.first 8 address ∨ Within round.second 8 address →
      Within (cpu.reg .rdi) (cpu.reg .rsi).toNat address

theorem last_round_leaves {cpu : Cpu} (size : 2 ≤ (cpu.reg .rsi).toNat) (memory : Memory 64) :
    ∃ round ∈ roundsOver cpu memory, Within round.second 8 (cpu.reg .rdi + cpu.reg .rsi) := by
  have half := half_toNat (cpu.reg .rsi)
  have count := (roundCount_half (cpu.reg .rsi)).mpr size
  have bound := (cpu.reg .rsi).isLt
  refine ⟨roundAt memory (cpu.reg .rdi) (cpu.reg .rdi + cpu.reg .rsi >>> 1)
    ((cpu.reg .rsi).toNat / 2 - 1), List.mem_map_of_mem ?_, ?_⟩
  · rw [List.mem_range, count]
    omega
  · have offset : (BitVec.ofNat 64 ((cpu.reg .rsi).toNat / 2 - 1)).toNat =
        (cpu.reg .rsi).toNat / 2 - 1 := by
      rw [BitVec.toNat_ofNat, Nat.mod_eq_of_lt (by omega)]
    simp only [roundAt, Within]
    generalize BitVec.ofNat 64 ((cpu.reg .rsi).toNat / 2 - 1) = last at offset
    generalize cpu.reg .rsi >>> 1 = middle at half
    generalize cpu.reg .rsi = length at *
    bv_omega

theorem past_end_outside (base count : Word) : ¬Within base count.toNat (base + count) := by
  intro inside
  rw [Within, add_sub_cancel_left] at inside
  exact Nat.lt_irrefl _ inside

theorem leaves_of_ran {cpu : Cpu} (size : 2 ≤ (cpu.reg .rsi).toNat)
    {run : Nat → Option (List Round × Cpu)} {fuel : Nat} {memory : Memory 64} {final : Cpu}
    (ran : run fuel = some (roundsOver cpu memory, final)) : ¬StaysInside run cpu := by
  intro inside
  obtain ⟨round, member, loaded⟩ := last_round_leaves size memory
  exact past_end_outside _ _ (inside _ _ _ ran round member _ (Or.inr loaded))

/-- Each traversal loads the byte after the buffer, whatever its address and size. -/
theorem traversals_leave_buffer {cpu : Cpu} (size : 2 ≤ (cpu.reg .rsi).toNat) :
    ¬StaysInside (gptraverse · cpu) cpu ∧
      (cpu.machine.mpx.Enabled → ¬StaysInside (mpxtraverse · cpu) cpu) := by
  constructor
  · obtain ⟨last, -, -, -, ran⟩ := gptraverse_ends cpu
    exact leaves_of_ran size (ran _ (Nat.le_refl _))
  · intro enabled
    obtain ⟨last, -, -, ran⟩ := mpxtraverse_ends enabled
    exact leaves_of_ran size (ran _ (Nat.le_refl _))

theorem smallBuffer_left :
    ¬StaysInside (gptraverse · smallBuffer) smallBuffer ∧
      ¬StaysInside (mpxtraverse · smallBuffer) smallBuffer :=
  ⟨(traversals_leave_buffer (by decide)).1,
    (traversals_leave_buffer (by decide)).2 ⟨by decide, by decide⟩⟩

def twoBytes : Cpu :=
  { smallBuffer with reg := Function.update smallBuffer.reg .rsi 2 }

theorem twoBytes_overread :
    twoBytes.reg .rdi = 0x20000 ∧ twoBytes.reg .rsi = 2 ∧
      (gptraverse 1 twoBytes).map Prod.fst = some [⟨0x20000, 0x20001, 0⟩] ∧
      (mpxtraverse 1 twoBytes).map Prod.fst = some [⟨0x20000, 0x20001, 0⟩] ∧
      ¬StaysInside (gptraverse · twoBytes) twoBytes ∧
      ¬StaysInside (mpxtraverse · twoBytes) twoBytes := by
  have size : 2 ≤ (twoBytes.reg .rsi).toNat := by decide
  have enabled : twoBytes.machine.mpx.Enabled := ⟨by decide, by decide⟩
  obtain ⟨last, -, -, -, gpRan⟩ := gptraverse_ends twoBytes
  obtain ⟨last', -, -, mpxRan⟩ := mpxtraverse_ends enabled
  exact ⟨by decide, by decide, by decide +kernel, by decide +kernel,
    leaves_of_ran size (gpRan _ (Nat.le_refl _)), leaves_of_ran size (mpxRan _ (Nat.le_refl _))⟩

/-! Registers saved -/

structure Restored (cpu final : Cpu) : Prop where
  rbp : final.reg .rbp = cpu.reg .rbp
  rax : final.reg .rax = cpu.reg .rax
  rcx : final.reg .rcx = cpu.reg .rcx
  rdx : final.reg .rdx = cpu.reg .rdx
  r8 : final.reg .r8 = cpu.reg .r8
  r9 : final.reg .r9 = cpu.reg .r9
  rsp : final.reg .rsp = cpu.reg .rsp + 8

structure Stacked (cpu after : Cpu) (words : List Word) : Prop where
  holds : StackHolds after.machine.mem (after.reg .rsp) words
  others : ∀ reg, reg ≠ .rsp → reg ≠ .rbp → after.reg reg = cpu.reg reg

theorem Stacked.push {cpu after : Cpu} {words : List Word} (stacked : Stacked cpu after words)
    (room : words.length ≤ 6) {src : Gpr} (notRsp : src ≠ .rsp) (notRbp : src ≠ .rbp) :
    Stacked cpu (after.push src) (cpu.reg src :: words) := by
  constructor
  · have pushed := stackHolds_push (by omega) (after.reg src) stacked.holds
    rw [stacked.others src notRsp notRbp] at pushed
    simpa [Cpu.push, Cpu.store, Cpu.set, Machine.store, stacked.others src notRsp notRbp] using pushed
  · intro reg apart framed
    simp [Cpu.push, apart, stacked.others reg apart framed]

theorem saveRegisters_stacked (cpu : Cpu) {second third fourth fifth sixth : Gpr}
    (saved : ∀ reg ∈ [second, third, fourth, fifth, sixth], reg ≠ .rsp ∧ reg ≠ .rbp) :
    Stacked cpu (saveRegisters second third fourth fifth sixth cpu)
      [cpu.reg sixth, cpu.reg fifth, cpu.reg fourth, cpu.reg third, cpu.reg second,
        cpu.reg .rbp] := by
  simp only [List.mem_cons, List.not_mem_nil, or_false, forall_eq_or_imp, forall_eq] at saved
  obtain ⟨⟨rsp2, rbp2⟩, ⟨rsp3, rbp3⟩, ⟨rsp4, rbp4⟩, ⟨rsp5, rbp5⟩, ⟨rsp6, rbp6⟩⟩ := saved
  have framed : Stacked cpu ((cpu.push .rbp).mov .rsp .rbp) [cpu.reg .rbp] := by
    constructor
    · refine ⟨?_, trivial⟩
      simp only [Cpu.mov, Cpu.set_reg, Cpu.push, Cpu.store_reg]
      exact load64_store64 _ _ _
    · intro reg apart framed
      simp [Cpu.mov, Cpu.push, apart, framed]
  have first := framed.push (by simp) rsp2 rbp2
  have next := first.push (by simp) rsp3 rbp3
  have later := next.push (by simp) rsp4 rbp4
  have fifthPushed := later.push (by simp) rsp5 rbp5
  exact fifthPushed.push (by simp) rsp6 rbp6

theorem traverseExit_pops {last : Cpu} {r9 r8 rdx rcx rax rbp : Word}
    (holds : StackHolds last.machine.mem (last.reg .rsp) [r9, r8, rdx, rcx, rax, rbp]) :
    (traverseExit last).reg .r9 = r9 ∧ (traverseExit last).reg .r8 = r8 ∧
      (traverseExit last).reg .rdx = rdx ∧ (traverseExit last).reg .rcx = rcx ∧
      (traverseExit last).reg .rax = rax ∧ (traverseExit last).reg .rbp = rbp ∧
      (traverseExit last).reg .rsp = last.reg .rsp + 56 := by
  obtain ⟨first, second, third, fourth, fifth, sixth, -⟩ := holds
  refine ⟨?_, ?_, ?_, ?_, ?_, ?_, ?_⟩
  · simpa [traverseExit, Cpu.pop, Cpu.ret, Cpu.set, Cpu.branch, Machine.load] using first
  · simpa [traverseExit, Cpu.pop, Cpu.ret, Cpu.set, Cpu.branch, Machine.load] using second
  · simpa [traverseExit, Cpu.pop, Cpu.ret, Cpu.set, Cpu.branch, Machine.load] using third
  · simpa [traverseExit, Cpu.pop, Cpu.ret, Cpu.set, Cpu.branch, Machine.load] using fourth
  · simpa [traverseExit, Cpu.pop, Cpu.ret, Cpu.set, Cpu.branch, Machine.load] using fifth
  · simpa [traverseExit, Cpu.pop, Cpu.ret, Cpu.set, Cpu.branch, Machine.load] using sixth
  · simp [traverseExit, Cpu.pop, Cpu.ret, Cpu.set, Cpu.branch]
    bv_omega

theorem gptraverse_final {cpu : Cpu} {fuel : Nat} {done : List Round} {final : Cpu}
    (ran : gptraverse fuel cpu = some (done, final)) :
    final.reg .rbp = cpu.reg .rbp ∧ final.reg .rax = cpu.reg .rax ∧
      final.reg .rcx = cpu.reg .rdx ∧ final.reg .rdx = cpu.reg .rcx ∧
      final.reg .r8 = cpu.reg .r8 ∧ final.reg .r9 = cpu.reg .r9 ∧
      final.reg .rsp = cpu.reg .rsp + 8 := by
  obtain ⟨last, machine, rsp, same⟩ := gptraverse_result ran
  have saved := saving_saveRegisters cpu .rax .rdx .rcx .r8 .r9
  have stacked : Stacked cpu (saveRegisters .rax .rdx .rcx .r8 .r9 cpu) _ :=
    saveRegisters_stacked cpu (by decide)
  have memory : (gptraverseEntry cpu).machine.mem =
      (saveRegisters .rax .rdx .rcx .r8 .r9 cpu).machine.mem := Machine.nearBranch_mem _
  have holds := stacked.holds
  rw [saved.rsp, ← rsp, ← memory, ← machine] at holds
  obtain ⟨r9, r8, rdx, rcx, rax, rbp, top⟩ := traverseExit_pops holds
  rw [(Prod.mk.inj same).2]
  refine ⟨rbp, rax, rcx, rdx, r8, r9, ?_⟩
  rw [top, rsp]
  bv_omega

theorem mpxtraverseEntry_mem (cpu : Cpu) : (mpxtraverseEntry cpu).machine.mem =
    (saveRegisters .rax .rcx .rdx .r8 .r9 cpu).machine.mem := by
  have made : (mpxtraverseEntry cpu).machine =
      (makeBounds (saveRegisters .rax .rcx .rdx .r8 .r9 cpu)).machine.nearBranch := rfl
  rw [made, Machine.nearBranch_mem, makeBounds_machine, Machine.bndmk_mem, Machine.bndmk_mem]

theorem mpxtraverse_final {cpu : Cpu} (enabled : cpu.machine.mpx.Enabled) {fuel : Nat}
    {done : List Round} {final : Cpu} (ran : mpxtraverse fuel cpu = some (done, final)) :
    Restored cpu final ∧
      ∀ address, Within (cpu.reg .rsp - 80) 32 address → final.machine.mem address = 0 := by
  obtain ⟨last, looped, zero, same⟩ := mpxtraverse_result enabled ran
  have entered := mpxtraverseEntry_entered cpu
  have saved := saving_saveRegisters cpu .rax .rcx .rdx .r8 .r9
  have stacked : Stacked cpu (saveRegisters .rax .rcx .rdx .r8 .r9 cpu) _ :=
    saveRegisters_stacked cpu (by decide)
  have rsp : last.reg .rsp = cpu.reg .rsp - 48 := looped.rsp.trans entered.rsp
  -- the loop writes below the saved registers only
  have kept : ∀ address, Within (cpu.reg .rsp - 48) (8 * 6) address →
      (mpxtraverseEntry cpu).machine.mem address = last.machine.mem address := by
    intro address inside
    refine (looped.wrote.mem address ?_).symm
    simp only [Scratch, Within, entered.rsp] at inside ⊢
    bv_omega
  have holds := stacked.holds
  rw [saved.rsp, ← mpxtraverseEntry_mem] at holds
  have left := stackHolds_congr (by simp) kept holds
  rw [← rsp] at left
  obtain ⟨r9, r8, rdx, rcx, rax, rbp, top⟩ := traverseExit_pops left
  rw [(Prod.mk.inj same).2]
  refine ⟨⟨rbp, rax, rcx, rdx, r8, r9, ?_⟩, ?_⟩
  · rw [top, rsp]
    bv_omega
  · intro address inside
    have exited : (traverseExit last).machine.mem = last.machine.mem := Machine.nearBranch_mem _
    rw [exited]
    apply zero
    simp only [Scratch, Within, entered.rsp] at inside ⊢
    bv_omega

/-- What both traversals promise their caller about the registers they push, and `mpxtraverse`
about its scratch bytes. -/
structure TraversalsRestore (cpu : Cpu) : Prop where
  gp : ∀ fuel done final, gptraverse fuel cpu = some (done, final) → Restored cpu final
  mpx : cpu.machine.mpx.Enabled → ∀ fuel done final, mpxtraverse fuel cpu = some (done, final) →
    Restored cpu final ∧
      ∀ address, Within (cpu.reg .rsp - 80) 32 address → final.machine.mem address = 0

/-- `gptraverse` pushes `rdx` before `rcx` but pops in the order of `mpxtraverse`, so it returns
the two exchanged. -/
theorem traversalsRestore_iff (cpu : Cpu) :
    TraversalsRestore cpu ↔ cpu.reg .rcx = cpu.reg .rdx := by
  constructor
  · intro restore
    obtain ⟨last, -, -, -, ran⟩ := gptraverse_ends cpu
    have ended := ran _ (Nat.le_refl _)
    obtain ⟨-, -, rcx, -⟩ := gptraverse_final ended
    rw [← (restore.gp _ _ _ ended).rcx, rcx]
  · intro same
    constructor
    · intro fuel done final ran
      obtain ⟨rbp, rax, rcx, rdx, r8, r9, rsp⟩ := gptraverse_final ran
      exact ⟨rbp, rax, by rw [rcx, same], by rw [rdx, same], r8, r9, rsp⟩
    · intro enabled fuel done final ran
      exact mpxtraverse_final enabled ran

def exchangedRegisters : Cpu :=
  { smallBuffer with reg := Function.update smallBuffer.reg .rcx 1 }

theorem exchangedRegisters_not_restored : ¬TraversalsRestore exchangedRegisters := by
  intro restore
  obtain ⟨last, -, -, -, ran⟩ := gptraverse_ends exchangedRegisters
  have ended := ran _ (Nat.le_refl _)
  obtain ⟨-, -, rcx, -⟩ := gptraverse_final ended
  rw [(restore.gp _ _ _ ended).rcx] at rcx
  exact absurd rcx (by decide)

end SimplexMpx
