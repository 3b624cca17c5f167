import SimplexMpx.Processor
import SimplexMpx.TraverseCore

/-!
The two traversals in lock step. Both keep the buffer and its midpoint in two registers and stop
when the counter has moved the first to the second, which for an empty half takes `2 ^ 64` rounds.
-/

namespace SimplexMpx

open ByteMemory

namespace Cpu

@[simp] theorem set_reg (dst other : Gpr) (value : Word) (cpu : Cpu) :
    (cpu.set dst value).reg other = if other = dst then value else cpu.reg other :=
  Function.update_apply ..

@[simp] theorem setFlag_reg (value : Word) (cpu : Cpu) : (cpu.setFlag value).reg = cpu.reg := rfl

@[simp] theorem store_reg (address value : Word) (cpu : Cpu) :
    (cpu.store address value).reg = cpu.reg := rfl

@[simp] theorem branch_reg (cpu : Cpu) : cpu.branch.reg = cpu.reg := rfl

theorem branch_of_enabled {cpu : Cpu} (enabled : cpu.machine.mpx.Enabled) : cpu.branch = cpu := by
  simp only [branch, Machine.nearBranch_of_enabled enabled]

theorem branch_branch (cpu : Cpu) : cpu.branch.branch = cpu.branch := by
  simp only [branch, Machine.nearBranch_nearBranch]

theorem branch_of_settled {start cpu : Cpu} (settled : start.branch = start)
    (mpx : cpu.machine.mpx = start.machine.mpx) : cpu.branch = cpu := by
  have still : start.machine.nearBranch = start.machine := congrArg Cpu.machine settled
  simp only [branch, Machine.nearBranch_of_settled still mpx]

end Cpu

/-! What a stretch of code writes -/

/-- Memory outside `region` is as before, and every store in between was inside it. -/
structure WroteOnly (region : Word → Prop) (before after : Cpu) : Prop where
  mem : ∀ address, ¬region address → after.machine.mem address = before.machine.mem address
  stores : ∃ new, after.stores = new ++ before.stores ∧
    ∀ base ∈ new, ∀ address, Within base 8 address → region address

section Writing

variable {region : Word → Prop} {before middle after : Cpu}

theorem WroteOnly.refl (cpu : Cpu) : WroteOnly region cpu cpu :=
  ⟨fun _ _ => rfl, [], rfl, fun _ member => absurd member List.not_mem_nil⟩

theorem WroteOnly.trans (first : WroteOnly region before middle)
    (second : WroteOnly region middle after) : WroteOnly region before after := by
  obtain ⟨new, stored, inside⟩ := first.stores
  obtain ⟨new', stored', inside'⟩ := second.stores
  refine ⟨?_, new' ++ new, by rw [stored', stored, List.append_assoc], ?_⟩
  · intro address outside
    rw [second.mem address outside, first.mem address outside]
  · intro base member
    rcases List.mem_append.mp member with late | early
    · exact inside' base late
    · exact inside base early

theorem WroteOnly.store (wrote : WroteOnly region before after) {address : Word}
    (inside : ∀ other, Within address 8 other → region other) (value : Word) :
    WroteOnly region before (after.store address value) := by
  refine wrote.trans ⟨?_, [address], rfl, ?_⟩
  · intro other outside
    exact store64_outside (fun written => outside (inside other written))
  · intro base member
    rw [List.mem_singleton.mp member]
    exact inside

theorem WroteOnly.push (wrote : WroteOnly region before after) (src : Gpr)
    (inside : ∀ other, Within (after.reg .rsp - 8) 8 other → region other) :
    WroteOnly region before (after.push src) := by
  have moved : WroteOnly region before (after.set .rsp (after.reg .rsp - 8)) :=
    ⟨wrote.mem, wrote.stores⟩
  exact moved.store inside _

theorem WroteOnly.branch (wrote : WroteOnly region before after) :
    WroteOnly region before after.branch :=
  wrote.trans ⟨fun _ _ => congrFun (Machine.nearBranch_mem _) _, [], rfl,
    fun _ member => absurd member List.not_mem_nil⟩

theorem WroteOnly.mono {wider : Word → Prop} (wrote : WroteOnly region before after)
    (within : ∀ address, region address → wider address) : WroteOnly wider before after := by
  obtain ⟨new, stored, inside⟩ := wrote.stores
  exact ⟨fun address outside => wrote.mem address (fun old => outside (within address old)),
    new, stored,
    fun base member address written => within address (inside base member address written)⟩

end Writing

def Frame (cpu : Cpu) : Word → Prop := Within (cpu.reg .rsp - 48) 48

def FrameAndScratch (cpu : Cpu) : Word → Prop := Within (cpu.reg .rsp - 80) 80

theorem frame_subset (cpu : Cpu) (address : Word) (inside : Frame cpu address) :
    FrameAndScratch cpu address := by
  simp only [Frame, FrameAndScratch, Within] at *
  bv_omega

structure Saving (cpu after : Cpu) (depth : Word) : Prop where
  wrote : WroteOnly (Frame cpu) cpu after
  mpx : after.machine.mpx = cpu.machine.mpx
  rsp : after.reg .rsp = cpu.reg .rsp - depth
  rdi : after.reg .rdi = cpu.reg .rdi
  rsi : after.reg .rsi = cpu.reg .rsi

theorem Saving.push {cpu after : Cpu} {depth : Word} (saving : Saving cpu after depth)
    (room : depth.toNat + 8 ≤ 48) (src : Gpr) : Saving cpu (after.push src) (depth + 8) := by
  have inside : ∀ other, Within (after.reg .rsp - 8) 8 other → Frame cpu other := by
    intro other written
    rw [saving.rsp] at written
    simp only [Frame, Within] at *
    bv_omega
  refine ⟨saving.wrote.push src inside, saving.mpx, ?_, ?_, ?_⟩
  · simp only [Cpu.push, Cpu.store_reg, Cpu.set_reg, if_true, saving.rsp]
    bv_omega
  · simp [Cpu.push, saving.rdi]
  · simp [Cpu.push, saving.rsi]

def saveRegisters (second third fourth fifth sixth : Gpr) (cpu : Cpu) : Cpu :=
  let cpu := cpu.push .rbp
  let cpu := cpu.mov .rsp .rbp
  let cpu := cpu.push second
  let cpu := cpu.push third
  let cpu := cpu.push fourth
  let cpu := cpu.push fifth
  cpu.push sixth

theorem saving_saveRegisters (cpu : Cpu) (second third fourth fifth sixth : Gpr) :
    Saving cpu (saveRegisters second third fourth fifth sixth cpu) 48 := by
  have start : Saving cpu cpu 0 := ⟨.refl cpu, rfl, (sub_zero _).symm, rfl, rfl⟩
  have first := start.push (by decide) .rbp
  have framed : Saving cpu ((cpu.push .rbp).mov .rsp .rbp) 8 :=
    ⟨⟨first.wrote.mem, first.wrote.stores⟩, first.mpx, by simp [Cpu.mov, first.rsp],
      by simp [Cpu.mov, first.rdi], by simp [Cpu.mov, first.rsi]⟩
  exact ((((framed.push (by decide) second).push (by decide) third).push (by decide) fourth).push
    (by decide) fifth).push (by decide) sixth

/-! One round -/

def roundAt (memory : Memory 64) (src mid : Word) (counter : Nat) : Round :=
  { first := src + BitVec.ofNat 64 counter
    second := mid + BitVec.ofNat 64 counter
    result := load64 memory (mid + BitVec.ofNat 64 counter) ^^^
      load64 memory (src + BitVec.ofNat 64 counter) }

theorem finished_iff (src half : Word) (counter : Nat) :
    src + (BitVec.ofNat 64 counter + 1) = src + half ↔ BitVec.ofNat 64 (counter + 1) = half := by
  rw [add_right_inj, BitVec.ofNat_add]
  exact Iff.rfl

structure RoundDone (cpu : Cpu) (src half : Word) (counter : Nat) (done : Round × Cpu) : Prop where
  outcome : done.1 = roundAt cpu.machine.mem src (src + half) counter
  flag : done.2.zf = decide (BitVec.ofNat 64 (counter + 1) = half)
  machine : done.2.machine = cpu.machine
  stores : done.2.stores = cpu.stores
  rdx : done.2.reg .rdx = BitVec.ofNat 64 (counter + 1)
  rdi : done.2.reg .rdi = cpu.reg .rdi
  rsi : done.2.reg .rsi = cpu.reg .rsi
  rsp : done.2.reg .rsp = cpu.reg .rsp

theorem readAndCompare_done {cpu : Cpu} {src half : Word} {counter : Nat}
    (rax : cpu.reg .rax = src) (rcx : cpu.reg .rcx = src + half)
    (rdx : cpu.reg .rdx = BitVec.ofNat 64 counter) :
    RoundDone cpu src half counter (readAndCompare cpu) := by
  refine ⟨?_, ?_, rfl, rfl, ?_, ?_, ?_, ?_⟩
  · simp [readAndCompare, Cpu.movIndexed, Cpu.xor, Cpu.set, Cpu.setFlag, rax, rcx, rdx, roundAt,
      Machine.load]
  · have compared : (readAndCompare cpu).2.zf =
        decide (src + (BitVec.ofNat 64 counter + 1) - (src + half) = 0) := by
      simp [readAndCompare, Cpu.movIndexed, Cpu.xor, Cpu.cmp, Cpu.add, Cpu.inc, Cpu.set,
        Cpu.setFlag, rax, rcx, rdx]
    rw [compared, decide_eq_decide, sub_eq_zero, finished_iff]
  · rw [BitVec.ofNat_add, ← rdx]
    simp [readAndCompare, Cpu.movIndexed, Cpu.xor, Cpu.cmp, Cpu.add, Cpu.inc]
  · simp [readAndCompare, Cpu.movIndexed, Cpu.xor, Cpu.cmp, Cpu.add, Cpu.inc]
  · simp [readAndCompare, Cpu.movIndexed, Cpu.xor, Cpu.cmp, Cpu.add, Cpu.inc]
  · simp [readAndCompare, Cpu.movIndexed, Cpu.xor, Cpu.cmp, Cpu.add, Cpu.inc]

/-! The loop -/

def roundCount (half : Word) : Nat := if half = 0 then 2 ^ 64 else half.toNat

theorem roundCount_pos (half : Word) : 0 < roundCount half := by
  unfold roundCount
  split
  · decide
  · bv_omega

theorem roundCount_reaches (half : Word) : BitVec.ofNat 64 (roundCount half) = half := by
  unfold roundCount
  split
  · bv_omega
  · simp

theorem before_roundCount {half : Word} {counter : Nat} (positive : 0 < counter)
    (before : counter < roundCount half) : BitVec.ofNat 64 counter ≠ half := by
  unfold roundCount at before
  split at before
  · bv_omega
  · bv_omega

theorem rounds_continue {body : Cpu → Round × Cpu} {cpu : Cpu} (going : (body cpu).2.zf = false)
    (fuel : Nat) :
    rounds body (fuel + 1) cpu =
      (rounds body fuel (body cpu).2.branch).map fun (later, final) =>
        ((body cpu).1 :: later, final) := by
  simp only [rounds, going, Bool.false_eq_true, if_false]

/-- A body that keeps an invariant and leaves at `half` runs the rounds up to `roundCount half`. -/
theorem rounds_from {body : Cpu → Round × Cpu} {Invariant : Nat → Cpu → Prop}
    {outcome : Nat → Round} {half : Word}
    (step : ∀ counter cpu, Invariant counter cpu → (body cpu).1 = outcome counter ∧
      (body cpu).2.zf = decide (BitVec.ofNat 64 (counter + 1) = half) ∧
      Invariant (counter + 1) (body cpu).2.branch)
    (remaining counter : Nat) (last : counter + (remaining + 1) = roundCount half) {cpu : Cpu}
    (start : Invariant counter cpu) :
    ∃ final, Invariant (roundCount half) final ∧ ∀ fuel, remaining + 1 ≤ fuel →
      rounds body fuel cpu = some ((List.range' counter (remaining + 1)).map outcome, final) := by
  induction remaining generalizing counter cpu with
  | zero =>
      obtain ⟨result, flag, after⟩ := step counter cpu start
      have reached : BitVec.ofNat 64 (counter + 1) = half := by
        rw [last]
        exact roundCount_reaches half
      refine ⟨(body cpu).2.branch, last ▸ after, ?_⟩
      intro fuel enough
      obtain ⟨fuel, rfl⟩ := Nat.exists_eq_add_of_le' enough
      simp [rounds, flag, reached, result]
  | succ remaining ih =>
      obtain ⟨result, flag, after⟩ := step counter cpu start
      have going : BitVec.ofNat 64 (counter + 1) ≠ half :=
        before_roundCount (by omega) (by omega)
      obtain ⟨final, ended, ran⟩ := ih (counter + 1) (by omega) after
      refine ⟨final, ended, ?_⟩
      intro fuel enough
      obtain ⟨fuel, rfl⟩ := Nat.exists_eq_add_of_le' enough
      have later := ran (fuel + (remaining + 1)) (by omega)
      have unrolled : List.range' counter (remaining + 1 + 1) =
          counter :: List.range' (counter + 1) (remaining + 1) := List.range'_succ
      rw [← Nat.add_assoc, rounds_continue (by rw [flag, decide_eq_false going]), later, unrolled,
        List.map_cons, ← result]
      rfl

theorem rounds_all {body : Cpu → Round × Cpu} {Invariant : Nat → Cpu → Prop}
    {outcome : Nat → Round} {half : Word}
    (step : ∀ counter cpu, Invariant counter cpu → (body cpu).1 = outcome counter ∧
      (body cpu).2.zf = decide (BitVec.ofNat 64 (counter + 1) = half) ∧
      Invariant (counter + 1) (body cpu).2.branch)
    {cpu : Cpu} (start : Invariant 0 cpu) :
    ∃ final, Invariant (roundCount half) final ∧ ∀ fuel, roundCount half ≤ fuel →
      rounds body fuel cpu = some ((List.range (roundCount half)).map outcome, final) := by
  have positive := roundCount_pos half
  have total : roundCount half - 1 + 1 = roundCount half := by omega
  obtain ⟨final, ended, ran⟩ := rounds_from step (roundCount half - 1) 0 (by omega) start
  refine ⟨final, ended, ?_⟩
  intro fuel enough
  rw [ran fuel (by omega), total, List.range_eq_range']

/-! `gptraverse` -/

structure GpLooping (start : Cpu) (counter : Nat) (cpu : Cpu) : Prop where
  rdi : cpu.reg .rdi = start.reg .rdi
  rsi : cpu.reg .rsi = start.reg .rsi
  rdx : cpu.reg .rdx = BitVec.ofNat 64 counter
  machine : cpu.machine = start.machine
  stores : cpu.stores = start.stores

theorem gptraverseContinue_step {start : Cpu} (settled : start.branch = start)
    {half : Word} (midpoint : start.reg .rsi = start.reg .rdi + half) (counter : Nat) (cpu : Cpu)
    (looping : GpLooping start counter cpu ∧ cpu.reg .rsp = start.reg .rsp) :
    (gptraverseContinue cpu).1 =
        roundAt start.machine.mem (start.reg .rdi) (start.reg .rdi + half) counter ∧
      (gptraverseContinue cpu).2.zf = decide (BitVec.ofNat 64 (counter + 1) = half) ∧
      GpLooping start (counter + 1) (gptraverseContinue cpu).2.branch ∧
      (gptraverseContinue cpu).2.branch.reg .rsp = start.reg .rsp := by
  obtain ⟨looping, rsp⟩ := looping
  have rax : ((cpu.mov .rdi .rax).mov .rsi .rcx).reg .rax = start.reg .rdi := by
    simp [Cpu.mov, looping.rdi]
  have rcx : ((cpu.mov .rdi .rax).mov .rsi .rcx).reg .rcx = start.reg .rdi + half := by
    simp [Cpu.mov, looping.rsi, midpoint]
  have rdx : ((cpu.mov .rdi .rax).mov .rsi .rcx).reg .rdx = BitVec.ofNat 64 counter := by
    simp [Cpu.mov, looping.rdx]
  have done : RoundDone _ _ _ _ (gptraverseContinue cpu) := readAndCompare_done rax rcx rdx
  have machine : (gptraverseContinue cpu).2.machine = start.machine :=
    done.machine.trans looping.machine
  refine ⟨?_, done.flag, ?_⟩
  · rw [done.outcome, ← looping.machine]
    rfl
  · rw [Cpu.branch_of_settled settled (congrArg Machine.mpx machine)]
    refine ⟨⟨?_, ?_, done.rdx, machine, done.stores.trans looping.stores⟩, ?_⟩
    · rw [done.rdi, ← looping.rdi]
      simp [Cpu.mov]
    · rw [done.rsi, ← looping.rsi]
      simp [Cpu.mov]
    · rw [done.rsp, ← rsp]
      simp [Cpu.mov]

/-! `mpxtraverse` -/

def Scratch (cpu : Cpu) : Word → Prop := Within (cpu.reg .rsp - 32) 32

theorem zero_four_words (memory : Memory 64) (base : Word) :
    store64 (store64 (store64 (store64 memory (base + 24) 0) (base + 16) 0) (base + 8) 0) base 0 =
      fill memory base 32 0 := by
  have second : base + 24 = base + 16 + 8 := by bv_omega
  have third : base + 16 = base + 8 + 8 := by bv_omega
  rw [store64_zero memory, second, store64_zero_above memory _ (by decide), third,
    store64_zero_above memory _ (by decide), store64_zero_above memory _ (by decide)]

theorem zero_four_words_below (memory : Memory 64) (rsp : Word) :
    store64 (store64 (store64 (store64 memory (rsp + -0x08) 0) (rsp + -0x10) 0) (rsp + -0x18) 0)
      (rsp + -0x20) 0 = fill memory (rsp - 32) 32 0 := by
  have lowest : rsp + -0x20 = rsp - 32 := by bv_omega
  have second : rsp + -0x18 = rsp - 32 + 8 := by bv_omega
  have third : rsp + -0x10 = rsp - 32 + 16 := by bv_omega
  have highest : rsp + -0x08 = rsp - 32 + 24 := by bv_omega
  rw [lowest, second, third, highest, zero_four_words memory (rsp - 32)]

theorem WroteOnly.bndmov {region : Word → Prop} {before after : Cpu}
    (wrote : WroteOnly region before after) (bnd : Bnd) {displacement : Word}
    (inside : ∀ other, Within (after.reg .rsp + displacement) 16 other → region other) :
    WroteOnly region before (after.bndmov bnd displacement) := by
  refine wrote.trans ⟨?_, ?_⟩
  · intro other outside
    exact Machine.bndmov_mem_outside (fun written => outside (inside other written))
  · have halves := Machine.within_sixteen (after.reg .rsp + displacement)
    by_cases on : after.machine.mpx.en = true
    · refine ⟨[after.reg .rsp + displacement + 8, after.reg .rsp + displacement],
        by simp [Cpu.bndmov, on], ?_⟩
      intro base member other written
      apply inside
      rw [halves]
      simp only [List.mem_cons, List.not_mem_nil, or_false] at member
      rcases member with rfl | rfl
      · exact Or.inr written
      · exact Or.inl written
    · exact ⟨[], by simp [Cpu.bndmov, on], fun _ member => absurd member List.not_mem_nil⟩

theorem WroteOnly.andqZero {region : Word → Prop} {before after : Cpu}
    (wrote : WroteOnly region before after) {displacement : Word}
    (inside : ∀ other, Within (after.reg .rsp + displacement) 8 other → region other) :
    WroteOnly region before (after.andqZero displacement) := by
  have stored := wrote.store inside (after.machine.load (after.reg .rsp + displacement) &&& 0)
  exact ⟨stored.mem, stored.stores⟩

theorem andqZero_machine (displacement : Word) (cpu : Cpu) :
    (cpu.andqZero displacement).machine =
      cpu.machine.store (cpu.reg .rsp + displacement) 0 := by
  simp [Cpu.andqZero, Cpu.store, Cpu.setFlag]

def spillBounds (cpu : Cpu) : Cpu :=
  let cpu := cpu.bndmov .bnd0 (-0x10)
  cpu.bndmov .bnd1 (-0x20)

theorem spillBounds_loads {cpu : Cpu} (on : cpu.machine.mpx.en = true) :
    (spillBounds cpu).machine.load (cpu.reg .rsp + -0x10) = (cpu.machine.mpx.bnd .bnd0).lb ∧
      (spillBounds cpu).machine.load (cpu.reg .rsp + -0x20) = (cpu.machine.mpx.bnd .bnd1).lb := by
  have still : (cpu.machine.bndmov .bnd0 (cpu.reg .rsp + -0x10)).mpx.en = true := by
    rwa [Machine.bndmov_mpx]
  refine ⟨?_, ?_⟩
  · have kept : (spillBounds cpu).machine.load (cpu.reg .rsp + -0x10) =
        (cpu.machine.bndmov .bnd0 (cpu.reg .rsp + -0x10)).load (cpu.reg .rsp + -0x10) := by
      apply load64_congr
      intro address inside
      apply Machine.bndmov_mem_outside
      intro spilled
      simp only [Within, Cpu.bndmov] at *
      bv_omega
    rw [kept, Machine.bndmov_load_lower on]
  · have lower := Machine.bndmov_load_lower still .bnd1 (cpu.reg .rsp + -0x20)
    rwa [Machine.bndmov_mpx] at lower

theorem spillBounds_wrote (cpu : Cpu) : WroteOnly (Scratch cpu) cpu (spillBounds cpu) := by
  refine ((WroteOnly.refl cpu).bndmov .bnd0 ?_).bndmov .bnd1 ?_
  · intro other written
    simp only [Scratch, Within] at *
    bv_omega
  · intro other written
    simp only [Scratch, Within, Cpu.bndmov] at *
    bv_omega

theorem spillBounds_mpx (cpu : Cpu) : (spillBounds cpu).machine.mpx = cpu.machine.mpx := by
  simp only [spillBounds, Cpu.bndmov, Machine.bndmov_mpx]

theorem fetchBounds_machine (cpu : Cpu) :
    (fetchBounds cpu).machine =
      ((((spillBounds cpu).machine.store (cpu.reg .rsp + -0x08) 0).store (cpu.reg .rsp + -0x10)
        0).store (cpu.reg .rsp + -0x18) 0).store (cpu.reg .rsp + -0x20) 0 := by
  simp only [fetchBounds, andqZero_machine]
  rfl

theorem fetchBounds_mem (cpu : Cpu) :
    (fetchBounds cpu).machine.mem = fill cpu.machine.mem (cpu.reg .rsp - 32) 32 0 := by
  rw [← fill_congr (spillBounds_wrote cpu).mem, ← zero_four_words_below, fetchBounds_machine,
    Machine.store_mem, Machine.store_mem, Machine.store_mem, Machine.store_mem]

theorem fetchBounds_wrote (cpu : Cpu) : WroteOnly (Scratch cpu) cpu (fetchBounds cpu) := by
  have words : ∀ displacement : Word, displacement + 32 = 0 ∨ displacement + 24 = 0 ∨
      displacement + 16 = 0 ∨ displacement + 8 = 0 → ∀ other,
        Within (cpu.reg .rsp + displacement) 8 other → Scratch cpu other := by
    intro displacement choice other written
    simp only [Scratch, Within] at *
    bv_omega
  have moved : WroteOnly (Scratch cpu) cpu
      (((spillBounds cpu).movStack (-0x10) .rax).movStack (-0x20) .rcx) :=
    ⟨(spillBounds_wrote cpu).mem, (spillBounds_wrote cpu).stores⟩
  have top := moved.andqZero (words (-0x08) (by decide))
  have third := top.andqZero (words (-0x10) (by decide))
  have fourth := third.andqZero (words (-0x18) (by decide))
  exact fourth.andqZero (words (-0x20) (by decide))

theorem fetchBounds_rax (cpu : Cpu) :
    (fetchBounds cpu).reg .rax = (spillBounds cpu).machine.load (cpu.reg .rsp + -0x10) := rfl

theorem fetchBounds_rcx (cpu : Cpu) :
    (fetchBounds cpu).reg .rcx = (spillBounds cpu).machine.load (cpu.reg .rsp + -0x20) := rfl

theorem fetchBounds_mpx (cpu : Cpu) : (fetchBounds cpu).machine.mpx = cpu.machine.mpx := by
  rw [fetchBounds_machine, Machine.store_mpx, Machine.store_mpx, Machine.store_mpx,
    Machine.store_mpx, spillBounds_mpx]

/-- The loop over bounds registers keeps the scratch bytes zero from the first round on. -/
structure MpxLooping (start : Cpu) (counter : Nat) (cpu : Cpu) : Prop where
  rsp : cpu.reg .rsp = start.reg .rsp
  rdx : cpu.reg .rdx = BitVec.ofNat 64 counter
  mpx : cpu.machine.mpx = start.machine.mpx
  filled : fill cpu.machine.mem (start.reg .rsp - 32) 32 0 =
    fill start.machine.mem (start.reg .rsp - 32) 32 0
  wrote : WroteOnly (Scratch start) start cpu

def ScratchZero (start cpu : Cpu) : Prop :=
  ∀ address, Scratch start address → cpu.machine.mem address = 0

section Looping

variable {start : Cpu} (settled : start.branch = start) {src half : Word} {counter : Nat} {cpu : Cpu}
include settled

/-- A round from the two words its loads find in the scratch bytes, whoever wrote them. -/
theorem mpxtraverseContinue_loaded (looping : MpxLooping start counter cpu)
    (first : (spillBounds cpu).machine.load (cpu.reg .rsp + -0x10) = src)
    (second : (spillBounds cpu).machine.load (cpu.reg .rsp + -0x20) = src + half) :
    (mpxtraverseContinue cpu).1 =
        roundAt (fill start.machine.mem (start.reg .rsp - 32) 32 0) src (src + half) counter ∧
      (mpxtraverseContinue cpu).2.zf = decide (BitVec.ofNat 64 (counter + 1) = half) ∧
      MpxLooping start (counter + 1) (mpxtraverseContinue cpu).2.branch ∧
      ScratchZero start (mpxtraverseContinue cpu).2.branch := by
  have rdx : (fetchBounds cpu).reg .rdx = BitVec.ofNat 64 counter := looping.rdx
  have done : RoundDone _ src half counter (mpxtraverseContinue cpu) :=
    readAndCompare_done (by rw [fetchBounds_rax, first]) (by rw [fetchBounds_rcx, second]) rdx
  have memory : (fetchBounds cpu).machine.mem =
      fill start.machine.mem (start.reg .rsp - 32) 32 0 := by
    rw [fetchBounds_mem, ← looping.filled, looping.rsp]
  have registers : (mpxtraverseContinue cpu).2.machine.mpx = start.machine.mpx := by
    rw [done.machine, fetchBounds_mpx, looping.mpx]
  have scratch : Scratch cpu = Scratch start := by rw [Scratch, looping.rsp, Scratch]
  refine ⟨by rw [done.outcome, memory], done.flag, ?_⟩
  rw [Cpu.branch_of_settled settled registers]
  refine ⟨⟨done.rsp.trans looping.rsp, done.rdx, registers, ?_, ?_⟩, ?_⟩
  · rw [done.machine, memory, fill_fill]
  · have fetch := looping.wrote.trans (scratch ▸ fetchBounds_wrote cpu)
    exact ⟨by rw [done.machine]; exact fetch.mem, by rw [done.stores]; exact fetch.stores⟩
  · intro address inside
    rw [done.machine, memory]
    exact if_pos inside

theorem mpxtraverseContinue_step (on : start.machine.mpx.en = true)
    (first : (start.machine.mpx.bnd .bnd0).lb = src)
    (second : (start.machine.mpx.bnd .bnd1).lb = src + half) (counter : Nat) (cpu : Cpu)
    (looping : MpxLooping start counter cpu ∧ (0 < counter → ScratchZero start cpu)) :
    (mpxtraverseContinue cpu).1 =
        roundAt (fill start.machine.mem (start.reg .rsp - 32) 32 0) src (src + half) counter ∧
      (mpxtraverseContinue cpu).2.zf = decide (BitVec.ofNat 64 (counter + 1) = half) ∧
      MpxLooping start (counter + 1) (mpxtraverseContinue cpu).2.branch ∧
      (0 < counter + 1 → ScratchZero start (mpxtraverseContinue cpu).2.branch) := by
  obtain ⟨looping, -⟩ := looping
  have still : cpu.machine.mpx.en = true := looping.mpx ▸ on
  obtain ⟨lower, middle⟩ := spillBounds_loads still
  rw [looping.mpx, first] at lower
  rw [looping.mpx, second] at middle
  obtain ⟨outcome, flag, after, zero⟩ :=
    mpxtraverseContinue_loaded settled looping lower middle
  exact ⟨outcome, flag, after, fun _ => zero⟩

end Looping

/-! Whole functions -/

/-- Where each loop starts: the frame written, the halves of the buffer in place. -/
structure Entered (cpu start : Cpu) : Prop where
  wrote : WroteOnly (Frame cpu) cpu start
  settled : start.branch = start
  rsp : start.reg .rsp = cpu.reg .rsp - 48
  rdx : start.reg .rdx = 0

structure GpEntered (cpu start : Cpu) : Prop extends Entered cpu start where
  rdi : start.reg .rdi = cpu.reg .rdi
  rsi : start.reg .rsi = cpu.reg .rdi + cpu.reg .rsi >>> 1

theorem gptraverseEntry_entered (cpu : Cpu) : GpEntered cpu (gptraverseEntry cpu) := by
  have saved := saving_saveRegisters cpu .rax .rdx .rcx .r8 .r9
  have unfolded : gptraverseEntry cpu = ((((((saveRegisters .rax .rdx .rcx .r8 .r9 cpu).shr
      .rsi).add .rdi .rsi).xor .rax .rax).xor .rcx .rcx).xor .rdx .rdx).branch := rfl
  have moved : WroteOnly (Frame cpu) cpu ((((((saveRegisters .rax .rdx .rcx .r8 .r9 cpu).shr
      .rsi).add .rdi .rsi).xor .rax .rax).xor .rcx .rcx).xor .rdx .rdx) :=
    ⟨saved.wrote.mem, saved.wrote.stores⟩
  rw [unfolded]
  refine ⟨⟨moved.branch, Cpu.branch_branch _, ?_, ?_⟩, ?_, ?_⟩
  · simp [Cpu.shr, Cpu.add, Cpu.xor, saved.rsp]
  · simp [Cpu.xor]
  · simp [Cpu.shr, Cpu.add, Cpu.xor, saved.rdi]
  · simp [Cpu.shr, Cpu.add, Cpu.xor, saved.rdi, saved.rsi, BitVec.add_comm]

def makeBounds (cpu : Cpu) : Cpu :=
  let cpu := cpu.shr .rsi
  let cpu := cpu.mov .rdi .rdx
  let cpu := cpu.mov .rsi .rax
  let cpu := cpu.sub 1 .rax
  let cpu := cpu.bndmk .rdx .rax .bnd0
  let cpu := cpu.add .rsi .rdx
  cpu.bndmk .rdx .rax .bnd1

theorem makeBounds_machine (cpu : Cpu) :
    (makeBounds cpu).machine =
      (cpu.machine.bndmk (cpu.reg .rdi) (cpu.reg .rsi >>> 1 - 1) .bnd0).bndmk
        (cpu.reg .rdi + cpu.reg .rsi >>> 1) (cpu.reg .rsi >>> 1 - 1) .bnd1 := by
  simp [makeBounds, Cpu.shr, Cpu.mov, Cpu.sub, Cpu.add, Cpu.bndmk, Cpu.set, Cpu.setFlag]

theorem makeBounds_lower {cpu : Cpu} (on : cpu.machine.mpx.en = true) :
    ((makeBounds cpu).machine.mpx.bnd .bnd0).lb = cpu.reg .rdi ∧
      ((makeBounds cpu).machine.mpx.bnd .bnd1).lb = cpu.reg .rdi + cpu.reg .rsi >>> 1 := by
  have still : (cpu.machine.bndmk (cpu.reg .rdi) (cpu.reg .rsi >>> 1 - 1) .bnd0).mpx.en = true := by
    simpa [MpxState.en] using on
  rw [makeBounds_machine, Machine.bndmk_of_en still, Machine.bndmk_of_en on]
  simp [Machine.setBnd]

/-- `mpxtraverse` up to the jump into its loop. -/
def prepareBounds (cpu : Cpu) : Cpu :=
  let cpu := makeBounds (saveRegisters .rax .rcx .rdx .r8 .r9 cpu)
  let cpu := cpu.xor .rax .rax
  let cpu := cpu.xor .rcx .rcx
  cpu.xor .rdx .rdx

theorem mpxtraverseEntry_eq (cpu : Cpu) : mpxtraverseEntry cpu = (prepareBounds cpu).branch := rfl

theorem prepareBounds_machine (cpu : Cpu) : (prepareBounds cpu).machine =
    (makeBounds (saveRegisters .rax .rcx .rdx .r8 .r9 cpu)).machine := rfl

theorem prepareBounds_bndcfgu (cpu : Cpu) :
    (prepareBounds cpu).machine.mpx.bndcfgu = cpu.machine.mpx.bndcfgu := by
  have saved := saving_saveRegisters cpu .rax .rcx .rdx .r8 .r9
  rw [prepareBounds_machine, makeBounds_machine, Machine.bndmk_bndcfgu, Machine.bndmk_bndcfgu,
    saved.mpx]

theorem mpxtraverseEntry_entered (cpu : Cpu) : Entered cpu (mpxtraverseEntry cpu) := by
  have saved := saving_saveRegisters cpu .rax .rcx .rdx .r8 .r9
  have memory : (prepareBounds cpu).machine.mem =
      (saveRegisters .rax .rcx .rdx .r8 .r9 cpu).machine.mem := by
    rw [prepareBounds_machine, makeBounds_machine, Machine.bndmk_mem, Machine.bndmk_mem]
  have prepared : WroteOnly (Frame cpu) cpu (prepareBounds cpu) := by
    refine ⟨?_, saved.wrote.stores⟩
    intro address outside
    rw [← saved.wrote.mem address outside]
    exact congrFun memory address
  rw [mpxtraverseEntry_eq]
  refine ⟨prepared.branch, Cpu.branch_branch _, ?_, ?_⟩
  · simp [prepareBounds, makeBounds, Cpu.bndmk, Cpu.shr, Cpu.mov, Cpu.sub, Cpu.add, Cpu.xor,
      saved.rsp]
  · simp [prepareBounds, Cpu.xor]

theorem mpxtraverseEntry_bndcfgu (cpu : Cpu) :
    (mpxtraverseEntry cpu).machine.mpx.bndcfgu = cpu.machine.mpx.bndcfgu := by
  rw [← prepareBounds_bndcfgu cpu]
  exact Machine.nearBranch_bndcfgu _

theorem mpxtraverseEntry_en (cpu : Cpu) :
    (mpxtraverseEntry cpu).machine.mpx.en = cpu.machine.mpx.en := by
  rw [MpxState.en, mpxtraverseEntry_bndcfgu, MpxState.en]

theorem mpxtraverseEntry_lower {cpu : Cpu} (enabled : cpu.machine.mpx.Enabled) :
    ((mpxtraverseEntry cpu).machine.mpx.bnd .bnd0).lb = cpu.reg .rdi ∧
      ((mpxtraverseEntry cpu).machine.mpx.bnd .bnd1).lb = cpu.reg .rdi + cpu.reg .rsi >>> 1 := by
  have saved := saving_saveRegisters cpu .rax .rcx .rdx .r8 .r9
  have on : (saveRegisters .rax .rcx .rdx .r8 .r9 cpu).machine.mpx.en = true := saved.mpx ▸ enabled.1
  have made := makeBounds_lower on
  rwa [saved.rdi, saved.rsi, ← prepareBounds_machine, ← Cpu.branch_of_enabled
    (enabled_of_bndcfgu_eq (prepareBounds_bndcfgu cpu) enabled), ← mpxtraverseEntry_eq] at made

theorem WroteOnly.traverseExit {region : Word → Prop} {before after : Cpu}
    (wrote : WroteOnly region before after) : WroteOnly region before (traverseExit after) := by
  have left := wrote.branch
  exact ⟨left.mem, left.stores⟩

/-- All rounds of a traversal started in `cpu`, over the memory its loop reads. -/
def roundsOver (cpu : Cpu) (memory : Memory 64) : List Round :=
  (List.range (roundCount (cpu.reg .rsi >>> 1))).map
    (roundAt memory (cpu.reg .rdi) (cpu.reg .rdi + cpu.reg .rsi >>> 1))

theorem roundsOver_length (cpu : Cpu) (memory : Memory 64) :
    (roundsOver cpu memory).length = roundCount (cpu.reg .rsi >>> 1) := by
  rw [roundsOver, List.length_map, List.length_range]

theorem gptraverse_ends (cpu : Cpu) :
    ∃ last, last.machine = (gptraverseEntry cpu).machine ∧
      last.stores = (gptraverseEntry cpu).stores ∧ last.reg .rsp = cpu.reg .rsp - 48 ∧
      ∀ fuel, roundCount (cpu.reg .rsi >>> 1) ≤ fuel →
        gptraverse fuel cpu =
          some (roundsOver cpu (gptraverseEntry cpu).machine.mem, traverseExit last) := by
  have entered := gptraverseEntry_entered cpu
  have midpoint : (gptraverseEntry cpu).reg .rsi =
      (gptraverseEntry cpu).reg .rdi + cpu.reg .rsi >>> 1 := by rw [entered.rsi, entered.rdi]
  have start : GpLooping (gptraverseEntry cpu) 0 (gptraverseEntry cpu) :=
    ⟨rfl, rfl, entered.rdx, rfl, rfl⟩
  obtain ⟨last, ⟨looped, rsp⟩, ran⟩ :=
    rounds_all (gptraverseContinue_step entered.settled midpoint) ⟨start, rfl⟩
  refine ⟨last, looped.machine, looped.stores, rsp.trans entered.rsp, ?_⟩
  intro fuel enough
  rw [gptraverse, ran fuel enough, entered.rdi]
  rfl

theorem gptraverse_runs (cpu : Cpu) :
    ∃ memory final, (∀ address, ¬Frame cpu address → memory address = cpu.machine.mem address) ∧
      WroteOnly (Frame cpu) cpu final ∧
      ∀ fuel, roundCount (cpu.reg .rsi >>> 1) ≤ fuel →
        gptraverse fuel cpu = some (roundsOver cpu memory, final) := by
  have entered := gptraverseEntry_entered cpu
  obtain ⟨last, machine, stores, -, ran⟩ := gptraverse_ends cpu
  have wrote : WroteOnly (Frame cpu) cpu last :=
    ⟨by rw [machine]; exact entered.wrote.mem, by rw [stores]; exact entered.wrote.stores⟩
  exact ⟨(gptraverseEntry cpu).machine.mem, traverseExit last, entered.wrote.mem,
    wrote.traverseExit, ran⟩

theorem mpxtraverse_ends {cpu : Cpu} (enabled : cpu.machine.mpx.Enabled) :
    ∃ last, MpxLooping (mpxtraverseEntry cpu) (roundCount (cpu.reg .rsi >>> 1)) last ∧
      ScratchZero (mpxtraverseEntry cpu) last ∧
      ∀ fuel, roundCount (cpu.reg .rsi >>> 1) ≤ fuel →
        mpxtraverse fuel cpu = some (roundsOver cpu (fill (mpxtraverseEntry cpu).machine.mem
          ((mpxtraverseEntry cpu).reg .rsp - 32) 32 0), traverseExit last) := by
  have entered := mpxtraverseEntry_entered cpu
  obtain ⟨first, second⟩ := mpxtraverseEntry_lower enabled
  have on : (mpxtraverseEntry cpu).machine.mpx.en = true := by
    rw [mpxtraverseEntry_en, enabled.1]
  have start : MpxLooping (mpxtraverseEntry cpu) 0 (mpxtraverseEntry cpu) :=
    ⟨rfl, entered.rdx, rfl, rfl, .refl _⟩
  obtain ⟨last, ⟨looped, zero⟩, ran⟩ :=
    rounds_all (mpxtraverseContinue_step entered.settled on first second)
      ⟨start, fun impossible => absurd impossible (Nat.lt_irrefl 0)⟩
  refine ⟨last, looped, zero (roundCount_pos _), ?_⟩
  intro fuel enough
  rw [mpxtraverse, ran fuel enough]
  rfl

theorem mpxtraverse_runs {cpu : Cpu} (enabled : cpu.machine.mpx.Enabled) :
    ∃ memory final,
      (∀ address, ¬FrameAndScratch cpu address → memory address = cpu.machine.mem address) ∧
      WroteOnly (FrameAndScratch cpu) cpu final ∧
      ∀ fuel, roundCount (cpu.reg .rsi >>> 1) ≤ fuel →
        mpxtraverse fuel cpu = some (roundsOver cpu memory, final) := by
  have entered := mpxtraverseEntry_entered cpu
  obtain ⟨last, looped, -, ran⟩ := mpxtraverse_ends enabled
  have scratch : ∀ address, Scratch (mpxtraverseEntry cpu) address →
      FrameAndScratch cpu address := by
    intro address inside
    simp only [Scratch, FrameAndScratch, Within, entered.rsp] at *
    bv_omega
  have framed : WroteOnly (FrameAndScratch cpu) cpu (mpxtraverseEntry cpu) :=
    entered.wrote.mono (frame_subset cpu)
  refine ⟨fill (mpxtraverseEntry cpu).machine.mem ((mpxtraverseEntry cpu).reg .rsp - 32) 32 0,
    traverseExit last, ?_, (framed.trans (looped.wrote.mono scratch)).traverseExit, ran⟩
  intro address outside
  rw [fill_outside (fun inside => outside (scratch address inside))]
  exact framed.mem address outside

/-- The loads of a round stay clear of the stack bytes either function uses. -/
def ClearOfStack (cpu : Cpu) (round : Round) : Prop :=
  ∀ address, Within round.first 8 address ∨ Within round.second 8 address →
    ¬FrameAndScratch cpu address

theorem roundAt_result_congr {cpu : Cpu} {memory memory' : Memory 64}
    (agree : ∀ address, ¬FrameAndScratch cpu address → memory address = memory' address)
    {src mid : Word} {counter : Nat} (clear : ClearOfStack cpu (roundAt memory src mid counter)) :
    (roundAt memory src mid counter).result = (roundAt memory' src mid counter).result := by
  have second : load64 memory (mid + BitVec.ofNat 64 counter) =
      load64 memory' (mid + BitVec.ofNat 64 counter) :=
    load64_congr fun address inside => agree address (clear address (Or.inr inside))
  have first : load64 memory (src + BitVec.ofNat 64 counter) =
      load64 memory' (src + BitVec.ofNat 64 counter) :=
    load64_congr fun address inside => agree address (clear address (Or.inl inside))
  simp only [roundAt, second, first]

/-- From any state with MPX enabled both traversals end, after the same rounds with the same
loads, and write only to their stack. -/
theorem traversals_agree {cpu : Cpu} (enabled : cpu.machine.mpx.Enabled) :
    ∃ gpRounds gpFinal mpxRounds mpxFinal,
      (∀ fuel, gpRounds.length ≤ fuel → gptraverse fuel cpu = some (gpRounds, gpFinal)) ∧
      (∀ fuel, mpxRounds.length ≤ fuel → mpxtraverse fuel cpu = some (mpxRounds, mpxFinal)) ∧
      List.Forall₂ (fun gp mpx => gp.first = mpx.first ∧ gp.second = mpx.second ∧
        (ClearOfStack cpu gp → gp.result = mpx.result)) gpRounds mpxRounds ∧
      WroteOnly (Frame cpu) cpu gpFinal ∧ WroteOnly (FrameAndScratch cpu) cpu mpxFinal := by
  obtain ⟨gpMemory, gpFinal, gpAgree, gpWrote, gpRan⟩ := gptraverse_runs cpu
  obtain ⟨mpxMemory, mpxFinal, mpxAgree, mpxWrote, mpxRan⟩ := mpxtraverse_runs enabled
  refine ⟨roundsOver cpu gpMemory, gpFinal, roundsOver cpu mpxMemory, mpxFinal, ?_, ?_, ?_,
    gpWrote, mpxWrote⟩
  · intro fuel enough
    exact gpRan fuel (roundsOver_length cpu gpMemory ▸ enough)
  · intro fuel enough
    exact mpxRan fuel (roundsOver_length cpu mpxMemory ▸ enough)
  · rw [roundsOver, roundsOver, List.forall₂_map_left_iff, List.forall₂_map_right_iff,
      List.forall₂_same]
    intro counter _
    refine ⟨rfl, rfl, ?_⟩
    intro clear
    apply roundAt_result_congr ?_ clear
    intro address outside
    rw [gpAgree address (fun inside => outside (frame_subset cpu address inside)),
      mpxAgree address outside]

def smallBuffer : Cpu where
  reg register := if register = .rdi then 0x20000 else if register = .rsi then 16 else 0x8000
  zf := false
  machine := { mpx := { bnd := fun _ => initPair, bndcfgu := 3, bndstatus := 0 }
               mem := fun _ => 0
               stderr := [] }
  stores := []

theorem traversals_agree_smallBuffer :
    ∃ gpRounds gpFinal mpxRounds mpxFinal,
      (∀ fuel, gpRounds.length ≤ fuel → gptraverse fuel smallBuffer = some (gpRounds, gpFinal)) ∧
      (∀ fuel, mpxRounds.length ≤ fuel →
        mpxtraverse fuel smallBuffer = some (mpxRounds, mpxFinal)) ∧
      List.Forall₂ (fun gp mpx => gp.first = mpx.first ∧ gp.second = mpx.second ∧
        (ClearOfStack smallBuffer gp → gp.result = mpx.result)) gpRounds mpxRounds ∧
      WroteOnly (Frame smallBuffer) smallBuffer gpFinal ∧
      WroteOnly (FrameAndScratch smallBuffer) smallBuffer mpxFinal :=
  traversals_agree ⟨by decide, by decide⟩

end SimplexMpx
