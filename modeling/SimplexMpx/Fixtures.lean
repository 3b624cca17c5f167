import SimplexMpx.Benchmark
import SimplexMpx.Pointers
import SimplexMpx.TraverseLimits

/-!
What the fixtures of `benchmark.cpp` set up, and what their benchmarks then find.
-/

namespace SimplexMpx

open ByteMemory

/-! Memory across the calls of a set up -/

theorem call_mem {Foreign : Type} (env : Environment Foreign) (foreign : Foreign)
    (client : Client Foreign) :
    (client.call env foreign).machine.mem =
      (env.effect client.calls foreign client.machine.nearBranch).mem :=
  Machine.nearBranch_mem _

theorem qsetbndl_mem {Foreign : Type} (reg : BndregT) (val : Word) (client : Client Foreign) :
    (client.qsetbndl reg val).machine.mem = client.machine.mem := by
  have stored : (qsetbndl reg val client.machine.nearBranch).mem = client.machine.mem := by
    rw [qsetbndl_eq, writePair_mem, Machine.nearBranch_mem]
  exact (Machine.nearBranch_mem _).trans stored

/-! The string fixture -/

section Strings

variable {rand : Nat → BitVec 31} {env : Environment FixtureCall}

theorem call_randomize_mem (ptr : Word) (client : Client FixtureCall) :
    (client.call (env.withBuffers rand) (.randomize ptr)).machine.mem =
      (randomize rand ptr (4 * MB) (.start client.machine.mem (drawn client.calls))).mem := by
  rw [call_mem]
  simp only [Environment.withBuffers, Machine.nearBranch_mem]

theorem call_corrupt_mem {dst src : Word} (target : dst ≠ 0) (source : src ≠ 0)
    (client : Client FixtureCall) :
    (client.call (env.withBuffers rand) (.corrupt dst src)).machine.mem =
      (corruptedState rand (4 * MB).toNat dst src (4 * MB)
        (.start client.machine.mem (drawn client.calls))).mem := by
  rw [call_mem]
  simp only [Environment.withBuffers, Machine.nearBranch_mem,
    corrupt_eq rand target source four_mb_pos]

/-- The buffers are filled with the first `4 * MB - 1` values, and the next one is `corrupt`'s. -/
theorem allocateBuffers_mem {client called : Client FixtureCall} {s1 s2 : Word}
    (allocated : StringFixture.allocateBuffers (env.withBuffers rand) client = ((s1, s2), called))
    (present1 : s1 ≠ 0) (present2 : s2 ≠ 0) :
    ∃ mem : Memory 64, called.machine.mem =
      (corruptedState rand (4 * MB).toNat s2 s1 (4 * MB)
        (.start (randomize rand s1 (4 * MB) (.start mem 0)).mem ((4 * MB).toNat - 1))).mem := by
  simp only [StringFixture.allocateBuffers, Client.allocate, Prod.mk.injEq] at allocated
  obtain ⟨⟨first, second⟩, rfl⟩ := allocated
  rw [first] at second ⊢
  rw [second]
  rw [call_corrupt_mem present2 present1, call_randomize_mem]
  simp only [Client.call_calls, drawn, if_neg present1, Nat.zero_add]
  exact ⟨_, rfl⟩

theorem setUp_mem {client ready : Client FixtureCall} {s1 s2 : Word}
    (set : StringFixture.setUp env client = .ok ((s1, s2), ready)) :
    ∃ called, StringFixture.allocateBuffers env client = ((s1, s2), called) ∧
      ∀ address, ¬Within env.buffer 4096 address →
        ready.machine.mem address = called.machine.mem address := by
  obtain ⟨value, started, buffers, began, rfl⟩ := setUp_ok set
  obtain ⟨machine, stepped, rfl⟩ := Client.processSpecificInit_ok_iff.mp began
  refine ⟨(StringFixture.allocateBuffers env client).2, Prod.ext buffers rfl, ?_⟩
  intro address outside
  rw [qsetbndl_mem, qsetbndl_mem]
  exact init_outside stepped outside

def filledByte (rand : Nat → BitVec 31) (offset : Nat) : BitVec 8 :=
  if offset + 1 = (4 * MB).toNat then 0 else randomChar (rand offset)

theorem ofNat_pred {sz : Word} (positive : 0 < sz.toNat) :
    BitVec.ofNat 64 (sz.toNat - 1) = sz - 1 := by
  bv_omega

theorem randomize_filled {ptr : Word} (present : ptr ≠ 0) {offset : Nat}
    (inside : offset < (4 * MB).toNat) (mem : Memory 64) :
    (randomize rand ptr (4 * MB) (.start mem 0)).mem (ptr + BitVec.ofNat 64 offset) =
      filledByte rand offset := by
  unfold filledByte
  split_ifs with last
  · have here : offset = (4 * MB).toNat - 1 := by omega
    rw [here, ofNat_pred (by omega)]
    exact randomize_last rand present (4 * MB) _
  · rw [randomize_inside rand present (by omega)]
    exact congrArg (fun count => randomChar (rand count)) (Nat.zero_add offset)

theorem libgccMemcmp_differing {s1 s2 : Word} {size index : Nat} {state : Traced}
    (inside : index < size)
    (differ : ∀ offset < size, (state.machine.mem (s1 + BitVec.ofNat 64 offset) ≠
      state.machine.mem (s2 + BitVec.ofNat 64 offset) ↔ offset = index)) (n : Word) :
    (libgccMemcmp s1 s2 n state).1 ≠ 0 ↔ index < n.toNat := by
  have same : ∀ offset < index, state.machine.mem (s1 + BitVec.ofNat 64 offset) =
      state.machine.mem (s2 + BitVec.ofNat 64 offset) := by
    intro offset before
    by_contra apart
    have here := (differ offset (by omega)).mp apart
    omega
  constructor
  · intro nonzero
    by_contra short
    refine nonzero ((compareLoop_contract n.toNat s1 s2 state).equal ?_)
    intro offset within
    exact same offset (by omega)
  · intro reached
    have found := compareLoop_differ reached same ((differ index inside).mpr rfl)
    rw [libgccMemcmp, found]
    split_ifs <;> omega

theorem libgccMemchr_unbroken {s n : Word} {state : Traced}
    (unbroken : ∀ offset < n.toNat, state.machine.mem (s + BitVec.ofNat 64 offset) ≠ 0) :
    (libgccMemchr s 0 n state).1 = 0 := by
  have missing : ∀ offset < n.toNat, ¬Hit state.machine.mem s 0 offset := by
    intro offset within hit
    exact unbroken offset within ((hit_iff _ _ _ _).mp hit).2
  exact congrArg Prod.fst (searchLoop_missing missing)

/-- What `SetUp` promises of the buffers at `s1` and `s2`, and what the plain functions find. -/
structure StringBuffers (s1 s2 : Word) (mem : Memory 64) : Prop where
  differ : ∃ index < (4 * MB).toNat,
    (∀ offset < (4 * MB).toNat,
      (mem (s1 + BitVec.ofNat 64 offset) ≠ mem (s2 + BitVec.ofNat 64 offset) ↔ offset = index)) ∧
    ∀ (n : Word) (state : Traced), state.machine.mem = mem →
      ((libgccMemcmp s1 s2 n state).1 ≠ 0 ↔ index < n.toNat)
  ended : ∀ s ∈ [s1, s2], mem (s + BitVec.ofNat 64 ((4 * MB).toNat - 1)) = 0
  unbroken : ∀ s ∈ [s1, s2], ∀ offset, offset + 1 < (4 * MB).toNat →
    mem (s + BitVec.ofNat 64 offset) ≠ 0
  searched : ∀ s ∈ [s1, s2], ∀ (n : Word) (state : Traced), n.toNat < (4 * MB).toNat →
    state.machine.mem = mem → (libgccMemchr s 0 n state).1 = 0

theorem filledByte_last : filledByte rand ((4 * MB).toNat - 1) = 0 := by
  rw [filledByte, if_pos]
  rw [four_mb]

theorem filledByte_range {offset : Nat} (before : offset + 1 < (4 * MB).toNat) :
    filledByte rand offset ≠ 0 ∧ ~~~filledByte rand offset ≠ 0 := by
  rw [filledByte, if_neg (by omega)]
  have range := randomChar_range (rand offset)
  refine ⟨randomChar_ne_zero _, ?_⟩
  intro zero
  have numbers := congrArg BitVec.toNat zero
  rw [BitVec.toNat_not] at numbers
  simp at numbers
  omega

/-- `s1` is filled, and `s2` is a copy of it with the byte at `index` inverted. -/
def FilledPair (rand : Nat → BitVec 31) (s1 s2 : Word) (index : Nat) (mem : Memory 64) : Prop :=
  ∀ offset < (4 * MB).toNat,
    mem (s1 + BitVec.ofNat 64 offset) = filledByte rand offset ∧
      mem (s2 + BitVec.ofNat 64 offset) =
        if offset = index then ~~~filledByte rand offset else filledByte rand offset

namespace FilledPair

variable {s1 s2 : Word} {index : Nat} {mem : Memory 64} (filled : FilledPair rand s1 s2 index mem)
include filled

theorem differ {offset : Nat} (inside : offset < (4 * MB).toNat) :
    mem (s1 + BitVec.ofNat 64 offset) ≠ mem (s2 + BitVec.ofNat 64 offset) ↔ offset = index := by
  rw [(filled offset inside).1, (filled offset inside).2]
  split_ifs with here
  · exact iff_of_true (not_ne_self _).symm here
  · exact iff_of_false (fun apart => apart rfl) here

theorem unbroken {s : Word} (chosen : s ∈ [s1, s2]) {offset : Nat}
    (before : offset + 1 < (4 * MB).toNat) : mem (s + BitVec.ofNat 64 offset) ≠ 0 := by
  obtain ⟨plain, inverted⟩ := @filledByte_range rand offset before
  rcases List.mem_pair.mp chosen with rfl | rfl
  · rwa [(filled offset (by omega)).1]
  · rw [(filled offset (by omega)).2]
    split_ifs
    · exact inverted
    · exact plain

theorem ended_first (inside : index < (4 * MB).toNat) :
    mem (s1 + BitVec.ofNat 64 ((4 * MB).toNat - 1)) = 0 := by
  rw [(filled _ (by omega)).1, filledByte_last]

theorem ended_second_iff (inside : index < (4 * MB).toNat) :
    mem (s2 + BitVec.ofNat 64 ((4 * MB).toNat - 1)) = 0 ↔ index ≠ (4 * MB).toNat - 1 := by
  rw [(filled _ (by omega)).2, filledByte_last]
  split_ifs with last
  · exact iff_of_false (not_ne_self 0) (fun spared => spared last.symm)
  · exact iff_of_true rfl (Ne.symm last)

end FilledPair

theorem stringBuffers_iff {mem : Memory 64} {s1 s2 : Word} {index : Nat}
    (inside : index < (4 * MB).toNat) (filled : FilledPair rand s1 s2 index mem) :
    StringBuffers s1 s2 mem ↔ index ≠ (4 * MB).toNat - 1 := by
  rw [← filled.ended_second_iff inside]
  constructor
  · intro buffers
    exact buffers.ended s2 (by simp)
  · intro ended
    have differ := fun offset (within : offset < (4 * MB).toNat) => filled.differ within
    refine ⟨⟨index, inside, differ, ?_⟩, ?_, fun s chosen offset => filled.unbroken chosen, ?_⟩
    · rintro n state rfl
      exact libgccMemcmp_differing inside differ n
    · intro s chosen
      rcases List.mem_pair.mp chosen with rfl | rfl
      · exact filled.ended_first inside
      · exact ended
    · rintro s chosen n state short rfl
      exact libgccMemchr_unbroken fun offset before => filled.unbroken chosen (by omega)

theorem setUp_filled {client ready : Client FixtureCall} {s1 s2 : Word}
    (set : StringFixture.setUp (env.withBuffers rand) client = .ok ((s1, s2), ready))
    (present1 : s1 ≠ 0) (present2 : s2 ≠ 0)
    (disjoint : ∀ address, Within s2 (4 * MB).toNat address → ¬Within s1 (4 * MB).toNat address)
    (apart : ∀ address, Within env.buffer 4096 address →
      ¬Within s1 (4 * MB).toNat address ∧ ¬Within s2 (4 * MB).toNat address) :
    FilledPair rand s1 s2 (invertedOffset rand ((4 * MB).toNat - 1) (4 * MB))
      ready.machine.mem := by
  intro offset inside
  obtain ⟨called, allocated, same⟩ := setUp_mem set
  obtain ⟨mem, prepared⟩ := allocateBuffers_mem allocated present1 present2
  have same1 := same _ fun image => (apart _ image).1 (within_add s1 inside four_mb_le)
  have same2 := same _ fun image => (apart _ image).2 (within_add s2 inside four_mb_le)
  have contents := @corruptedState_contents rand s2 s1 (4 * MB)
    (.start (randomize rand s1 (4 * MB) (.start mem 0)).mem ((4 * MB).toNat - 1)) _ four_mb_pos
    disjoint (Nat.le_refl _) (invertedOffset_lt rand four_mb_pos _) offset inside
  have filled : (BufferState.start (randomize rand s1 (4 * MB) (.start mem 0)).mem
      ((4 * MB).toNat - 1)).mem (s1 + BitVec.ofNat 64 offset) = filledByte rand offset :=
    randomize_filled present1 inside mem
  rw [same1, same2, prepared, contents.1, contents.2, filled, if_pos inside]
  exact ⟨rfl, rfl⟩

/-- The set up holds what it promises unless the draw inverts the terminator itself. -/
theorem setUp_buffers_iff {client ready : Client FixtureCall} {s1 s2 : Word}
    (set : StringFixture.setUp (env.withBuffers rand) client = .ok ((s1, s2), ready))
    (present1 : s1 ≠ 0) (present2 : s2 ≠ 0)
    (disjoint : ∀ address, Within s2 (4 * MB).toNat address → ¬Within s1 (4 * MB).toNat address)
    (apart : ∀ address, Within env.buffer 4096 address →
      ¬Within s1 (4 * MB).toNat address ∧ ¬Within s2 (4 * MB).toNat address) :
    StringBuffers s1 s2 ready.machine.mem ↔
      (rand ((4 * MB).toNat - 1)).toNat % (4 * MB).toNat ≠ (4 * MB).toNat - 1 := by
  exact stringBuffers_iff (invertedOffset_lt rand four_mb_pos _)
    (setUp_filled set present1 present2 disjoint apart)

theorem init_starts {Foreign : Type} {env : Environment Foreign} (capable : Capable env.platform)
    (client : Client Foreign) :
    ∃ started, client.processSpecificInit env = .ok (.bool true, started) :=
  ⟨_, Client.processSpecificInit_ok_iff.mpr ⟨_, callStep_init capable.detected capable.osxsave
    capable.bndcsr env.buffer client.machine, rfl⟩⟩

theorem setUp_runs (capable : Capable env.platform) (client : Client FixtureCall) :
    ∃ ready, StringFixture.setUp env client =
      .ok ((StringFixture.allocateBuffers env client).1, ready) := by
  obtain ⟨started, began⟩ := init_starts capable (StringFixture.allocateBuffers env client).2
  exact ⟨_, RunRules.bind_ok_iff.mpr ⟨_, began, rfl⟩⟩

end Strings

def fixedHeap : Environment FixtureCall where
  platform := capablePlatform
  buffer := 0x7000
  rsp _ := 0x8000
  allocate calls := if calls.length = 1 then 0x10000000 else 0x20000000
  effect _ _ machine := machine

def freshClient : Client FixtureCall := { machine := blankMachine, accesses := [], calls := [] }

theorem fixedHeap_setUp (rand : Nat → BitVec 31) :
    ∃ ready, StringFixture.setUp (fixedHeap.withBuffers rand) freshClient =
      .ok ((0x10000000, 0x20000000), ready) :=
  setUp_runs capablePlatform_capable freshClient

theorem fixedHeap_disjoint (address : Word) :
    Within 0x20000000 (4 * MB).toNat address → ¬Within 0x10000000 (4 * MB).toNat address := by
  rw [four_mb]
  unfold Within
  bv_omega

theorem fixedHeap_apart (address : Word) : Within 0x7000 4096 address →
    ¬Within 0x10000000 (4 * MB).toNat address ∧ ¬Within 0x20000000 (4 * MB).toNat address := by
  rw [four_mb]
  unfold Within
  bv_omega

theorem setUp_buffers_fixedHeap :
    ∃ ready, StringFixture.setUp (fixedHeap.withBuffers fun _ => 7) freshClient =
        .ok ((0x10000000, 0x20000000), ready) ∧
      StringBuffers 0x10000000 0x20000000 ready.machine.mem := by
  obtain ⟨ready, set⟩ := fixedHeap_setUp fun _ => 7
  refine ⟨ready, set, (setUp_buffers_iff set (by decide) (by decide) fixedHeap_disjoint
    fixedHeap_apart).mpr ?_⟩
  rw [four_mb]
  decide

/-- A draw of 4194303 inverts the null byte at the end of `s2`. -/
theorem setUp_unterminated :
    ∃ ready, StringFixture.setUp (fixedHeap.withBuffers fun _ => 4194303) freshClient =
        .ok ((0x10000000, 0x20000000), ready) ∧
      ¬StringBuffers 0x10000000 0x20000000 ready.machine.mem := by
  obtain ⟨ready, set⟩ := fixedHeap_setUp fun _ => 4194303
  refine ⟨ready, set, ?_⟩
  rw [stringBuffers_iff (invertedOffset_lt _ four_mb_pos _)
    (setUp_filled set (by decide) (by decide) fixedHeap_disjoint fixedHeap_apart)]
  rw [not_not, invertedOffset, four_mb]
  decide

/-! The traversal fixture -/

/-- Every byte of every indexed load lies in the 4 MB at `buffer`. -/
def LoadsInside (run : Nat → Option (List Round × Cpu)) (buffer : Word) : Prop :=
  ∀ fuel done final, run fuel = some (done, final) → ∀ round ∈ done, ∀ address,
    Within round.first 8 address ∨ Within round.second 8 address →
      Within buffer (4 * MB).toNat address

section Traversals

variable {cpu : Cpu}

theorem callWith_rdi (returnAddress first second : Word) :
    (cpu.callWith returnAddress first second).reg .rdi = first := by
  simp [Cpu.callWith]

theorem callWith_rsi (returnAddress first second : Word) :
    (cpu.callWith returnAddress first second).reg .rsi = second := by
  simp [Cpu.callWith]

theorem callWith_enabled (enabled : cpu.machine.mpx.Enabled) (returnAddress first second : Word) :
    (cpu.callWith returnAddress first second).machine.mpx.Enabled := by
  rw [Cpu.callWith, Cpu.branch_of_enabled]
  · exact enabled
  · exact enabled

theorem roundsOver_first (cpu : Cpu) (memory : Memory 64) :
    ∃ round ∈ roundsOver cpu memory, round.first = cpu.reg .rdi := by
  refine ⟨roundAt memory (cpu.reg .rdi) (cpu.reg .rdi + cpu.reg .rsi >>> 1) 0,
    List.mem_map_of_mem ?_, add_ofNat_zero _⟩
  exact List.mem_range.mpr (roundCount_pos _)

theorem not_loadsInside {run : Nat → Option (List Round × Cpu)} {buffer : Word} {fuel : Nat}
    {memory : Memory 64} {final : Cpu} (ran : run fuel = some (roundsOver cpu memory, final))
    (outside : ¬Within buffer (4 * MB).toNat (cpu.reg .rdi)) : ¬LoadsInside run buffer := by
  intro inside
  obtain ⟨round, member, here⟩ := roundsOver_first cpu memory
  refine outside (inside _ _ _ ran round member _ (Or.inl ?_))
  rw [here, Within, sub_self]
  decide

/-- Given the buffer itself, a traversal of at most half of it stays inside. -/
theorem roundsOver_inside {memory : Memory 64} {round : Round} {address : Word}
    (some : 2 ≤ (cpu.reg .rsi).toNat) (half : (cpu.reg .rsi).toNat ≤ (2 * MB).toNat)
    (member : round ∈ roundsOver cpu memory)
    (loaded : Within round.first 8 address ∨ Within round.second 8 address) :
    Within (cpu.reg .rdi) (4 * MB).toNat address := by
  obtain ⟨counter, early, rfl⟩ := List.mem_map.mp member
  have middle := half_toNat (cpu.reg .rsi)
  rw [List.mem_range, (roundCount_half (cpu.reg .rsi)).mpr some] at early
  rw [show (2 * MB).toNat = 2097152 by simp [MB]] at half
  rw [four_mb]
  simp only [roundAt] at loaded
  generalize cpu.reg .rsi >>> 1 = offset at middle loaded
  unfold Within at loaded ⊢
  rcases loaded with first | second <;> bv_omega

theorem loadsInside_of_buffer (some : 2 ≤ (cpu.reg .rsi).toNat)
    (half : (cpu.reg .rsi).toNat ≤ (2 * MB).toNat) :
    LoadsInside (gptraverse · cpu) (cpu.reg .rdi) ∧
      (cpu.machine.mpx.Enabled → LoadsInside (mpxtraverse · cpu) (cpu.reg .rdi)) := by
  constructor
  · intro fuel done final ran round member address loaded
    obtain ⟨last, -, -, outcome⟩ := gptraverse_result ran
    obtain ⟨rfl, -⟩ := Prod.mk.inj outcome
    exact roundsOver_inside some half member loaded
  · intro enabled fuel done final ran round member address loaded
    obtain ⟨last, -, -, outcome⟩ := mpxtraverse_result enabled ran
    obtain ⟨rfl, -⟩ := Prod.mk.inj outcome
    exact roundsOver_inside some half member loaded

theorem traversal_setUp_enabled {env : Environment FixtureCall} {client ready : Client FixtureCall}
    {field ptr : Word} (found : Detected env.platform)
    (set : TraversalFixture.setUp env field client = .ok (ptr, ready)) :
    ready.machine.mpx.Enabled := by
  unfold TraversalFixture.setUp at set
  simp only [Client.allocate] at set
  generalize Client.call env (.randomize _) _ = filled at set
  obtain ⟨⟨value, started⟩, began, returned⟩ := RunRules.bind_ok_iff.mp set
  obtain ⟨-, rfl⟩ := Prod.mk.inj (Except.ok.inj returned)
  obtain ⟨machine, stepped, rfl⟩ := Client.processSpecificInit_ok_iff.mp began
  exact init_enabled (Or.inl found) stepped

/-- The bodies pass the address of the pointer, which is not in the buffer it points to: the first
round already loads the pointer itself. -/
theorem traversals_miss_buffer {env : Environment FixtureCall} {client ready : Client FixtureCall}
    {field ptr : Word} (set : TraversalFixture.setUp env field client = .ok (ptr, ready))
    (apart : ¬Within ptr (4 * MB).toNat field) (cpu : Cpu)
    (configured : cpu.machine.mpx.bndcfgu = ready.machine.mpx.bndcfgu) (returnAddress sz : Word) :
    ¬LoadsInside (TraversalFixture.gpTraverse field returnAddress sz · cpu) ptr ∧
      (Detected env.platform →
        ¬LoadsInside (TraversalFixture.mpxTraverse field returnAddress sz · cpu) ptr) := by
  have outside : ¬Within ptr (4 * MB).toNat ((cpu.callWith returnAddress field sz).reg .rdi) := by
    rwa [callWith_rdi]
  constructor
  · obtain ⟨last, -, -, -, ran⟩ := gptraverse_ends (cpu.callWith returnAddress field sz)
    exact not_loadsInside (ran _ (Nat.le_refl _)) outside
  · intro found
    have enabled := enabled_of_bndcfgu_eq configured (traversal_setUp_enabled found set)
    obtain ⟨last, -, -, ran⟩ := mpxtraverse_ends (callWith_enabled enabled returnAddress field sz)
    exact not_loadsInside (ran _ (Nat.le_refl _)) outside

end Traversals

theorem traversal_setUp_runs {env : Environment FixtureCall} (capable : Capable env.platform)
    (field : Word) (client : Client FixtureCall) :
    ∃ ready, TraversalFixture.setUp env field client =
      .ok (env.allocate (client.call env .srandTime).calls, ready) := by
  unfold TraversalFixture.setUp
  simp only [Client.allocate]
  generalize Client.call env (.randomize _) _ = filled
  obtain ⟨started, began⟩ := init_starts capable filled
  exact ⟨_, RunRules.bind_ok_iff.mpr ⟨_, began, rfl⟩⟩

theorem fixedHeap_traversal_setUp (rand : Nat → BitVec 31) :
    ∃ ready, TraversalFixture.setUp (fixedHeap.withBuffers rand) 0x603008 freshClient =
      .ok (0x10000000, ready) :=
  traversal_setUp_runs capablePlatform_capable 0x603008 freshClient

theorem fixedHeap_field_apart : ¬Within (0x10000000 : Word) (4 * MB).toNat 0x603008 := by
  rw [four_mb]
  decide

theorem traversals_miss_fixedHeap :
    ∃ ready, TraversalFixture.setUp (fixedHeap.withBuffers fun _ => 7) 0x603008 freshClient =
        .ok (0x10000000, ready) ∧
      ¬LoadsInside (TraversalFixture.gpTraverse 0x603008 0x401000 4096 ·
        { smallBuffer with machine := ready.machine }) 0x10000000 ∧
      ¬LoadsInside (TraversalFixture.mpxTraverse 0x603008 0x401000 4096 ·
        { smallBuffer with machine := ready.machine }) 0x10000000 := by
  obtain ⟨ready, set⟩ := fixedHeap_traversal_setUp fun _ => 7
  obtain ⟨gp, mpx⟩ := traversals_miss_buffer set fixedHeap_field_apart
    { smallBuffer with machine := ready.machine } rfl 0x401000 4096
  exact ⟨ready, set, gp, mpx capablePlatform_capable.detected⟩

theorem pointer_traversed :
    ∃ ready, TraversalFixture.setUp (fixedHeap.withBuffers fun _ => 7) 0x603008 freshClient =
        .ok (0x10000000, ready) ∧
      (∃ done final, TraversalFixture.gpTraverse 0x603008 0x401000 4096 2048
          { smallBuffer with machine := ready.machine } = some (done, final) ∧
        ∃ round ∈ done, round.first = 0x603008) ∧
      ¬LoadsInside (TraversalFixture.gpTraverse 0x603008 0x401000 4096 ·
        { smallBuffer with machine := ready.machine }) 0x10000000 := by
  obtain ⟨ready, set⟩ := fixedHeap_traversal_setUp fun _ => 7
  obtain ⟨last, -, -, -, ran⟩ := gptraverse_ends
    (({ smallBuffer with machine := ready.machine } : Cpu).callWith 0x401000 0x603008 4096)
  obtain ⟨round, member, first⟩ := roundsOver_first
    (({ smallBuffer with machine := ready.machine } : Cpu).callWith 0x401000 0x603008 4096)
    (gptraverseEntry _).machine.mem
  rw [callWith_rsi] at ran
  have ended := ran 2048 (by decide)
  rw [callWith_rdi] at first
  refine ⟨ready, set, ⟨_, _, ended, round, member, first⟩, not_loadsInside ended ?_⟩
  rw [callWith_rdi]
  exact fixedHeap_field_apart

end SimplexMpx
