import SimplexMpx.BenchmarkCore
import SimplexMpx.StringContracts

/-!
What `randomize` and `corrupt` do to a buffer. `randomize` follows its size except at zero, where
the bound of its loop wraps; `corrupt` copies 4 MB whatever its size is.
-/

namespace SimplexMpx

open ByteMemory

@[simp] theorem writeByte_mem (address : Word) (value : BitVec 8) (state : BufferState) :
    (state.writeByte address value).mem = Function.update state.mem address value := rfl

@[simp] theorem wrote_writeByte (here address : Word) (value : BitVec 8) (state : BufferState) :
    .wrote here ∈ (state.writeByte address value).accesses ↔
      here = address ∨ .wrote here ∈ state.accesses := by
  simp [BufferState.writeByte]

variable (rand : Nat → BitVec 31)

/-! Filling -/

def BufferState.randomized (ptr : Word) : Nat → BufferState → BufferState
  | 0, state => state
  | count + 1, state =>
      let (value, state) := (state.randomized ptr count).draw rand
      state.writeByte (ptr + BitVec.ofNat 64 count) (randomChar value)

theorem randomizeLoop_eq (ptr : Word) (state : BufferState) {limit : Word} {count remaining : Nat}
    (bound : count + remaining = limit.toNat) :
    randomizeLoop rand ptr limit (BitVec.ofNat 64 count) (state.randomized rand ptr count) =
      (limit, state.randomized rand ptr limit.toNat) := by
  induction remaining generalizing count with
  | zero =>
      obtain rfl : count = limit.toNat := by omega
      have done : BitVec.ofNat 64 limit.toNat = limit := by simp
      rw [randomizeLoop, done, if_neg (BitVec.lt_irrefl limit)]
  | succ remaining ih =>
      have inside : BitVec.ofNat 64 count < limit := by bv_omega
      rw [randomizeLoop, if_pos inside]
      have next : BitVec.ofNat 64 count + 1 = BitVec.ofNat 64 (count + 1) := by bv_omega
      have later : count + 1 + remaining = limit.toNat := by omega
      rw [← ih later, ← next]
      rfl

theorem randomize_eq {ptr : Word} (present : ptr ≠ 0) (sz : Word) (state : BufferState) :
    randomize rand ptr sz state =
      (state.randomized rand ptr (sz - 1).toNat).writeByte (ptr + (sz - 1)) 0 := by
  have loop := randomizeLoop_eq rand ptr state (Nat.zero_add (sz - 1).toNat)
  rw [randomize, if_pos present]
  exact congrArg (fun result => result.2.writeByte (ptr + result.1) 0) loop

theorem randomized_draws (ptr : Word) (count : Nat) (state : BufferState) :
    (state.randomized rand ptr count).draws = state.draws + count := by
  induction count with
  | zero => rfl
  | succ count ih => exact congrArg Nat.succ ih

theorem randomized_wrote {ptr address : Word} {count : Nat} (bound : count ≤ 2 ^ 64)
    (state : BufferState) :
    .wrote address ∈ (state.randomized rand ptr count).accesses ↔
      Within ptr count address ∨ .wrote address ∈ state.accesses := by
  induction count with
  | zero => simp [BufferState.randomized, Within]
  | succ count ih =>
      rw [within_succ ptr address (by omega)]
      simp only [BufferState.randomized, BufferState.writeByte, BufferState.draw, List.mem_cons,
        ByteAccess.wrote.injEq, ih (by omega)]
      tauto

theorem randomized_inside {ptr : Word} {count offset : Nat} (bound : count ≤ 2 ^ 64)
    (inside : offset < count) (state : BufferState) :
    (state.randomized rand ptr count).mem (ptr + BitVec.ofNat 64 offset) =
      randomChar (rand (state.draws + offset)) := by
  induction count with
  | zero => omega
  | succ count ih =>
      simp only [BufferState.randomized, BufferState.writeByte, BufferState.draw, randomized_draws]
      by_cases last : offset = count
      · rw [last, Function.update_self]
      · rw [Function.update_of_ne (by bv_omega), ih (by omega) (by omega)]

/-- `randomize` has written the `sz` bytes at `ptr` and no others, and only the last is zero. -/
structure Randomized (ptr sz : Word) (after : BufferState) : Prop where
  writes : ∀ address, .wrote address ∈ after.accesses ↔ Within ptr sz.toNat address
  nonzero : ∀ offset, offset + 1 < sz.toNat → after.mem (ptr + BitVec.ofNat 64 offset) ≠ 0
  last : 0 < sz.toNat → after.mem (ptr + (sz - 1)) = 0

theorem randomChar_range (value : BitVec 31) :
    1 ≤ (randomChar value).toNat ∧ (randomChar value).toNat ≤ 127 := by
  have small : value.toNat % 127 < 127 := Nat.mod_lt _ (by omega)
  rw [randomChar, BitVec.toNat_ofNat, Nat.mod_eq_of_lt (by omega)]
  omega

theorem randomChar_ne_zero (value : BitVec 31) : randomChar value ≠ 0 := by
  intro zero
  have range := randomChar_range value
  rw [zero] at range
  simp at range

theorem pred_toNat {sz : Word} (positive : 0 < sz.toNat) : (sz - 1).toNat + 1 = sz.toNat := by
  bv_omega

theorem randomize_inside {ptr sz : Word} (present : ptr ≠ 0) {offset : Nat}
    (inside : offset + 1 < sz.toNat) (state : BufferState) :
    (randomize rand ptr sz state).mem (ptr + BitVec.ofNat 64 offset) =
      randomChar (rand (state.draws + offset)) := by
  have before : (sz - 1).toNat + 1 = sz.toNat := pred_toNat (by omega)
  rw [randomize_eq rand present, writeByte_mem, Function.update_of_ne (by bv_omega)]
  exact randomized_inside rand (by omega) (by omega) state

theorem randomize_last {ptr : Word} (present : ptr ≠ 0) (sz : Word) (state : BufferState) :
    (randomize rand ptr sz state).mem (ptr + (sz - 1)) = 0 := by
  rw [randomize_eq rand present, writeByte_mem, Function.update_self]

theorem randomize_wrote {ptr : Word} (present : ptr ≠ 0) (sz address : Word)
    (state : BufferState) :
    .wrote address ∈ (randomize rand ptr sz state).accesses ↔
      address = ptr + (sz - 1) ∨ Within ptr (sz - 1).toNat address ∨
        .wrote address ∈ state.accesses := by
  have rounds := (sz - 1).isLt
  rw [randomize_eq rand present, wrote_writeByte, randomized_wrote rand (by omega)]

theorem randomized_iff {ptr : Word} (present : ptr ≠ 0) (sz : Word) (mem : Memory 64)
    (draws : Nat) :
    Randomized ptr sz (randomize rand ptr sz (.start mem draws)) ↔ 0 < sz.toNat := by
  constructor
  · intro filled
    -- the terminator is written even where no byte belongs to the buffer
    have last := (filled.writes (ptr + (sz - 1))).mp
      ((randomize_wrote rand present sz _ _).mpr (Or.inl rfl))
    unfold Within at last
    omega
  · intro positive
    have before := pred_toNat positive
    have whole := sz.isLt
    refine ⟨?_, fun offset inside => ?_, fun _ => randomize_last rand present sz _⟩
    · intro address
      have split := within_succ ptr address (show (sz - 1).toNat < 2 ^ 64 by omega)
      rw [before, BitVec.ofNat_toNat, BitVec.setWidth_eq] at split
      rw [randomize_wrote rand present, split]
      simp [BufferState.start, or_comm]
    · rw [randomize_inside rand present inside]
      exact randomChar_ne_zero _

/-! Copying and inverting -/

theorem memcpy_mem (len : Nat) (dst src : Word) (state : BufferState) :
    (memcpy len dst src state).mem = copyInOrder state.mem (upwards dst src len) := by
  induction len generalizing dst src state with
  | zero => rfl
  | succ len ih =>
      rw [upwards_succ]
      exact ih _ _ _

theorem memcpy_draws (len : Nat) (dst src : Word) (state : BufferState) :
    (memcpy len dst src state).draws = state.draws := by
  induction len generalizing dst src state with
  | zero => rfl
  | succ len ih => exact ih _ _ _

theorem memcpy_accesses (len : Nat) (dst src : Word) (state : BufferState) :
    (memcpy len dst src state).accesses =
      ((upwards dst src len).flatMap fun pair => [.read pair.1, .wrote pair.2]).reverse ++
        state.accesses := by
  induction len generalizing dst src state with
  | zero => rfl
  | succ len ih =>
      rw [upwards_succ, memcpy, ih]
      simp [BufferState.writeByte, BufferState.readByte]

theorem memcpy_wrote {len : Nat} (bound : len ≤ 2 ^ 64) (dst src address : Word)
    (state : BufferState) :
    .wrote address ∈ (memcpy len dst src state).accesses ↔
      Within dst len address ∨ .wrote address ∈ state.accesses := by
  rw [memcpy_accesses, List.mem_append, within_iff_offset bound]
  simp [upwards]

theorem memcpy_read {len : Nat} (bound : len ≤ 2 ^ 64) (dst src address : Word)
    (state : BufferState) :
    .read address ∈ (memcpy len dst src state).accesses ↔
      Within src len address ∨ .read address ∈ state.accesses := by
  rw [memcpy_accesses, List.mem_append, within_iff_offset bound]
  simp [upwards]

theorem memcpy_inside {dst src : Word} {len : Nat} (bound : len ≤ 2 ^ 64)
    (disjoint : ∀ address, Within dst len address → ¬Within src len address) {offset : Nat}
    (inside : offset < len) (state : BufferState) :
    (memcpy len dst src state).mem (dst + BitVec.ofNat 64 offset) =
      state.mem (src + BitVec.ofNat 64 offset) := by
  have member : (src + BitVec.ofNat 64 offset, dst + BitVec.ofNat 64 offset) ∈
      upwards dst src len := mem_upwards.mpr ⟨offset, inside, rfl⟩
  rw [memcpy_mem, copyInOrder_copied (unspoilt_of_disjoint bound disjoint) _ member]

theorem memcpy_outside {dst address : Word} {len : Nat} (bound : len ≤ 2 ^ 64)
    (outside : ¬Within dst len address) (src : Word) (state : BufferState) :
    (memcpy len dst src state).mem address = state.mem address := by
  rw [memcpy_mem]
  apply copyInOrder_outside
  rintro pair member rfl
  obtain ⟨offset, inside, rfl⟩ := mem_upwards.mp member
  exact outside (within_add dst inside bound)

def invertedOffset (draws : Nat) (sz : Word) : Nat := (rand draws).toNat % sz.toNat

theorem invertedOffset_lt {sz : Word} (positive : 0 < sz.toNat) (draws : Nat) :
    invertedOffset rand draws sz < sz.toNat :=
  Nat.mod_lt _ positive

theorem not_ne_self (byte : BitVec 8) : ~~~byte ≠ byte := by
  intro same
  have numbers := congrArg BitVec.toNat same
  rw [BitVec.toNat_not] at numbers
  omega

def BufferState.invertByte (address : Word) (state : BufferState) : BufferState :=
  let (byte, state) := state.readByte address
  state.writeByte address (~~~byte)

@[simp] theorem invertByte_mem (address : Word) (state : BufferState) :
    (state.invertByte address).mem =
      Function.update state.mem address (~~~state.mem address) := rfl

@[simp] theorem wrote_invertByte (here address : Word) (state : BufferState) :
    .wrote here ∈ (state.invertByte address).accesses ↔
      here = address ∨ .wrote here ∈ state.accesses := by
  simp [BufferState.invertByte, BufferState.readByte]

theorem readsInput_invertByte (here address : Word) (state : BufferState) :
    ReadsInput (state.invertByte address).accesses here ↔
      address = here ∧ .wrote here ∉ state.accesses ∨ ReadsInput state.accesses here := Iff.rfl

def corruptedState (len : Nat) (dst src sz : Word) (state : BufferState) : BufferState :=
  let copied := memcpy len dst src state
  (copied.draw rand).2.invertByte (dst + BitVec.ofNat 64 (invertedOffset rand state.draws sz))

theorem setWidth_umod {sz : Word} (positive : 0 < sz.toNat) (value : BitVec 31) :
    value.setWidth 64 % sz = BitVec.ofNat 64 (value.toNat % sz.toNat) := by
  have small : value.toNat % sz.toNat < sz.toNat := Nat.mod_lt _ positive
  have narrow := value.isLt
  apply BitVec.eq_of_toNat_eq
  rw [BitVec.toNat_umod, BitVec.toNat_setWidth, BitVec.toNat_ofNat,
    Nat.mod_eq_of_lt (show value.toNat < 2 ^ 64 by omega),
    Nat.mod_eq_of_lt (show value.toNat % sz.toNat < 2 ^ 64 by omega)]

/-- The second `if` of `corrupt`. -/
theorem invert_eq {sz : Word} (positive : 0 < sz.toNat) (dst : Word) (copied : BufferState) :
    (match copied.draw rand with
    | (value, state) =>
        if sz = 0 then Except.error BenchmarkFault.divisionByZero
        else
          let i := value.setWidth 64 % sz
          match state.readByte (dst + i) with
          | (byte, state) => .ok (state.writeByte (dst + i) (~~~byte))) =
      .ok ((copied.draw rand).2.invertByte
        (dst + BitVec.ofNat 64 (invertedOffset rand copied.draws sz))) := by
  have nonzero : sz ≠ 0 := by
    rintro rfl
    simp at positive
  rw [BufferState.draw]
  dsimp only
  rw [if_neg nonzero, setWidth_umod positive]
  rfl

theorem corrupt_eq {dst src sz : Word} (target : dst ≠ 0) (source : src ≠ 0)
    (positive : 0 < sz.toNat) (state : BufferState) :
    corrupt rand dst src sz state = .ok (corruptedState rand (4 * MB).toNat dst src sz state) := by
  unfold corrupt corruptedState
  -- the copy is not to be run here
  generalize (4 * MB).toNat = len
  have drawn := memcpy_draws len dst src state
  rw [if_pos (And.intro source target), if_pos target]
  generalize memcpy len dst src state = copied at *
  rw [← drawn]
  exact invert_eq rand positive dst copied

theorem corrupt_zero {dst : Word} (target : dst ≠ 0) (src : Word) (state : BufferState) :
    corrupt rand dst src 0 state = .error .divisionByZero := by
  unfold corrupt
  generalize (4 * MB).toNat = len
  rw [if_pos target]
  rfl

/-- `corrupt` has had its input from the `sz` bytes at `src` (what it wrote itself is no input), has
written none but the `sz` bytes at `dst`, and leaves them equal to `src` but for one. -/
structure Corrupted (dst src sz : Word) (after : BufferState) : Prop where
  inputs : ∀ address, ReadsInput after.accesses address → Within src sz.toNat address
  writes : ∀ address, .wrote address ∈ after.accesses → Within dst sz.toNat address
  differs : 0 < sz.toNat → ∃! offset, offset < sz.toNat ∧
    after.mem (dst + BitVec.ofNat 64 offset) ≠ after.mem (src + BitVec.ofNat 64 offset)

theorem four_mb : (4 * MB).toNat = 4194304 := by simp [MB]

theorem four_mb_pos : 0 < (4 * MB).toNat := by
  rw [four_mb]
  omega

theorem four_mb_le : (4 * MB).toNat ≤ 2 ^ 64 := by
  rw [four_mb]
  omega

section Inverted

variable {dst src sz : Word} {state : BufferState} {len : Nat}

theorem corruptedState_wrote (bound : len ≤ 2 ^ 64) (address : Word) :
    .wrote address ∈ (corruptedState rand len dst src sz state).accesses ↔
      address = dst + BitVec.ofNat 64 (invertedOffset rand state.draws sz) ∨
        Within dst len address ∨ .wrote address ∈ state.accesses := by
  rw [corruptedState, wrote_invertByte]
  exact or_congr Iff.rfl (memcpy_wrote bound dst src address state)

theorem corruptedState_input (bound : len ≤ 2 ^ 64) {address : Word} (fresh : state.accesses = []) :
    ReadsInput (corruptedState rand len dst src sz state).accesses address →
      address = dst + BitVec.ofNat 64 (invertedOffset rand state.draws sz) ∧
        ¬Within dst len address ∨ Within src len address := by
  rw [corruptedState, readsInput_invertByte]
  rintro (⟨rfl, unwritten⟩ | earlier)
  · refine Or.inl ⟨rfl, fun inside => unwritten ?_⟩
    exact (memcpy_wrote bound dst src _ state).mpr (Or.inl inside)
  · have read := (memcpy_read bound dst src address state).mp earlier.read_mem
    rw [fresh] at read
    exact Or.inr (read.resolve_right List.not_mem_nil)

theorem corruptedState_reads_inverted (bound : len ≤ 2 ^ 64) (fresh : state.accesses = [])
    (outside : ¬Within dst len
      (dst + BitVec.ofNat 64 (invertedOffset rand state.draws sz))) :
    ReadsInput (corruptedState rand len dst src sz state).accesses
      (dst + BitVec.ofNat 64 (invertedOffset rand state.draws sz)) := by
  rw [corruptedState, readsInput_invertByte]
  refine Or.inl ⟨rfl, fun written => ?_⟩
  rcases (memcpy_wrote bound dst src _ state).mp written with inside | earlier
  · exact outside inside
  · rw [fresh] at earlier
    exact absurd earlier List.not_mem_nil

theorem corruptedState_inverted (bound : len ≤ 2 ^ 64)
    (disjoint : ∀ address, Within dst len address → ¬Within src len address)
    (inside : invertedOffset rand state.draws sz < len) :
    (corruptedState rand len dst src sz state).mem
        (dst + BitVec.ofNat 64 (invertedOffset rand state.draws sz)) =
      ~~~state.mem (src + BitVec.ofNat 64 (invertedOffset rand state.draws sz)) := by
  rw [corruptedState, invertByte_mem, Function.update_self]
  exact congrArg (~~~·) (memcpy_inside bound disjoint inside state)

theorem corruptedState_copied (bound : len ≤ 2 ^ 64)
    (disjoint : ∀ address, Within dst len address → ¬Within src len address) {offset : Nat}
    (inside : offset < len) (apart : dst + BitVec.ofNat 64 offset ≠
      dst + BitVec.ofNat 64 (invertedOffset rand state.draws sz)) :
    (corruptedState rand len dst src sz state).mem (dst + BitVec.ofNat 64 offset) =
      state.mem (src + BitVec.ofNat 64 offset) := by
  rw [corruptedState, invertByte_mem, Function.update_of_ne apart]
  exact memcpy_inside bound disjoint inside state

theorem corruptedState_kept (bound : len ≤ 2 ^ 64) {address : Word}
    (outside : ¬Within dst len address)
    (apart : address ≠ dst + BitVec.ofNat 64 (invertedOffset rand state.draws sz)) :
    (corruptedState rand len dst src sz state).mem address = state.mem address := by
  rw [corruptedState, invertByte_mem, Function.update_of_ne apart]
  exact memcpy_outside bound outside src state

end Inverted

/-- The size is one for which copying `len` bytes does what copying `sz` would: it is that of the
copy, or a larger one with the remaining bytes equal before and spared by the draw. -/
structure CopyCovers (len : Nat) (dst src sz : Word) (mem : Memory 64) (draws : Nat) : Prop where
  covered : len ≤ sz.toNat
  drawn : invertedOffset rand draws sz < len
  equalTails : ∀ offset, len ≤ offset → offset < sz.toNat →
    mem (dst + BitVec.ofNat 64 offset) = mem (src + BitVec.ofNat 64 offset)

section Contents

variable {dst src sz : Word} {state : BufferState} {len : Nat} (positive : 0 < sz.toNat)
  (disjoint : ∀ address, Within dst sz.toNat address → ¬Within src sz.toNat address)

include positive disjoint

theorem corruptedState_contents (covered : len ≤ sz.toNat)
    (drawn : invertedOffset rand state.draws sz < len) {offset : Nat} (inside : offset < sz.toNat) :
    (corruptedState rand len dst src sz state).mem (src + BitVec.ofNat 64 offset) =
        state.mem (src + BitVec.ofNat 64 offset) ∧
      (corruptedState rand len dst src sz state).mem (dst + BitVec.ofNat 64 offset) =
        if offset = invertedOffset rand state.draws sz then
          ~~~state.mem (src + BitVec.ofNat 64 offset)
        else if offset < len then state.mem (src + BitVec.ofNat 64 offset)
        else state.mem (dst + BitVec.ofNat 64 offset) := by
  have whole := sz.isLt
  have bound : len ≤ 2 ^ 64 := by omega
  have below := invertedOffset_lt rand positive state.draws
  have target := within_add dst below (show sz.toNat ≤ 2 ^ 64 by omega)
  have source := within_add src inside (show sz.toNat ≤ 2 ^ 64 by omega)
  have disjointCopy : ∀ address, Within dst len address → ¬Within src len address :=
    fun address inTarget inSource =>
      disjoint address (inTarget.mono covered) (inSource.mono covered)
  constructor
  · apply corruptedState_kept rand bound (fun inTarget => disjoint _ (inTarget.mono covered) source)
    intro same
    rw [same] at source
    exact disjoint _ target source
  · split_ifs with here copied
    · rw [here]
      exact corruptedState_inverted rand bound disjointCopy drawn
    · exact corruptedState_copied rand bound disjointCopy copied (by bv_omega)
    · apply corruptedState_kept rand bound _ (by bv_omega)
      unfold Within
      bv_omega

theorem corrupted_of_covers (fresh : state.accesses = [])
    (covers : CopyCovers rand len dst src sz state.mem state.draws) :
    Corrupted dst src sz (corruptedState rand len dst src sz state) := by
  have whole := sz.isLt
  have bound : len ≤ 2 ^ 64 := covers.covered.trans (by omega)
  have contents := @corruptedState_contents rand _ _ _ _ _ positive disjoint covers.covered
    covers.drawn
  have below := invertedOffset_lt rand positive state.draws
  refine ⟨?_, ?_, fun _ => ⟨invertedOffset rand state.draws sz, ⟨below, ?_⟩, ?_⟩⟩
  · intro address input
    rcases corruptedState_input rand bound fresh input with ⟨rfl, unwritten⟩ | inSource
    · exact absurd (within_add dst covers.drawn bound) unwritten
    · exact inSource.mono covers.covered
  · intro address written
    rw [corruptedState_wrote rand bound, fresh] at written
    rcases written with rfl | inTarget | earlier
    · exact within_add dst below (by omega)
    · exact inTarget.mono covers.covered
    · exact absurd earlier List.not_mem_nil
  · rw [(contents below).1, (contents below).2, if_pos rfl]
    exact not_ne_self _
  · rintro offset ⟨inside, differ⟩
    by_contra spared
    rw [(contents inside).1, (contents inside).2, if_neg spared] at differ
    split_ifs at differ with copied
    · exact differ rfl
    · exact differ (covers.equalTails offset (by omega) inside)

theorem covers_of_corrupted (bound : len ≤ 2 ^ 64) (fresh : state.accesses = [])
    (done : Corrupted dst src sz (corruptedState rand len dst src sz state)) :
    CopyCovers rand len dst src sz state.mem state.draws := by
  have whole := sz.isLt
  have below := invertedOffset_lt rand positive state.draws
  -- a longer copy writes the first byte after the buffer
  have covered : len ≤ sz.toNat := by
    by_contra longer
    have past := done.writes (dst + BitVec.ofNat 64 sz.toNat)
      ((corruptedState_wrote rand bound _).mpr
        (Or.inr (Or.inl (within_add dst (by omega) bound))))
    rw [Within, add_ofNat_sub_toNat dst (by omega)] at past
    omega
  -- a shorter copy leaves the byte to be inverted unwritten
  have drawn : invertedOffset rand state.draws sz < len := by
    by_contra beyond
    have outside : ¬Within dst len
        (dst + BitVec.ofNat 64 (invertedOffset rand state.draws sz)) := by
      rw [Within, add_ofNat_sub_toNat dst (by omega)]
      exact beyond
    exact disjoint _ (within_add dst below (by omega))
      (done.inputs _ (corruptedState_reads_inverted rand bound fresh outside))
  have contents := @corruptedState_contents rand _ _ _ _ _ positive disjoint covered drawn
  refine ⟨covered, drawn, ?_⟩
  intro offset beyond inside
  obtain ⟨only, _, unique⟩ := done.differs positive
  have inverted : invertedOffset rand state.draws sz = only := by
    refine unique _ ⟨below, ?_⟩
    rw [(contents below).1, (contents below).2, if_pos rfl]
    exact not_ne_self _
  by_contra differ
  have again : offset = only := by
    refine unique _ ⟨inside, ?_⟩
    rwa [(contents inside).1, (contents inside).2, if_neg (by omega), if_neg (by omega)]
  omega

end Contents

structure RespectSize (ptr dst src sz : Word) (mem : Memory 64) (draws : Nat) : Prop where
  randomizes : Randomized ptr sz (randomize rand ptr sz (.start mem draws))
  corrupts : ∃ after, corrupt rand dst src sz (.start mem draws) = .ok after ∧
    Corrupted dst src sz after

section Sizes

variable {ptr dst src sz : Word} {mem : Memory 64} {draws : Nat} (target : dst ≠ 0) (source : src ≠ 0)
  (disjoint : ∀ address, Within dst sz.toNat address → ¬Within src sz.toNat address)

include target source disjoint

theorem covers_of_respectSize (respects : RespectSize rand ptr dst src sz mem draws) :
    CopyCovers rand (4 * MB).toNat dst src sz mem draws := by
  obtain ⟨_, after, returned, done⟩ := respects
  have positive : 0 < sz.toNat := by
    by_contra zero
    obtain rfl : sz = 0 := BitVec.eq_of_toNat_eq (by simpa using zero)
    rw [corrupt_zero rand target] at returned
    contradiction
  rw [corrupt_eq rand target source positive] at returned
  obtain rfl := Except.ok.inj returned
  exact covers_of_corrupted rand positive disjoint four_mb_le rfl done

/-- The two agree with a size of 4 MB. A larger one is covered by luck only, a smaller one is
overrun, and zero is divided by. -/
theorem respectSize_iff (present : ptr ≠ 0) :
    RespectSize rand ptr dst src sz mem draws ↔
      CopyCovers rand (4 * MB).toNat dst src sz mem draws := by
  constructor
  · exact covers_of_respectSize rand target source disjoint
  · intro covers
    have positive : 0 < sz.toNat := lt_of_lt_of_le four_mb_pos covers.covered
    refine ⟨(randomized_iff rand present sz mem draws).mpr positive, _,
      corrupt_eq rand target source positive _, ?_⟩
    exact corrupted_of_covers rand positive disjoint rfl covers

end Sizes

theorem respectSize_four_mb :
    RespectSize (fun _ => 0) 0x10000000 0x20000000 0x30000000 (4 * MB) (fun _ => 0) 0 := by
  apply (respectSize_iff (fun _ => 0) (by decide) (by decide) ?_ (by decide)).mpr
  · refine ⟨Nat.le_refl _, ?_, fun _ _ _ => rfl⟩
    rw [four_mb, invertedOffset]
    simp
  · intro address
    rw [four_mb]
    unfold Within
    bv_omega

theorem not_respectSize_small :
    ¬RespectSize (fun _ => 0) 0x10000000 0x20000000 0x30000000 4096 (fun _ => 0) 0 ∧
      ¬RespectSize (fun _ => 0) 0x10000000 0x20000000 0x30000000 0 (fun _ => 0) 0 := by
  have overrun : ∀ sz : Word, sz.toNat ≤ 4096 →
      ¬RespectSize (fun _ => 0) 0x10000000 0x20000000 0x30000000 sz (fun _ => 0) 0 := by
    intro sz small respects
    have covers := covers_of_respectSize _ (by decide) (by decide) ?_ respects
    · have copied := covers.covered
      rw [four_mb] at copied
      omega
    · intro address
      unfold Within
      bv_omega
  exact ⟨overrun 4096 (by decide), overrun 0 (by decide)⟩

end SimplexMpx
