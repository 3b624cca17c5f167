import SimplexMpx.StringContracts

/-!
What the functions of string.h over bounds registers do to each other: a copy to a higher overlapping
place repeats the bytes in between, which a comparison does not show, and a search finds what was set.
-/

namespace SimplexMpx

open ByteMemory

/-! Copying wherever the regions are -/

/-- Each byte is the one at the same place of the source, counted from its start again in every
period of the distance; `slot` aside, nothing else changes. -/
structure Replicated (slot : Word → Prop) (d s : Word) (len : Nat) (before after : Traced) :
    Prop where
  copied : ∀ offset < len, ¬slot (d + BitVec.ofNat 64 offset) →
    after.machine.mem (d + BitVec.ofNat 64 offset) =
      before.machine.mem (s + BitVec.ofNat 64 (offset % (d - s).toNat))
  kept : ∀ address, ¬Within d len address → ¬slot address →
    after.machine.mem address = before.machine.mem address

section Copying

variable {rsp len d s : Word} {state : Traced}

theorem copyLoop_replicates (len : Nat) (bound : len ≤ 2 ^ 64) (d s : Word) (state : Traced) :
    Replicated (fun _ => False) d s len state (copyLoop len d s state) := by
  rw [copyLoop_eq]
  constructor
  · intro offset inside _
    rw [copyPairs_mem, copyInOrder_upwards bound, if_pos (within_add d inside bound),
      add_ofNat_sub_toNat d (by omega)]
  · intro address outside _
    rw [copyPairs_mem, copyInOrder_upwards bound, if_neg outside]

theorem simplexMemcpy_replicates (enabled : state.machine.mpx.Enabled)
    (target : (state.machine.mpx.bnd .bnd1).lb = d) (source : (state.machine.mpx.bnd .bnd2).lb = s)
    (apart : ApartFrom rsp s len) :
    (simplexMemcpy rsp len state).1 = d ∧
      (simplexMemcpy rsp len state).2.machine.mpx = state.machine.mpx ∧
      Replicated (InSlot rsp) d s len.toNat state (simplexMemcpy rsp len state).2 := by
  have bound := len.isLt
  have same := simplexMemcpy_agrees enabled (source ▸ apart)
  rw [target, source] at same
  have plain := copyLoop_replicates len.toNat (by omega) d s state
  refine ⟨same.value, same.kept, ?_, ?_⟩
  · intro offset inside outside
    rw [same.agree.mem _ outside]
    exact plain.copied offset inside not_false
  · intro address beyond outside
    rw [same.agree.mem _ outside]
    exact plain.kept address beyond not_false

theorem overlapping_apart {base : Word} (choice : base = 0x2000 ∨ base = 0x2002) :
    ApartFrom 0x7000 base 5 := by
  intro address inside
  simp only [Within, InSlot] at inside ⊢
  rcases choice with rfl | rfl <;> bv_omega

theorem simplexMemcpy_replicates_overlapping :
    (simplexMemcpy 0x7000 5 overlapping).2.machine.mem 0x2006 = 0 := by
  have enabled : overlapping.machine.mpx.Enabled := ⟨by decide, by decide⟩
  obtain ⟨-, -, copied, -⟩ := @simplexMemcpy_replicates 0x7000 5 0x2002 0x2000 overlapping enabled
    (by decide) (by decide) (overlapping_apart (by decide))
  exact (copied 4 (by decide) (by decide)).trans (by decide)

end Copying

def marked (d s : Word) : Traced where
  machine :=
    { mpx := { bnd := fun bnd => if bnd = .bnd1 then ⟨d, 0⟩ else ⟨s, 0⟩
               bndcfgu := 3
               bndstatus := 0 }
      mem := fun address => if address = s then 0 else 1
      stderr := [] }
  reads := []
  writes := []
  fetches := []

theorem simplexMemcpy_moves_iff {rsp len d s : Word} (target : ApartFrom rsp d len)
    (source : ApartFrom rsp s len) :
    (∀ state : Traced, state.machine.mpx.Enabled → (state.machine.mpx.bnd .bnd1).lb = d →
      (state.machine.mpx.bnd .bnd2).lb = s → ∀ offset < len.toNat,
        (simplexMemcpy rsp len state).2.machine.mem (d + BitVec.ofNat 64 offset) =
          state.machine.mem (s + BitVec.ofNat 64 offset)) ↔
      d = s ∨ len ≤ d - s := by
  have bound := len.isLt
  constructor
  · intro moves
    by_contra! ⟨apart, inside⟩
    have within : (d - s).toNat < len.toNat := BitVec.not_le.mp inside
    have distance : s + BitVec.ofNat 64 (d - s).toNat = d := by
      rw [BitVec.ofNat_toNat, BitVec.setWidth_eq]
      exact add_sub_cancel s d
    have enabled : (marked d s).machine.mpx.Enabled :=
      ⟨show (3 : Word).getLsbD 0 = true by decide, show (3 : Word).getLsbD 1 = true by decide⟩
    have moved := moves (marked d s) enabled rfl rfl (d - s).toNat within
    obtain ⟨-, -, replicated⟩ := @simplexMemcpy_replicates rsp len d s (marked d s) enabled rfl rfl
      source
    have outside := target _ (within_add d within (by omega))
    rw [replicated.copied _ within outside, Nat.mod_self, add_ofNat_zero, distance] at moved
    simp [marked, apart] at moved
  · intro clear state enabled first second offset inside
    obtain ⟨-, -, replicated⟩ := simplexMemcpy_replicates enabled first second source
    rw [replicated.copied offset inside (target _ (within_add d inside (by omega)))]
    rcases clear with rfl | long
    · have together : (d - d).toNat = 0 := by simp
      rw [together, Nat.mod_zero]
    · have beyond : len.toNat ≤ (d - s).toNat := long
      rw [Nat.mod_eq_of_lt (by omega)]

theorem simplexMemcpy_moves_iff_overlapping :
    ¬∀ state : Traced, state.machine.mpx.Enabled → (state.machine.mpx.bnd .bnd1).lb = 0x2002 →
      (state.machine.mpx.bnd .bnd2).lb = 0x2000 → ∀ offset < (5 : Word).toNat,
        (simplexMemcpy 0x7000 5 state).2.machine.mem (0x2002 + BitVec.ofNat 64 offset) =
          state.machine.mem (0x2000 + BitVec.ofNat 64 offset) := by
  intro moves
  have clear := (simplexMemcpy_moves_iff (overlapping_apart (by decide))
    (overlapping_apart (by decide))).mp moves
  exact absurd clear (by decide)

/-! Comparing after copying -/

section Compared

variable {rsp rsp' len d s : Word} {state : Traced}

theorem replicated_alike {slot : Word → Prop} {before after : Traced}
    (replicated : Replicated slot d s len.toNat before after)
    (clear : d = s ∨ len ≤ s - d)
    (target : ∀ offset < len.toNat, ¬slot (d + BitVec.ofNat 64 offset))
    (source : ∀ offset < len.toNat, ¬slot (s + BitVec.ofNat 64 offset)) :
    ∀ offset < len.toNat, after.machine.mem (d + BitVec.ofNat 64 offset) =
      after.machine.mem (s + BitVec.ofNat 64 offset) := by
  have bound := len.isLt
  intro offset inside
  by_cases again : (d - s).toNat ≤ offset
  · have back : s + BitVec.ofNat 64 offset = d + BitVec.ofNat 64 (offset - (d - s).toNat) := by
      bv_omega
    rw [back, replicated.copied offset inside (target offset inside),
      replicated.copied _ (by omega) (target _ (by omega)), Nat.mod_eq_sub_mod again]
  · have outside : ¬Within d len.toNat (s + BitVec.ofNat 64 offset) := by
      unfold Within
      rcases clear with rfl | long
      · simp at again
      · bv_omega
    rw [replicated.copied offset inside (target offset inside), Nat.mod_eq_of_lt (by omega),
      replicated.kept _ outside (source offset inside)]

theorem simplexMemcmp_after_memcpy (enabled : state.machine.mpx.Enabled)
    (first : (state.machine.mpx.bnd .bnd1).lb = d) (second : (state.machine.mpx.bnd .bnd2).lb = s)
    (target : ApartFrom rsp d len) (source : ApartFrom rsp s len) (target' : ApartFrom rsp' d len)
    (source' : ApartFrom rsp' s len) (clear : d = s ∨ len ≤ s - d) :
    (simplexMemcmp rsp' len (simplexMemcpy rsp len state).2).1 = 0 := by
  obtain ⟨-, kept, replicated⟩ := simplexMemcpy_replicates enabled first second source
  have alike := replicated_alike replicated clear (offsets_apart target) (offsets_apart source)
  generalize (simplexMemcpy rsp len state).2 = copied at kept alike
  have contract := @simplexMemcmp_contract rsp' len copied (by rwa [kept]) (by rwa [kept, first])
    (by rwa [kept, second])
  rw [kept, first, second] at contract
  exact contract.equal alike

end Compared

theorem simplexMemcmp_after_memcpy_overlapping :
    (simplexMemcmp 0x7000 5 (simplexMemcpy 0x7000 5 overlapping).2).1 = 0 := by
  have enabled : overlapping.machine.mpx.Enabled := ⟨by decide, by decide⟩
  exact @simplexMemcmp_after_memcpy 0x7000 0x7000 5 0x2002 0x2000 overlapping enabled (by decide)
    (by decide) (overlapping_apart (by decide)) (overlapping_apart (by decide))
    (overlapping_apart (by decide)) (overlapping_apart (by decide)) (by decide)

/-! Searching after setting -/

theorem setLoop_mem {len : Nat} (bound : len ≤ 2 ^ 64) (val : BitVec 32) (ptr : Word)
    (state : Traced) :
    (setLoop val len ptr state).machine.mem =
      fill state.machine.mem ptr len (val.setWidth 8) := by
  induction len generalizing ptr state with
  | zero =>
      funext address
      simp [setLoop, fill, Within]
  | succ len ih =>
      have split := fun address => within_split ptr address (show 1 + len ≤ 2 ^ 64 by omega)
      have only : ∀ address, Within ptr 1 address ↔ address = ptr := by
        intro address
        unfold Within
        bv_omega
      rw [setLoop, ih (by omega)]
      funext address
      simp only [fill, Nat.add_comm len 1, split, only, Traced.writeByte]
      by_cases first : address = ptr
      · rw [first, Function.update_self, ite_self, if_pos (Or.inl rfl)]
      · rw [Function.update_of_ne first]
        simp only [first, false_or]
        rfl

section Searched

variable {rsp rsp' len count d : Word} {state : Traced}

theorem simplexMemset_fills (enabled : state.machine.mpx.Enabled)
    (target : (state.machine.mpx.bnd .bnd1).lb = d) (val : BitVec 32) :
    (simplexMemset rsp val len state).1 = d ∧
      (simplexMemset rsp val len state).2.machine.mpx = state.machine.mpx ∧
      ∀ address, ¬InSlot rsp address →
        (simplexMemset rsp val len state).2.machine.mem address =
          fill state.machine.mem d len.toNat (val.setWidth 8) address := by
  have bound := len.isLt
  have same : SameOutcome rsp state (simplexMemset rsp val len state) _ :=
    simplexMemset_agrees enabled val
  rw [target] at same
  refine ⟨same.value, same.kept, fun address outside => ?_⟩
  rw [same.agree.mem address outside, libgccMemset, setLoop_mem (by omega)]

/-- Only the low byte of an int is set, and an int is found only if it is that byte. -/
theorem simplexMemchr_after_memset (enabled : state.machine.mpx.Enabled)
    (target : (state.machine.mpx.bnd .bnd1).lb = d) (apart : ApartFrom rsp d count)
    (apart' : ApartFrom rsp' d count) (covered : count ≤ len) (val c : BitVec 32) :
    (simplexMemchr rsp' c count (simplexMemset rsp val len state).2).1 =
      if 0 < count ∧ c = (val.setWidth 8).setWidth 32 then d else 0 := by
  have bound := count.isLt
  have covers : count.toNat ≤ len.toNat := covered
  obtain ⟨-, kept, filled⟩ := @simplexMemset_fills rsp len d state enabled target val
  generalize (simplexMemset rsp val len state).2 = after at kept filled
  have same := @simplexMemchr_agrees rsp' count after (by rwa [kept]) (by rwa [kept, target]) c
  rw [kept, target] at same
  have byte : ∀ offset < count.toNat,
      after.machine.mem (d + BitVec.ofNat 64 offset) = val.setWidth 8 := by
    intro offset inside
    rw [filled _ (offsets_apart apart offset inside), fill,
      if_pos (within_add d (by omega) (by omega))]
  have hit : ∀ offset < count.toNat,
      Hit after.machine.mem d c offset ↔ c = (val.setWidth 8).setWidth 32 := by
    intro offset inside
    rw [Hit, byte offset inside, eq_comm]
  rw [same.value, libgccMemchr]
  split_ifs with found
  · obtain ⟨positive, low⟩ := found
    have some : 0 < count.toNat := positive
    rw [searchLoop_found some ((hit 0 some).mpr low) (fun earlier before => by omega),
      add_ofNat_zero]
  · rw [searchLoop_missing]
    intro offset inside matched
    refine found ⟨?_, (hit offset inside).mp matched⟩
    bv_omega

end Searched

theorem simplexMemchr_after_memset_overlapping :
    (simplexMemchr 0x7000 0x43 5 (simplexMemset 0x7000 0xFFFFFF43 5 overlapping).2).1 = 0x2002 := by
  have enabled : overlapping.machine.mpx.Enabled := ⟨by decide, by decide⟩
  have found := @simplexMemchr_after_memset 0x7000 0x7000 5 5 0x2002 overlapping enabled (by decide)
    (overlapping_apart (by decide)) (overlapping_apart (by decide)) (by decide) 0xFFFFFF43 0x43
  exact found.trans (if_pos (by decide))

end SimplexMpx
