import SimplexMpx.Calls
import SimplexMpx.StringCore

/-!
The string functions over bounds registers agree with the plain ones. Between the two runs only
the slot `qgetbndl` spills to can differ, so a loop that does not read there cannot tell.
-/

namespace SimplexMpx

open ByteMemory

/-- Equal but for the bytes of the slot below `rsp`, with the same accesses so far. -/
structure AgreeApart (rsp : Word) (state state' : Traced) : Prop where
  mem : ∀ address, ¬InSlot rsp address → state.machine.mem address = state'.machine.mem address
  reads : state.reads = state'.reads
  writes : state.writes = state'.writes

/-- Equal but for the hidden bytes, with the same accesses so far. -/
structure AgreeOutside (hidden : Word → Prop) (state state' : Traced) : Prop where
  mem : ∀ address, ¬hidden address → state.machine.mem address = state'.machine.mem address
  reads : state.reads = state'.reads
  writes : state.writes = state'.writes

section Accesses

variable {rsp : Word} {hidden : Word → Prop} {state state' : Traced}

theorem agreeApart_iff : AgreeApart rsp state state' ↔ AgreeOutside (InSlot rsp) state state' :=
  ⟨fun agree => ⟨agree.mem, agree.reads, agree.writes⟩,
    fun agree => ⟨agree.mem, agree.reads, agree.writes⟩⟩

theorem readByte_agree (agree : AgreeOutside hidden state state') {address : Word}
    (apart : ¬hidden address) :
    (state.readByte address).1 = (state'.readByte address).1 ∧
      AgreeOutside hidden (state.readByte address).2 (state'.readByte address).2 :=
  ⟨agree.mem address apart, agree.mem, congrArg (address :: ·) agree.reads, agree.writes⟩

theorem writeByte_agree (agree : AgreeOutside hidden state state') (address : Word)
    (value : BitVec 8) :
    AgreeOutside hidden (state.writeByte address value) (state'.writeByte address value) := by
  refine ⟨?_, agree.reads, congrArg (address :: ·) agree.writes⟩
  intro other apart
  simp only [Traced.writeByte]
  by_cases same : other = address
  · rw [same, Function.update_self, Function.update_self]
  · rw [Function.update_of_ne same, Function.update_of_ne same, agree.mem other apart]

theorem AgreeApart.trans {state'' : Traced} (first : AgreeApart rsp state state')
    (second : AgreeApart rsp state' state'') : AgreeApart rsp state state'' :=
  ⟨fun address apart => (first.mem address apart).trans (second.mem address apart),
    first.reads.trans second.reads, first.writes.trans second.writes⟩

theorem traced_qgetbndl (enabled : state.machine.mpx.Enabled) (rsp : Word) {reg : BndregT}
    {bnd : Bnd} (named : switchReg reg = some bnd) :
    ∃ next, state.qgetbndl rsp reg = ((state.machine.mpx.bnd bnd).lb, next) ∧
      next.machine.mpx = state.machine.mpx ∧ AgreeApart rsp next state := by
  have called := nearCall_qgetbndl enabled rsp reg
  rw [accessed_of_en enabled.1, named] at called
  refine ⟨{ state with
    machine := afterQuickAccess rsp reg state.machine
    fetches := (reg, (state.machine.mpx.bnd bnd).lb) :: state.fetches }, ?_, ?_, ?_, rfl, rfl⟩
  · simp only [Traced.qgetbndl, called]
  · exact afterQuickAccess_mpx rsp reg state.machine
  · intro address apart
    exact afterQuickAccess_mem_outside apart reg state.machine

end Accesses

def ApartFrom (rsp base len : Word) : Prop :=
  ∀ address, Within base len.toNat address → ¬InSlot rsp address

theorem offsets_apart {rsp base len : Word} (apart : ApartFrom rsp base len) :
    ∀ offset < len.toNat, ¬InSlot rsp (base + BitVec.ofNat 64 offset) := by
  have bound := len.isLt
  intro offset inside
  exact apart _ (within_add base inside (by omega))

/-! Loops -/

section Loops

variable {hidden : Word → Prop}

theorem compareLoop_agree {count : Nat} {s1 s2 : Word} {state state' : Traced}
    (apart1 : ∀ offset < count, ¬hidden (s1 + BitVec.ofNat 64 offset))
    (apart2 : ∀ offset < count, ¬hidden (s2 + BitVec.ofNat 64 offset))
    (agree : AgreeOutside hidden state state') :
    (compareLoop count s1 s2 state).1 = (compareLoop count s1 s2 state').1 ∧
      AgreeOutside hidden (compareLoop count s1 s2 state).2 (compareLoop count s1 s2 state').2 := by
  induction count generalizing s1 s2 state state' with
  | zero => exact ⟨rfl, agree⟩
  | succ count ih =>
      obtain ⟨head1, tail1⟩ := offsets_tail (fun address => ¬hidden address) apart1
      obtain ⟨head2, tail2⟩ := offsets_tail (fun address => ¬hidden address) apart2
      obtain ⟨byte1, agree⟩ := readByte_agree agree head1
      obtain ⟨byte2, agree⟩ := readByte_agree agree head2
      simp only [compareLoop, byte1, byte2, add_sub_cancel_right]
      by_cases differ : (state'.readByte s1).1 ≠ ((state'.readByte s1).2.readByte s2).1
      · obtain ⟨again1, agree⟩ := readByte_agree agree head1
        obtain ⟨again2, agree⟩ := readByte_agree agree head2
        rw [if_pos differ, if_pos differ, again1, again2]
        exact ⟨rfl, agree⟩
      · rw [if_neg differ, if_neg differ]
        exact ih tail1 tail2 agree

theorem copyLoop_agree {len : Nat} {d s : Word} {state state' : Traced}
    (apart : ∀ offset < len, ¬hidden (s + BitVec.ofNat 64 offset))
    (agree : AgreeOutside hidden state state') :
    AgreeOutside hidden (copyLoop len d s state) (copyLoop len d s state') := by
  induction len generalizing d s state state' with
  | zero => exact agree
  | succ len ih =>
      obtain ⟨head, tail⟩ := offsets_tail (fun address => ¬hidden address) apart
      obtain ⟨byte, agree⟩ := readByte_agree agree head
      simp only [copyLoop, byte]
      exact ih tail (writeByte_agree agree d _)

theorem copyDownLoop_agree {len : Nat} {lastd lasts : Word} {state state' : Traced}
    (apart : ∀ offset < len, ¬hidden (lasts - BitVec.ofNat 64 offset))
    (agree : AgreeOutside hidden state state') :
    AgreeOutside hidden (copyDownLoop len lastd lasts state)
      (copyDownLoop len lastd lasts state') := by
  induction len generalizing lastd lasts state state' with
  | zero => exact agree
  | succ len ih =>
      obtain ⟨head, tail⟩ := offsets_down_tail (fun address => ¬hidden address) apart
      obtain ⟨byte, agree⟩ := readByte_agree agree head
      simp only [copyDownLoop, byte]
      exact ih tail (writeByte_agree agree lastd _)

theorem setLoop_agree {val : BitVec 32} {len : Nat} {ptr : Word} {state state' : Traced}
    (agree : AgreeOutside hidden state state') :
    AgreeOutside hidden (setLoop val len ptr state) (setLoop val len ptr state') := by
  induction len generalizing ptr state state' with
  | zero => exact agree
  | succ len ih => exact ih (writeByte_agree agree ptr _)

theorem searchLoop_agree (c : BitVec 32) {len : Nat} {src : Word} {state state' : Traced}
    (apart : ∀ offset < len, ¬hidden (src + BitVec.ofNat 64 offset))
    (agree : AgreeOutside hidden state state') :
    (searchLoop c len src state).1 = (searchLoop c len src state').1 ∧
      AgreeOutside hidden (searchLoop c len src state).2 (searchLoop c len src state').2 := by
  induction len generalizing src state state' with
  | zero => exact ⟨rfl, agree⟩
  | succ len ih =>
      obtain ⟨head, tail⟩ := offsets_tail (fun address => ¬hidden address) apart
      obtain ⟨byte, agree⟩ := readByte_agree agree head
      simp only [searchLoop, byte]
      by_cases found : (state'.readByte src).1.setWidth 32 = c
      · rw [if_pos found, if_pos found]
        exact ⟨rfl, agree⟩
      · rw [if_neg found, if_neg found]
        exact ih tail agree

theorem moveBody_agree {len d s : Word} {state state' : Traced}
    (apart : ∀ address, Within s len.toNat address → ¬hidden address)
    (agree : AgreeOutside hidden state state') :
    AgreeOutside hidden (moveBody len d s state) (moveBody len d s state') := by
  have bound := len.isLt
  unfold moveBody
  by_cases below : d < s
  · simp only [below, if_true]
    refine copyLoop_agree ?_ agree
    intro offset inside
    exact apart _ (within_add s inside (by omega))
  · simp only [below, if_false]
    refine copyDownLoop_agree ?_ agree
    intro offset inside
    apply apart
    have back : s + (len - 1) - BitVec.ofNat 64 offset - s =
        len - 1 - BitVec.ofNat 64 offset := by bv_omega
    rw [Within, back]
    bv_omega

/-! What the byte accesses keep, a loop keeps -/

structure Steady (Kept : Traced → Prop) : Prop where
  read : ∀ state address, Kept state → Kept (state.readByte address).2
  write : ∀ state address value, Kept state → Kept (state.writeByte address value)

theorem steady_mpx (mpx : MpxState) : Steady fun state => state.machine.mpx = mpx :=
  ⟨fun _ _ same => same, fun _ _ _ same => same⟩

variable {Kept : Traced → Prop} {state : Traced}

theorem compareLoop_keeps (steady : Steady Kept) (count : Nat) (s1 s2 : Word)
    (kept : Kept state) : Kept (compareLoop count s1 s2 state).2 := by
  induction count generalizing s1 s2 state with
  | zero => exact kept
  | succ count ih =>
      have once := steady.read _ s2 (steady.read _ s1 kept)
      simp only [compareLoop]
      split
      · exact steady.read _ _ (steady.read _ _ once)
      · exact ih _ _ once

theorem copyLoop_keeps (steady : Steady Kept) (len : Nat) (d s : Word) (kept : Kept state) :
    Kept (copyLoop len d s state) := by
  induction len generalizing d s state with
  | zero => exact kept
  | succ len ih => exact ih _ _ (steady.write _ _ _ (steady.read _ _ kept))

theorem copyDownLoop_keeps (steady : Steady Kept) (len : Nat) (lastd lasts : Word)
    (kept : Kept state) : Kept (copyDownLoop len lastd lasts state) := by
  induction len generalizing lastd lasts state with
  | zero => exact kept
  | succ len ih => exact ih _ _ (steady.write _ _ _ (steady.read _ _ kept))

theorem setLoop_keeps (steady : Steady Kept) (val : BitVec 32) (len : Nat) (ptr : Word)
    (kept : Kept state) : Kept (setLoop val len ptr state) := by
  induction len generalizing ptr state with
  | zero => exact kept
  | succ len ih => exact ih _ (steady.write _ _ _ kept)

theorem searchLoop_keeps (steady : Steady Kept) (c : BitVec 32) (len : Nat) (src : Word)
    (kept : Kept state) : Kept (searchLoop c len src state).2 := by
  induction len generalizing src state with
  | zero => exact kept
  | succ len ih =>
      have once := steady.read _ src kept
      simp only [searchLoop]
      split
      · exact once
      · exact ih _ once

theorem moveBody_keeps (steady : Steady Kept) (len d s : Word) (kept : Kept state) :
    Kept (moveBody len d s state) := by
  unfold moveBody
  split
  · exact copyLoop_keeps steady _ _ _ kept
  · exact copyDownLoop_keeps steady _ _ _ kept

end Loops

/-! Whole functions -/

/-- Same value, same accesses, same memory but for the slot, and both keep the registers. -/
structure SameOutcome {α : Type} (rsp : Word) (initial : Traced) (outcome outcome' : α × Traced) :
    Prop where
  value : outcome.1 = outcome'.1
  agree : AgreeApart rsp outcome.2 outcome'.2
  kept : outcome.2.machine.mpx = initial.machine.mpx
  kept' : outcome'.2.machine.mpx = initial.machine.mpx

structure StringAgreement (rsp len : Word) (state : Traced) : Prop where
  memcmp : ApartFrom rsp (state.machine.mpx.bnd .bnd1).lb len →
    ApartFrom rsp (state.machine.mpx.bnd .bnd2).lb len →
    SameOutcome rsp state (simplexMemcmp rsp len state)
      (libgccMemcmp (state.machine.mpx.bnd .bnd1).lb (state.machine.mpx.bnd .bnd2).lb len state)
  memcpy : ApartFrom rsp (state.machine.mpx.bnd .bnd2).lb len →
    SameOutcome rsp state (simplexMemcpy rsp len state)
      (libgccMemcpy (state.machine.mpx.bnd .bnd1).lb (state.machine.mpx.bnd .bnd2).lb len state)
  memmove : ApartFrom rsp (state.machine.mpx.bnd .bnd2).lb len →
    SameOutcome rsp state (simplexMemmove rsp len state)
      (libgccMemmove (state.machine.mpx.bnd .bnd1).lb (state.machine.mpx.bnd .bnd2).lb len state)
  memset : ∀ val, SameOutcome rsp state (simplexMemset rsp val len state)
    (libgccMemset (state.machine.mpx.bnd .bnd1).lb val len state)
  memchr : ApartFrom rsp (state.machine.mpx.bnd .bnd1).lb len →
    ∀ c, SameOutcome rsp state (simplexMemchr rsp c len state)
      (libgccMemchr (state.machine.mpx.bnd .bnd1).lb c len state)

section Functions

variable {rsp len : Word} {state : Traced}

theorem fetched_pointers (enabled : state.machine.mpx.Enabled) (rsp : Word) :
    ∃ middle next, state.qgetbndl rsp BND1 = ((state.machine.mpx.bnd .bnd1).lb, middle) ∧
      middle.qgetbndl rsp BND2 = ((state.machine.mpx.bnd .bnd2).lb, next) ∧
      next.machine.mpx = state.machine.mpx ∧ AgreeApart rsp next state := by
  obtain ⟨middle, first, kept, agree⟩ :=
    traced_qgetbndl enabled rsp (show switchReg BND1 = _ from rfl)
  have still : middle.machine.mpx.Enabled := by rwa [kept]
  obtain ⟨next, second, kept', agree'⟩ := traced_qgetbndl still rsp (show switchReg BND2 = _ from rfl)
  rw [kept] at second kept'
  exact ⟨middle, next, first, second, kept', agree'.trans agree⟩

theorem sameOutcome_reread {initial after after' : Traced} (enabled : initial.machine.mpx.Enabled)
    (kept : after.machine.mpx = initial.machine.mpx)
    (kept' : after'.machine.mpx = initial.machine.mpx) (agree : AgreeApart rsp after after') :
    SameOutcome rsp initial (after.qgetbndl rsp BND1)
      ((initial.machine.mpx.bnd .bnd1).lb, after') := by
  have still : after.machine.mpx.Enabled := by rwa [kept]
  obtain ⟨last, called, lastKept, lastAgree⟩ :=
    traced_qgetbndl still rsp (show switchReg BND1 = _ from rfl)
  rw [called]
  exact ⟨by rw [kept], lastAgree.trans agree, lastKept.trans kept, kept'⟩

theorem simplexMemcmp_agrees (enabled : state.machine.mpx.Enabled)
    (apart1 : ApartFrom rsp (state.machine.mpx.bnd .bnd1).lb len)
    (apart2 : ApartFrom rsp (state.machine.mpx.bnd .bnd2).lb len) :
    SameOutcome rsp state (simplexMemcmp rsp len state)
      (libgccMemcmp (state.machine.mpx.bnd .bnd1).lb (state.machine.mpx.bnd .bnd2).lb len state) := by
  obtain ⟨middle, next, first, second, kept, agree⟩ := fetched_pointers enabled rsp
  have looped := compareLoop_agree (offsets_apart apart1) (offsets_apart apart2)
    (agreeApart_iff.mp agree)
  simp only [simplexMemcmp, libgccMemcmp, first, second]
  exact ⟨looped.1, agreeApart_iff.mpr looped.2, compareLoop_keeps (steady_mpx _) _ _ _ kept,
    compareLoop_keeps (steady_mpx _) _ _ _ rfl⟩

theorem simplexMemcpy_agrees (enabled : state.machine.mpx.Enabled)
    (apart : ApartFrom rsp (state.machine.mpx.bnd .bnd2).lb len) :
    SameOutcome rsp state (simplexMemcpy rsp len state)
      (libgccMemcpy (state.machine.mpx.bnd .bnd1).lb (state.machine.mpx.bnd .bnd2).lb len state) := by
  obtain ⟨middle, next, first, second, kept, agree⟩ := fetched_pointers enabled rsp
  simp only [simplexMemcpy, libgccMemcpy, first, second]
  exact sameOutcome_reread enabled (copyLoop_keeps (steady_mpx _) _ _ _ kept)
    (copyLoop_keeps (steady_mpx _) _ _ _ rfl)
    (agreeApart_iff.mpr (copyLoop_agree (offsets_apart apart) (agreeApart_iff.mp agree)))

theorem simplexMemmove_agrees (enabled : state.machine.mpx.Enabled)
    (apart : ApartFrom rsp (state.machine.mpx.bnd .bnd2).lb len) :
    SameOutcome rsp state (simplexMemmove rsp len state)
      (libgccMemmove (state.machine.mpx.bnd .bnd1).lb (state.machine.mpx.bnd .bnd2).lb len
        state) := by
  obtain ⟨middle, next, first, second, kept, agree⟩ := fetched_pointers enabled rsp
  simp only [simplexMemmove, libgccMemmove, first, second]
  exact sameOutcome_reread enabled (moveBody_keeps (steady_mpx _) _ _ _ kept)
    (moveBody_keeps (steady_mpx _) _ _ _ rfl)
    (agreeApart_iff.mpr (moveBody_agree apart (agreeApart_iff.mp agree)))

theorem simplexMemset_agrees (enabled : state.machine.mpx.Enabled) (val : BitVec 32) :
    SameOutcome rsp state (simplexMemset rsp val len state)
      (libgccMemset (state.machine.mpx.bnd .bnd1).lb val len state) := by
  obtain ⟨next, called, kept, agree⟩ := traced_qgetbndl enabled rsp (show switchReg BND1 = _ from rfl)
  simp only [simplexMemset, libgccMemset, called]
  exact sameOutcome_reread enabled (setLoop_keeps (steady_mpx _) _ _ _ kept)
    (setLoop_keeps (steady_mpx _) _ _ _ rfl)
    (agreeApart_iff.mpr (setLoop_agree (agreeApart_iff.mp agree)))

theorem simplexMemchr_agrees (enabled : state.machine.mpx.Enabled)
    (apart : ApartFrom rsp (state.machine.mpx.bnd .bnd1).lb len) (c : BitVec 32) :
    SameOutcome rsp state (simplexMemchr rsp c len state)
      (libgccMemchr (state.machine.mpx.bnd .bnd1).lb c len state) := by
  obtain ⟨next, called, kept, agree⟩ := traced_qgetbndl enabled rsp (show switchReg BND1 = _ from rfl)
  have looped := searchLoop_agree c (offsets_apart apart) (agreeApart_iff.mp agree)
  simp only [simplexMemchr, libgccMemchr, called]
  exact ⟨looped.1, agreeApart_iff.mpr looped.2, searchLoop_keeps (steady_mpx _) _ _ _ kept,
    searchLoop_keeps (steady_mpx _) _ _ _ rfl⟩

end Functions

/-- With MPX enabled every function over bounds registers agrees with its plain version, for all
lengths, values and placements, as long as the bytes it reads are not in its scratch slot. -/
theorem stringFunctions_agree {state : Traced} (enabled : state.machine.mpx.Enabled)
    (rsp len : Word) : StringAgreement rsp len state :=
  ⟨simplexMemcmp_agrees enabled, simplexMemcpy_agrees enabled, simplexMemmove_agrees enabled,
    simplexMemset_agrees enabled, simplexMemchr_agrees enabled⟩

/-- Two overlapping regions of a memory of increasing bytes, their addresses stored by `qsetbndl`
after `process_specific_init`. -/
def storedRegions : Traced where
  machine := qsetbndl BND2 0x2000 (qsetbndl BND1 0x2002
    (startedMachine capablePlatform 0x5000
      { blankMachine with mem := fun address => address.setWidth 8 }))
  reads := []
  writes := []
  fetches := []

theorem stringFunctions_agree_stored :
    SameOutcome 0x7000 storedRegions (simplexMemmove 0x7000 5 storedRegions)
        (libgccMemmove 0x2002 0x2000 5 storedRegions) ∧
      SameOutcome 0x7000 storedRegions (simplexMemcpy 0x7000 5 storedRegions)
        (libgccMemcpy 0x2002 0x2000 5 storedRegions) ∧
      SameOutcome 0x7000 storedRegions (simplexMemcmp 0x7000 5 storedRegions)
        (libgccMemcmp 0x2002 0x2000 5 storedRegions) ∧
      SameOutcome 0x7000 storedRegions (simplexMemset 0x7000 0xFF 5 storedRegions)
        (libgccMemset 0x2002 0xFF 5 storedRegions) ∧
      SameOutcome 0x7000 storedRegions (simplexMemchr 0x7000 4 5 storedRegions)
        (libgccMemchr 0x2002 4 5 storedRegions) := by
  have enabled : storedRegions.machine.mpx.Enabled := ⟨by decide, by decide⟩
  have target : (storedRegions.machine.mpx.bnd .bnd1).lb = 0x2002 := by decide
  have source : (storedRegions.machine.mpx.bnd .bnd2).lb = 0x2000 := by decide
  have apart {base : Word} (choice : base = 0x2000 ∨ base = 0x2002) : ApartFrom 0x7000 base 5 := by
    intro address inside
    simp only [Within, InSlot] at inside ⊢
    rcases choice with rfl | rfl <;> bv_omega
  have agreement : StringAgreement 0x7000 5 storedRegions := stringFunctions_agree enabled 0x7000 5
  obtain ⟨memcmp, memcpy, memmove, memset, memchr⟩ := agreement
  rw [target, source] at memcmp memcpy memmove
  rw [target] at memset memchr
  exact ⟨memmove (apart (.inl rfl)), memcpy (apart (.inl rfl)),
    memcmp (apart (.inr rfl)) (apart (.inl rfl)), memset 0xFF, memchr (apart (.inr rfl)) 4⟩

end SimplexMpx
