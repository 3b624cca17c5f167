import SimplexMpx.StringAgreement

/-!
What the string functions compute: moving overlapping regions, searching a byte and comparing two
regions. The contracts are proved of the plain loops and carried over to the functions over bounds
registers, whose fetches change the scratch slot only.
-/

namespace SimplexMpx

open ByteMemory

/-! Moving -/

def Traced.copyPairs (pairs : List (Word × Word)) (state : Traced) : Traced :=
  pairs.foldl (fun state pair =>
    (state.readByte pair.1).2.writeByte pair.2 (state.readByte pair.1).1) state

theorem copyPairs_mem (pairs : List (Word × Word)) (state : Traced) :
    (state.copyPairs pairs).machine.mem = copyInOrder state.machine.mem pairs := by
  induction pairs generalizing state with
  | nil => rfl
  | cons pair rest ih => exact ih _

theorem copyPairs_reads (pairs : List (Word × Word)) (state : Traced) :
    (state.copyPairs pairs).reads = (pairs.map Prod.fst).reverse ++ state.reads := by
  induction pairs generalizing state with
  | nil => rfl
  | cons pair rest ih =>
      have next := ih ((state.readByte pair.1).2.writeByte pair.2 (state.readByte pair.1).1)
      rw [List.map_cons, List.reverse_cons, List.append_assoc]
      exact next

theorem upwards_succ (d s : Word) (count : Nat) :
    upwards d s (count + 1) = (s, d) :: upwards (d + 1) (s + 1) count := by
  rw [upwards, List.range_succ_eq_map, List.map_cons, List.map_map, add_ofNat_zero,
    add_ofNat_zero, upwards]
  congr 1
  apply List.map_congr_left
  intro offset _
  rw [Function.comp, add_ofNat_shift, add_ofNat_shift]

theorem copyLoop_eq (len : Nat) (d s : Word) (state : Traced) :
    copyLoop len d s state = state.copyPairs (upwards d s len) := by
  induction len generalizing d s state with
  | zero => rfl
  | succ len ih =>
      rw [copyLoop, upwards_succ]
      exact ih _ _ _

theorem copyDownLoop_eq (len : Nat) (d s : Word) (state : Traced) :
    copyDownLoop len (d + BitVec.ofNat 64 len - 1) (s + BitVec.ofNat 64 len - 1) state =
      state.copyPairs (upwards d s len).reverse := by
  induction len generalizing state with
  | zero => rfl
  | succ len ih =>
      have last : ∀ base : Word, base + BitVec.ofNat 64 (len + 1) - 1 =
          base + BitVec.ofNat 64 len := by
        intro base
        rw [add_ofNat_succ, add_sub_cancel_right]
      have unrolled : (upwards d s (len + 1)).reverse =
          (s + BitVec.ofNat 64 len, d + BitVec.ofNat 64 len) :: (upwards d s len).reverse := by
        simp [upwards, List.range_succ]
      rw [last, last, unrolled, copyDownLoop]
      exact ih _

/-- `len` bytes moved from `s` to `d`; the bytes of `slot` are excepted. -/
structure Moved (slot : Word → Prop) (d s : Word) (len : Nat) (before after : Traced) : Prop where
  moved : ∀ offset < len, ¬slot (s + BitVec.ofNat 64 offset) → ¬slot (d + BitVec.ofNat 64 offset) →
    after.machine.mem (d + BitVec.ofNat 64 offset) = before.machine.mem (s + BitVec.ofNat 64 offset)
  kept : ∀ address, ¬Within d len address → ¬slot address →
    after.machine.mem address = before.machine.mem address
  reads : ∃ new, after.reads = new ++ before.reads ∧ ∀ address ∈ new, Within s len address

theorem mem_upwards {d s : Word} {count : Nat} {pair : Word × Word} :
    pair ∈ upwards d s count ↔
      ∃ offset < count, (s + BitVec.ofNat 64 offset, d + BitVec.ofNat 64 offset) = pair := by
  simp only [upwards, List.mem_map, List.mem_range]

theorem moved_copyPairs {d s : Word} {len : Nat} (bound : len ≤ 2 ^ 64)
    {pairs : List (Word × Word)} (all : ∀ pair, pair ∈ pairs ↔ pair ∈ upwards d s len)
    (unspoilt : Unspoilt pairs) (state : Traced) :
    Moved (fun _ => False) d s len state (state.copyPairs pairs) := by
  refine ⟨?_, ?_, (pairs.map Prod.fst).reverse, copyPairs_reads pairs state, ?_⟩
  · intro offset inside _ _
    have member := (all _).mpr (mem_upwards.mpr ⟨offset, inside, rfl⟩)
    rw [copyPairs_mem, copyInOrder_copied unspoilt _ member]
  · intro address outside _
    rw [copyPairs_mem]
    apply copyInOrder_outside
    intro pair member same
    obtain ⟨offset, inside, rfl⟩ := mem_upwards.mp ((all _).mp member)
    rw [same] at outside
    exact outside (within_add d inside bound)
  · intro address member
    obtain ⟨pair, inPairs, rfl⟩ := List.mem_map.mp (List.mem_reverse.mp member)
    obtain ⟨offset, inside, rfl⟩ := mem_upwards.mp ((all _).mp inPairs)
    exact within_add s inside bound

theorem moveBody_moved {len d s : Word} (targetFits : d.toNat + len.toNat ≤ 2 ^ 64)
    (sourceFits : s.toNat + len.toNat ≤ 2 ^ 64) (state : Traced) :
    Moved (fun _ => False) d s len.toNat state (moveBody len d s state) := by
  have bound := len.isLt
  have all : ∀ pair, pair ∈ (upwards d s len.toNat).reverse ↔ pair ∈ upwards d s len.toNat :=
    fun pair => List.mem_reverse
  unfold moveBody
  by_cases below : d < s
  · rw [if_pos below, copyLoop_eq]
    have order : d ≤ s := BitVec.le_of_lt below
    exact moved_copyPairs (by omega) (fun _ => Iff.rfl)
      (unspoilt_upwards order targetFits sourceFits) state
  · rw [if_neg below]
    have order : s ≤ d := BitVec.not_lt.mp below
    have ends : ∀ base : Word, base + (len - 1) = base + BitVec.ofNat 64 len.toNat - 1 := by
      intro base
      rw [BitVec.ofNat_toNat, BitVec.setWidth_eq, add_sub_assoc]
    simp only [ends]
    rw [copyDownLoop_eq]
    exact moved_copyPairs (by omega) all (unspoilt_downwards order targetFits sourceFits) state

theorem Moved.around {rsp d s : Word} {len : Nat} {first before after last : Traced}
    (moved : Moved (fun _ => False) d s len before after) (agree : AgreeApart rsp before first)
    (agree' : AgreeApart rsp last after) : Moved (InSlot rsp) d s len first last := by
  obtain ⟨new, read, inside⟩ := moved.reads
  refine ⟨?_, ?_, new, ?_, inside⟩
  · intro offset bound source target
    rw [agree'.mem _ target, moved.moved offset bound not_false not_false, agree.mem _ source]
  · intro address outside apart
    rw [agree'.mem _ apart, moved.kept address outside not_false, agree.mem _ apart]
  · rw [agree'.reads, read, agree.reads]

/-- Neither range wraps; the regions may overlap in any way or be empty. -/
theorem simplexMemmove_moves {state : Traced} {rsp len d s : Word}
    (enabled : state.machine.mpx.Enabled) (target : (state.machine.mpx.bnd .bnd1).lb = d)
    (source : (state.machine.mpx.bnd .bnd2).lb = s) (targetFits : d.toNat + len.toNat ≤ 2 ^ 64)
    (sourceFits : s.toNat + len.toNat ≤ 2 ^ 64) :
    (simplexMemmove rsp len state).1 = d ∧
      Moved (InSlot rsp) d s len.toNat state (simplexMemmove rsp len state).2 := by
  obtain ⟨middle, next, first, second, kept, agree⟩ := fetched_pointers enabled rsp
  rw [target] at first
  rw [source] at second
  have moved := moveBody_moved targetFits sourceFits next
  have still := moveBody_keeps (steady_mpx _) len d s kept
  have same : AgreeApart rsp (moveBody len d s next) (moveBody len d s next) :=
    ⟨fun _ _ => rfl, rfl, rfl⟩
  have reread := sameOutcome_reread enabled still still same
  simp only [simplexMemmove, first, second]
  exact ⟨reread.value.trans target, moved.around agree reread.agree⟩

def overlapping : Traced where
  machine :=
    { mpx := { bnd := fun bnd => if bnd = .bnd1 then ⟨0x2002, 0⟩ else ⟨0x2000, 0⟩
               bndcfgu := 3
               bndstatus := 0 }
      mem := fun address => address.setWidth 8
      stderr := [] }
  reads := []
  writes := []
  fetches := []

theorem simplexMemmove_moves_overlapping :
    (simplexMemmove 0x7000 5 overlapping).1 = 0x2002 ∧
      Moved (InSlot 0x7000) 0x2002 0x2000 5 overlapping
        (simplexMemmove 0x7000 5 overlapping).2 := by
  have fits : (0x2002 : Word).toNat + (5 : Word).toNat ≤ 2 ^ 64 := by decide
  exact simplexMemmove_moves ⟨by decide, by decide⟩ (by decide) (by decide) fits (by decide)

/-! Searching -/

/-- What string.h says of `memchr`: the byte sought is `c` converted to `unsigned char`, nothing
after the first match is read, and only `slot` is written. -/
structure MemchrContract (slot : Word → Prop) (base : Word) (c : BitVec 32) (len : Nat)
    (before : Traced) (outcome : Word × Traced) : Prop where
  found : ∀ index < len, before.machine.mem (base + BitVec.ofNat 64 index) = c.setWidth 8 →
    (∀ earlier < index, before.machine.mem (base + BitVec.ofNat 64 earlier) ≠ c.setWidth 8) →
      outcome.1 = base + BitVec.ofNat 64 index
  missing : (∀ index < len, before.machine.mem (base + BitVec.ofNat 64 index) ≠ c.setWidth 8) →
    outcome.1 = 0
  reads : ∃ new, outcome.2.reads = new ++ before.reads ∧ ∀ address ∈ new, ∃ index < len,
    address = base + BitVec.ofNat 64 index ∧
      ∀ earlier < index, before.machine.mem (base + BitVec.ofNat 64 earlier) ≠ c.setWidth 8
  kept : ∀ address, ¬slot address → outcome.2.machine.mem address = before.machine.mem address

def Hit (memory : Memory 64) (base : Word) (c : BitVec 32) (index : Nat) : Prop :=
  (memory (base + BitVec.ofNat 64 index)).setWidth 32 = c

def Traced.readUpwards (base : Word) (count : Nat) (state : Traced) : Traced :=
  { state with
    reads := ((List.range count).map (base + BitVec.ofNat 64 ·)).reverse ++ state.reads }

theorem readUpwards_succ (base : Word) (count : Nat) (state : Traced) :
    ((state.readByte base).2.readUpwards (base + 1) count) = state.readUpwards base (count + 1) := by
  have moved : (List.range count).map (fun offset => base + 1 + BitVec.ofNat 64 offset) =
      (List.range count).map ((base + BitVec.ofNat 64 ·) ∘ Nat.succ) := by
    apply List.map_congr_left
    intro offset _
    exact (add_ofNat_shift base offset).symm
  simp only [Traced.readUpwards, Traced.readByte]
  rw [List.range_succ_eq_map, List.map_cons, List.map_map, add_ofNat_zero, List.reverse_cons,
    List.append_assoc, moved]
  rfl

theorem hit_succ (memory : Memory 64) (base : Word) (c : BitVec 32) (index : Nat) :
    Hit memory (base + 1) c index ↔ Hit memory base c (index + 1) := by
  rw [Hit, Hit, add_ofNat_shift]

theorem hit_zero (state : Traced) (base : Word) (c : BitVec 32) :
    Hit state.machine.mem base c 0 ↔ (state.readByte base).1.setWidth 32 = c := by
  rw [Hit, add_ofNat_zero, Traced.readByte]

theorem searchLoop_found {c : BitVec 32} {len index : Nat} {base : Word} {state : Traced}
    (inside : index < len) (hit : Hit state.machine.mem base c index)
    (first : ∀ earlier < index, ¬Hit state.machine.mem base c earlier) :
    searchLoop c len base state =
      (base + BitVec.ofNat 64 index, state.readUpwards base (index + 1)) := by
  induction len generalizing base index state with
  | zero => omega
  | succ len ih =>
      simp only [searchLoop]
      cases index with
      | zero =>
          rw [hit_zero] at hit
          rw [if_pos hit, ← readUpwards_succ, add_ofNat_zero]
          rfl
      | succ index =>
          have missed := first 0 (by omega)
          rw [hit_zero] at missed
          rw [if_neg missed, ← readUpwards_succ, add_ofNat_shift]
          refine ih (by omega) ((hit_succ _ _ _ _).mpr hit) ?_
          intro earlier before hitEarlier
          exact first (earlier + 1) (by omega) ((hit_succ _ _ _ _).mp hitEarlier)

theorem searchLoop_missing {c : BitVec 32} {len : Nat} {base : Word} {state : Traced}
    (none : ∀ index < len, ¬Hit state.machine.mem base c index) :
    searchLoop c len base state = (0, state.readUpwards base len) := by
  induction len generalizing base state with
  | zero => rfl
  | succ len ih =>
      have missed := none 0 (by omega)
      rw [hit_zero] at missed
      simp only [searchLoop]
      rw [if_neg missed, ← readUpwards_succ]
      apply ih
      intro index inside hit
      exact none (index + 1) (by omega) ((hit_succ _ _ _ _).mp hit)

/-- A `c` in the range of `unsigned char` is hit exactly by its own byte, any other by none. -/
theorem hit_iff (memory : Memory 64) (base : Word) (c : BitVec 32) (index : Nat) :
    Hit memory base c index ↔
      c.toNat < 256 ∧ memory (base + BitVec.ofNat 64 index) = c.setWidth 8 := by
  rw [Hit]
  generalize memory (base + BitVec.ofNat 64 index) = byte
  bv_omega

theorem least_hit (Property : Nat → Prop) [DecidablePred Property] {len index : Nat}
    (inside : index < len) (holds : Property index) :
    ∃ first < len, Property first ∧ ∀ earlier < first, ¬Property earlier := by
  have some : ∃ index, Property index := ⟨index, holds⟩
  have least := Nat.find_min' some holds
  exact ⟨Nat.find some, by omega, Nat.find_spec some, fun earlier before => Nat.find_min some before⟩

/-- The input on which the plain search meets its contract. -/
def SearchAgrees (memory : Memory 64) (base : Word) (c : BitVec 32) (len : Nat) : Prop :=
  c.toNat < 256 ∨ (∀ index < len, memory (base + BitVec.ofNat 64 index) ≠ c.setWidth 8) ∨
    base = 0 ∧ len = 1

section Contract

variable {base : Word} {c : BitVec 32} {len : Nat} {state : Traced}

theorem contract_found {first : Nat} (narrow : c.toNat < 256) (inside : first < len)
    (matched : state.machine.mem (base + BitVec.ofNat 64 first) = c.setWidth 8)
    (least : ∀ earlier < first,
      state.machine.mem (base + BitVec.ofNat 64 earlier) ≠ c.setWidth 8) :
    MemchrContract (fun _ => False) base c len state (searchLoop c len base state) := by
  have ran : searchLoop c len base state =
      (base + BitVec.ofNat 64 first, state.readUpwards base (first + 1)) := by
    refine searchLoop_found inside ((hit_iff _ _ _ _).mpr ⟨narrow, matched⟩) ?_
    intro earlier before hit
    exact least earlier before ((hit_iff _ _ _ _).mp hit).2
  rw [ran]
  refine ⟨?_, ?_, ⟨_, rfl, ?_⟩, fun _ _ => rfl⟩
  · intro index bound here fresh
    have same : index = first := by
      rcases Nat.lt_trichotomy index first with before | same | after
      · exact absurd here (least index before)
      · exact same
      · exact absurd matched (fresh first after)
    rw [same]
  · intro none
    exact absurd matched (none first inside)
  · intro address member
    simp only [List.mem_reverse, List.mem_map, List.mem_range] at member
    obtain ⟨index, bound, rfl⟩ := member
    exact ⟨index, by omega, rfl, fun earlier before => least earlier (by omega)⟩

theorem contract_missing
    (none : ∀ index < len, state.machine.mem (base + BitVec.ofNat 64 index) ≠ c.setWidth 8) :
    MemchrContract (fun _ => False) base c len state (searchLoop c len base state) := by
  have ran : searchLoop c len base state = (0, state.readUpwards base len) := by
    apply searchLoop_missing
    intro index inside hit
    exact none index inside ((hit_iff _ _ _ _).mp hit).2
  rw [ran]
  refine ⟨?_, fun _ => rfl, ⟨_, rfl, ?_⟩, fun _ _ => rfl⟩
  · intro index inside here
    exact absurd here (none index inside)
  · intro address member
    simp only [List.mem_reverse, List.mem_map, List.mem_range] at member
    obtain ⟨index, inside, rfl⟩ := member
    exact ⟨index, inside, rfl, fun earlier before => none earlier (by omega)⟩

theorem searchLoop_wide (wide : 256 ≤ c.toNat) (base : Word) (len : Nat) (state : Traced) :
    searchLoop c len base state = (0, state.readUpwards base len) := by
  apply searchLoop_missing
  intro index _ hit
  have narrow := ((hit_iff _ _ _ _).mp hit).1
  omega

theorem contract_first_byte (wide : 256 ≤ c.toNat) :
    MemchrContract (fun _ => False) 0 c 1 state (searchLoop c 1 0 state) := by
  rw [searchLoop_wide wide]
  refine ⟨?_, fun _ => rfl, ⟨_, rfl, ?_⟩, fun _ _ => rfl⟩
  · intro index inside _ _
    have only : index = 0 := by omega
    rw [only]
    rfl
  · intro address member
    simp only [List.mem_reverse, List.mem_map, List.mem_range] at member
    obtain ⟨index, inside, rfl⟩ := member
    exact ⟨index, inside, rfl, fun earlier before => by omega⟩

theorem contract_of_wide (fits : base.toNat + len ≤ 2 ^ 64) (wide : 256 ≤ c.toNat) {index : Nat}
    (inside : index < len)
    (matched : state.machine.mem (base + BitVec.ofNat 64 index) = c.setWidth 8)
    (contract : MemchrContract (fun _ => False) base c len state (searchLoop c len base state)) :
    base = 0 ∧ len = 1 := by
  obtain ⟨first, bound, here, least⟩ := least_hit
    (fun index => state.machine.mem (base + BitVec.ofNat 64 index) = c.setWidth 8) inside matched
  rw [searchLoop_wide wide] at contract
  have null : 0 = base + BitVec.ofNat 64 first := contract.found first bound here least
  have start : base = 0 ∧ first = 0 := by
    have numbers := congrArg BitVec.toNat null
    constructor <;> bv_omega
  obtain ⟨rfl, rfl⟩ := start
  refine ⟨rfl, ?_⟩
  by_contra longer
  obtain ⟨new, read, members⟩ := contract.reads
  have same := List.append_cancel_right read
  have second : (0 : Word) + BitVec.ofNat 64 1 ∈ new := by
    rw [← same, List.mem_reverse, List.mem_map]
    exact ⟨1, List.mem_range.mpr (by omega), rfl⟩
  obtain ⟨index, inside, address, none⟩ := members _ second
  have positive : 0 < index := by bv_omega
  exact none 0 positive here

theorem searchLoop_contract_iff (fits : base.toNat + len ≤ 2 ^ 64) :
    MemchrContract (fun _ => False) base c len state (searchLoop c len base state) ↔
      SearchAgrees state.machine.mem base c len := by
  by_cases some : ∃ index < len,
      state.machine.mem (base + BitVec.ofNat 64 index) = c.setWidth 8
  · obtain ⟨index, inside, matched⟩ := some
    by_cases narrow : c.toNat < 256
    · obtain ⟨first, bound, here, least⟩ := least_hit
        (fun index => state.machine.mem (base + BitVec.ofNat 64 index) = c.setWidth 8) inside
        matched
      exact ⟨fun _ => Or.inl narrow, fun _ => contract_found narrow bound here least⟩
    · have wide : 256 ≤ c.toNat := by omega
      constructor
      · intro contract
        exact Or.inr (Or.inr (contract_of_wide fits wide inside matched contract))
      · rintro (impossible | none | ⟨rfl, rfl⟩)
        · exact absurd impossible narrow
        · exact absurd matched (none index inside)
        · exact contract_first_byte wide
  · have none : ∀ index < len,
        state.machine.mem (base + BitVec.ofNat 64 index) ≠ c.setWidth 8 :=
      fun index inside matched => some ⟨index, inside, matched⟩
    exact ⟨fun _ => Or.inr (Or.inl none), fun _ => contract_missing none⟩

theorem searchLoop_mem (c : BitVec 32) (len : Nat) (base : Word) (state : Traced) :
    (searchLoop c len base state).2.machine.mem = state.machine.mem := by
  induction len generalizing base state with
  | zero => rfl
  | succ len ih =>
      simp only [searchLoop]
      split
      · rfl
      · exact ih _ _

theorem memchrContract_of_sameOutcome {rsp : Word} {outcome : Word × Traced}
    (same : SameOutcome rsp state outcome (searchLoop c len base state)) :
    MemchrContract (InSlot rsp) base c len state outcome ↔
      MemchrContract (fun _ => False) base c len state (searchLoop c len base state) := by
  have memory := searchLoop_mem c len base state
  constructor
  · intro contract
    exact ⟨by rw [← same.value]; exact contract.found, by rw [← same.value]; exact contract.missing,
      by rw [← same.agree.reads]; exact contract.reads, fun address _ => by rw [memory]⟩
  · intro contract
    refine ⟨by rw [same.value]; exact contract.found, by rw [same.value]; exact contract.missing,
      by rw [same.agree.reads]; exact contract.reads, ?_⟩
    intro address apart
    rw [same.agree.mem address apart, memory]

end Contract

/-- What the loop of `simplex_memchr` starts from: the fetch has spilled BND1 to its slot. -/
def Traced.spilled (rsp : Word) (state : Traced) : Traced := (state.qgetbndl rsp BND1).2

theorem simplexMemchr_contract_iff {state : Traced} {rsp len : Word}
    (enabled : state.machine.mpx.Enabled)
    (fits : (state.machine.mpx.bnd .bnd1).lb.toNat + len.toNat ≤ 2 ^ 64) (c : BitVec 32) :
    AgreeApart rsp (state.spilled rsp) state ∧
      (MemchrContract (fun _ => False) (state.machine.mpx.bnd .bnd1).lb c len.toNat
          (state.spilled rsp) (simplexMemchr rsp c len state) ↔
        SearchAgrees (state.spilled rsp).machine.mem (state.machine.mpx.bnd .bnd1).lb c
          len.toNat) := by
  obtain ⟨next, called, -, agree⟩ :=
    traced_qgetbndl enabled rsp (show switchReg BND1 = _ from rfl)
  have spilled : state.spilled rsp = next := congrArg Prod.snd called
  have ran : simplexMemchr rsp c len state =
      searchLoop c len.toNat (state.machine.mpx.bnd .bnd1).lb next := by
    simp only [simplexMemchr, called]
  rw [spilled, ran]
  exact ⟨agree, searchLoop_contract_iff fits⟩

/-- Neither search converts `c` to `unsigned char`, so either meets its contract exactly where the
conversion makes no difference. `simplex_memchr` looks at the bytes as its fetch leaves them, which
are the caller's where the region is apart from the slot. -/
theorem memchr_contract_iff (c : BitVec 32) (len : Word) :
    (∀ rsp (state : Traced), state.machine.mpx.Enabled →
      (state.machine.mpx.bnd .bnd1).lb.toNat + len.toNat ≤ 2 ^ 64 →
        AgreeApart rsp (state.spilled rsp) state ∧
          (MemchrContract (fun _ => False) (state.machine.mpx.bnd .bnd1).lb c len.toNat
              (state.spilled rsp) (simplexMemchr rsp c len state) ↔
            SearchAgrees (state.spilled rsp).machine.mem (state.machine.mpx.bnd .bnd1).lb c
              len.toNat)) ∧
      (∀ rsp (state : Traced), state.machine.mpx.Enabled →
        ApartFrom rsp (state.machine.mpx.bnd .bnd1).lb len →
        (state.machine.mpx.bnd .bnd1).lb.toNat + len.toNat ≤ 2 ^ 64 →
          (MemchrContract (InSlot rsp) (state.machine.mpx.bnd .bnd1).lb c len.toNat state
              (simplexMemchr rsp c len state) ↔
            SearchAgrees state.machine.mem (state.machine.mpx.bnd .bnd1).lb c len.toNat)) ∧
      ∀ (base : Word) (state : Traced), base.toNat + len.toNat ≤ 2 ^ 64 →
        (MemchrContract (fun _ => False) base c len.toNat state (libgccMemchr base c len state) ↔
          SearchAgrees state.machine.mem base c len.toNat) := by
  refine ⟨?_, ?_, ?_⟩
  · intro rsp state enabled fits
    exact simplexMemchr_contract_iff enabled fits c
  · intro rsp state enabled apart fits
    have same := simplexMemchr_agrees enabled apart c
    rw [memchrContract_of_sameOutcome same, searchLoop_contract_iff fits]
  · intro base state fits
    exact searchLoop_contract_iff fits

/-- Memory full of `0xff`, as it is read for a search of `(char)-1`. -/
def filledRegion : Traced :=
  { overlapping with machine := { overlapping.machine with mem := fun _ => 0xff } }

theorem filledRegion_apart : ApartFrom 0x7000 0x2002 5 := by
  intro address inside
  simp only [Within, InSlot] at inside ⊢
  bv_omega

/-- The region from `0x6f80` on lies in the slot of the fetch at `0x7000`, and is read there. -/
def regionInSlot : Traced where
  machine :=
    { mpx := { bnd := fun bnd => if bnd = .bnd1 then ⟨0x6f80, 0⟩ else ⟨0x2000, 0⟩
               bndcfgu := 3
               bndstatus := 0 }
      mem := fun _ => 0
      stderr := [] }
  reads := []
  writes := []
  fetches := []

theorem memchr_contract_iff_filledRegion :
    (AgreeApart 0x7000 (regionInSlot.spilled 0x7000) regionInSlot ∧
        (MemchrContract (fun _ => False) 0x6f80 0x6f 5 (regionInSlot.spilled 0x7000)
            (simplexMemchr 0x7000 0x6f 5 regionInSlot) ↔
          SearchAgrees (regionInSlot.spilled 0x7000).machine.mem 0x6f80 0x6f 5)) ∧
      (MemchrContract (InSlot 0x7000) 0x2002 0xff 5 filledRegion
          (simplexMemchr 0x7000 0xff 5 filledRegion) ↔
        SearchAgrees filledRegion.machine.mem 0x2002 0xff 5) ∧
      (MemchrContract (fun _ => False) 0x2002 0xff 5 filledRegion
          (libgccMemchr 0x2002 0xff 5 filledRegion) ↔
        SearchAgrees filledRegion.machine.mem 0x2002 0xff 5) :=
  ⟨(memchr_contract_iff 0x6f 5).1 0x7000 regionInSlot ⟨by decide, by decide⟩ (by decide),
    (memchr_contract_iff 0xff 5).2.1 0x7000 filledRegion ⟨by decide, by decide⟩ filledRegion_apart
      (by decide),
    (memchr_contract_iff 0xff 5).2.2 0x2002 filledRegion (by decide)⟩

theorem filledRegion_missed {slot : Word → Prop} {outcome : Word × Traced} {len : Nat}
    (some : 0 < len) (null : outcome.1 = 0) :
    ¬MemchrContract slot 0x2002 (-1) len filledRegion outcome := by
  intro contract
  have first : outcome.1 = 0x2002 + BitVec.ofNat 64 0 :=
    contract.found 0 some (by decide) (fun earlier before => by omega)
  rw [null] at first
  exact absurd first (by decide)

theorem memchr_misses_negative_char :
    ¬MemchrContract (InSlot 0x7000) 0x2002 (-1) 5 filledRegion
        (simplexMemchr 0x7000 (-1) 5 filledRegion) ∧
      ¬MemchrContract (fun _ => False) 0x2002 (-1) 5 filledRegion
        (libgccMemchr 0x2002 (-1) 5 filledRegion) := by
  have plain : (libgccMemchr 0x2002 (-1) 5 filledRegion).1 = 0 := by decide
  have enabled : filledRegion.machine.mpx.Enabled := ⟨by decide, by decide⟩
  have pointer : (filledRegion.machine.mpx.bnd .bnd1).lb = 0x2002 := by decide
  have apart : ApartFrom 0x7000 (filledRegion.machine.mpx.bnd .bnd1).lb 5 := by
    rw [pointer]
    exact filledRegion_apart
  have same := simplexMemchr_agrees enabled apart (-1)
  rw [pointer] at same
  exact ⟨filledRegion_missed (by decide) (same.value.trans plain),
    filledRegion_missed (by decide) plain⟩

/-! Comparing -/

theorem compareLoop_mem (count : Nat) (s1 s2 : Word) (state : Traced) :
    (compareLoop count s1 s2 state).2.machine.mem = state.machine.mem := by
  induction count generalizing s1 s2 state with
  | zero => rfl
  | succ count ih =>
      simp only [compareLoop]
      split
      · rfl
      · exact ih _ _ _

@[simp] theorem readByte_value (address : Word) (state : Traced) :
    (state.readByte address).1 = state.machine.mem address := rfl

@[simp] theorem readByte_machine (address : Word) (state : Traced) :
    (state.readByte address).2.machine = state.machine := rfl

theorem compareLoop_lexicographic (count : Nat) (s1 s2 : Word) (state : Traced) :
    (compareLoop count s1 s2 state).1 =
      orderSign (bytesAt state.machine.mem s1 count) (bytesAt state.machine.mem s2 count) := by
  induction count generalizing s1 s2 state with
  | zero => exact (orderSign_self _).symm
  | succ count ih =>
      simp only [compareLoop, bytesAt, add_sub_cancel_right, readByte_value, readByte_machine]
      by_cases differ : state.machine.mem s1 ≠ state.machine.mem s2
      · have numbers : (state.machine.mem s1).toNat ≠ (state.machine.mem s2).toNat :=
          fun same => differ (BitVec.eq_of_toNat_eq same)
        rw [if_pos differ, orderSign_cons_of_ne numbers]
        rfl
      · have same : state.machine.mem s1 = state.machine.mem s2 := not_not.mp differ
        rw [if_neg differ, ih, same, orderSign_cons_self]
        rfl

theorem compareLoop_differ {count index : Nat} {s1 s2 : Word} {state : Traced}
    (inside : index < count)
    (same : ∀ earlier < index, state.machine.mem (s1 + BitVec.ofNat 64 earlier) =
      state.machine.mem (s2 + BitVec.ofNat 64 earlier))
    (differ : state.machine.mem (s1 + BitVec.ofNat 64 index) ≠
      state.machine.mem (s2 + BitVec.ofNat 64 index)) :
    (compareLoop count s1 s2 state).1 =
      if (state.machine.mem (s1 + BitVec.ofNat 64 index)).toNat <
        (state.machine.mem (s2 + BitVec.ofNat 64 index)).toNat then -1 else 1 := by
  induction count generalizing index s1 s2 state with
  | zero => omega
  | succ count ih =>
      simp only [compareLoop, add_sub_cancel_right, readByte_value, readByte_machine]
      cases index with
      | zero =>
          rw [add_ofNat_zero, add_ofNat_zero] at differ ⊢
          rw [if_pos differ]
          rfl
      | succ index =>
          have head := same 0 (by omega)
          rw [add_ofNat_zero, add_ofNat_zero] at head
          rw [if_neg (not_not.mpr head)]
          rw [add_ofNat_shift, add_ofNat_shift] at differ ⊢
          refine ih (by omega) ?_ differ
          intro earlier before
          have next := same (earlier + 1) (by omega)
          rwa [add_ofNat_shift, add_ofNat_shift] at next

theorem compareLoop_reads (count : Nat) (s1 s2 : Word) (state : Traced) :
    ∃ new, (compareLoop count s1 s2 state).2.reads = new ++ state.reads ∧ ∀ address ∈ new,
      ∃ index < count, (address = s1 + BitVec.ofNat 64 index ∨
        address = s2 + BitVec.ofNat 64 index) ∧
        ∀ earlier < index, state.machine.mem (s1 + BitVec.ofNat 64 earlier) =
          state.machine.mem (s2 + BitVec.ofNat 64 earlier) := by
  induction count generalizing s1 s2 state with
  | zero => exact ⟨[], rfl, fun address member => absurd member List.not_mem_nil⟩
  | succ count ih =>
      simp only [compareLoop, add_sub_cancel_right, readByte_value, readByte_machine]
      by_cases differ : state.machine.mem s1 ≠ state.machine.mem s2
      · rw [if_pos differ]
        refine ⟨[s2, s1, s2, s1], rfl, ?_⟩
        intro address member
        refine ⟨0, by omega, ?_, fun earlier before => by omega⟩
        rw [add_ofNat_zero, add_ofNat_zero]
        simp only [List.mem_cons, List.not_mem_nil, or_false] at member
        rcases member with second | first | second | first
        · exact Or.inr second
        · exact Or.inl first
        · exact Or.inr second
        · exact Or.inl first
      · rw [if_neg differ]
        obtain ⟨new, read, inside⟩ := ih (s1 + 1) (s2 + 1) ((state.readByte s1).2.readByte s2).2
        refine ⟨new ++ [s2, s1], by rw [read, List.append_assoc]; rfl, ?_⟩
        intro address member
        rcases List.mem_append.mp member with later | now
        · obtain ⟨index, bound, here, same⟩ := inside address later
          rw [← add_ofNat_shift, ← add_ofNat_shift] at here
          refine ⟨index + 1, by omega, here, ?_⟩
          intro earlier before
          cases earlier with
          | zero =>
              rw [add_ofNat_zero, add_ofNat_zero]
              exact not_not.mp differ
          | succ earlier =>
              rw [add_ofNat_shift, add_ofNat_shift]
              exact same earlier (by omega)
        · refine ⟨0, by omega, ?_, fun earlier before => by omega⟩
          rw [add_ofNat_zero, add_ofNat_zero]
          simp only [List.mem_cons, List.not_mem_nil, or_false] at now
          exact now.symm

/-- The comparison of the `len` bytes at `p1` and `p2`; only `slot` is written. -/
structure MemcmpContract (slot : Word → Prop) (p1 p2 : Word) (len : Nat) (before : Traced)
    (outcome : Int × Traced) : Prop where
  equal : (∀ index < len, before.machine.mem (p1 + BitVec.ofNat 64 index) =
    before.machine.mem (p2 + BitVec.ofNat 64 index)) → outcome.1 = 0
  differ : ∀ index < len, (∀ earlier < index,
      before.machine.mem (p1 + BitVec.ofNat 64 earlier) =
        before.machine.mem (p2 + BitVec.ofNat 64 earlier)) →
    before.machine.mem (p1 + BitVec.ofNat 64 index) ≠
        before.machine.mem (p2 + BitVec.ofNat 64 index) →
      outcome.1 = if (before.machine.mem (p1 + BitVec.ofNat 64 index)).toNat <
        (before.machine.mem (p2 + BitVec.ofNat 64 index)).toNat then -1 else 1
  lexicographic : outcome.1 =
    orderSign (bytesAt before.machine.mem p1 len) (bytesAt before.machine.mem p2 len)
  reads : ∃ new, outcome.2.reads = new ++ before.reads ∧ ∀ address ∈ new, ∃ index < len,
    (address = p1 + BitVec.ofNat 64 index ∨ address = p2 + BitVec.ofNat 64 index) ∧
      ∀ earlier < index, before.machine.mem (p1 + BitVec.ofNat 64 earlier) =
        before.machine.mem (p2 + BitVec.ofNat 64 earlier)
  kept : ∀ address, ¬slot address → outcome.2.machine.mem address = before.machine.mem address

theorem compareLoop_contract (count : Nat) (s1 s2 : Word) (state : Traced) :
    MemcmpContract (fun _ => False) s1 s2 count state (compareLoop count s1 s2 state) where
  equal same := by
    rw [compareLoop_lexicographic, bytesAt_congr same, orderSign_self]
  differ _ inside same different := compareLoop_differ inside same different
  lexicographic := compareLoop_lexicographic count s1 s2 state
  reads := compareLoop_reads count s1 s2 state
  kept _ _ := by rw [compareLoop_mem]

def Traced.holding (first second : BndPair) (state : Traced) : Traced :=
  { state with machine := (state.machine.setBnd .bnd1 first).setBnd .bnd2 second }

theorem simplexMemcmp_contract {rsp count : Word} {state : Traced}
    (enabled : state.machine.mpx.Enabled)
    (apart1 : ApartFrom rsp (state.machine.mpx.bnd .bnd1).lb count)
    (apart2 : ApartFrom rsp (state.machine.mpx.bnd .bnd2).lb count) :
    MemcmpContract (InSlot rsp) (state.machine.mpx.bnd .bnd1).lb (state.machine.mpx.bnd .bnd2).lb
      count.toNat state (simplexMemcmp rsp count state) := by
  have same := simplexMemcmp_agrees enabled apart1 apart2
  have plain : MemcmpContract (fun _ => False) _ _ count.toNat state
      (libgccMemcmp (state.machine.mpx.bnd .bnd1).lb (state.machine.mpx.bnd .bnd2).lb count state) :=
    compareLoop_contract _ _ _ _
  refine ⟨by rw [same.value]; exact plain.equal, by rw [same.value]; exact plain.differ,
    by rw [same.value]; exact plain.lexicographic, by rw [same.agree.reads]; exact plain.reads, ?_⟩
  intro address apart
  rw [same.agree.mem address apart, plain.kept address not_false]

/-- Comparing is the lexicographic order on unsigned bytes: exchanging the registers negates the
result, and a result of at most zero is transitive over three regions. -/
theorem simplexMemcmp_lexicographic {rsp count : Word} {state : Traced}
    (enabled : state.machine.mpx.Enabled) {x y z : BndPair} (apartX : ApartFrom rsp x.lb count)
    (apartY : ApartFrom rsp y.lb count) (apartZ : ApartFrom rsp z.lb count) :
    MemcmpContract (InSlot rsp) x.lb y.lb count.toNat (state.holding x y)
        (simplexMemcmp rsp count (state.holding x y)) ∧
      (simplexMemcmp rsp count (state.holding y x)).1 =
        -(simplexMemcmp rsp count (state.holding x y)).1 ∧
      ((simplexMemcmp rsp count (state.holding x y)).1 ≤ 0 →
        (simplexMemcmp rsp count (state.holding y z)).1 ≤ 0 →
          (simplexMemcmp rsp count (state.holding x z)).1 ≤ 0) := by
  have contract : ∀ {u v : BndPair}, ApartFrom rsp u.lb count → ApartFrom rsp v.lb count →
      MemcmpContract (InSlot rsp) u.lb v.lb count.toNat (state.holding u v)
        (simplexMemcmp rsp count (state.holding u v)) :=
    fun {u v} apart1 apart2 =>
      have ready : (state.holding u v).machine.mpx.Enabled := enabled
      simplexMemcmp_contract ready apart1 apart2
  have value : ∀ {u v : BndPair}, ApartFrom rsp u.lb count → ApartFrom rsp v.lb count →
      (simplexMemcmp rsp count (state.holding u v)).1 =
        orderSign (bytesAt state.machine.mem u.lb count.toNat)
          (bytesAt state.machine.mem v.lb count.toNat) :=
    fun apart1 apart2 => (contract apart1 apart2).lexicographic
  refine ⟨contract apartX apartY, ?_, ?_⟩
  · rw [value apartY apartX, value apartX apartY, orderSign_swap]
  · rw [value apartX apartY, value apartY apartZ, value apartX apartZ, orderSign_nonpos,
      orderSign_nonpos, orderSign_nonpos]
    exact le_trans

/-- Both regions are zero, but the first lies in the slot and is read after the spill. -/
theorem simplexMemcmp_sees_spill :
    (∀ index < (8 : Word).toNat, regionInSlot.machine.mem (0x6f80 + BitVec.ofNat 64 index) =
        regionInSlot.machine.mem (0x2000 + BitVec.ofNat 64 index)) ∧
      (simplexMemcmp 0x7000 8 regionInSlot).1 = 1 ∧
      ¬MemcmpContract (InSlot 0x7000) 0x6f80 0x2000 (8 : Word).toNat regionInSlot
        (simplexMemcmp 0x7000 8 regionInSlot) := by
  have equal : ∀ index < (8 : Word).toNat,
      regionInSlot.machine.mem (0x6f80 + BitVec.ofNat 64 index) =
        regionInSlot.machine.mem (0x2000 + BitVec.ofNat 64 index) := fun _ _ => rfl
  have different : (simplexMemcmp 0x7000 8 regionInSlot).1 = 1 := by decide +kernel
  refine ⟨equal, different, ?_⟩
  intro contract
  have zero := contract.equal equal
  rw [different] at zero
  contradiction

theorem simplexMemcmp_lexicographic_overlapping :
    MemcmpContract (InSlot 0x7000) 0x2000 0x2002 (5 : Word).toNat
        (overlapping.holding ⟨0x2000, 0⟩ ⟨0x2002, 0⟩)
        (simplexMemcmp 0x7000 5 (overlapping.holding ⟨0x2000, 0⟩ ⟨0x2002, 0⟩)) ∧
      (simplexMemcmp 0x7000 5 (overlapping.holding ⟨0x2002, 0⟩ ⟨0x2000, 0⟩)).1 =
        -(simplexMemcmp 0x7000 5 (overlapping.holding ⟨0x2000, 0⟩ ⟨0x2002, 0⟩)).1 ∧
      ((simplexMemcmp 0x7000 5 (overlapping.holding ⟨0x2000, 0⟩ ⟨0x2002, 0⟩)).1 ≤ 0 →
        (simplexMemcmp 0x7000 5 (overlapping.holding ⟨0x2002, 0⟩ ⟨0x2004, 0⟩)).1 ≤ 0 →
          (simplexMemcmp 0x7000 5 (overlapping.holding ⟨0x2000, 0⟩ ⟨0x2004, 0⟩)).1 ≤ 0) := by
  have apart : ∀ base : Word, base = 0x2000 ∨ base = 0x2002 ∨ base = 0x2004 →
      ApartFrom 0x7000 base 5 := by
    intro base choice address inside
    simp only [Within, InSlot] at inside ⊢
    rcases choice with rfl | rfl | rfl <;> bv_omega
  have enabled : overlapping.machine.mpx.Enabled := ⟨by decide, by decide⟩
  exact @simplexMemcmp_lexicographic 0x7000 5 overlapping enabled ⟨0x2000, 0⟩ ⟨0x2002, 0⟩
    ⟨0x2004, 0⟩ (apart 0x2000 (by decide)) (apart 0x2002 (by decide)) (apart 0x2004 (by decide))

end SimplexMpx
