import SimplexMpx.StringFixture

/-!
What a benchmark of `StringFixture` measures. Every round does the work of the first, also where the
buffers change in between; on the buffers `SetUp` prepares the two searching benchmarks read as far as
the corrupted byte and the terminator let them.
-/

namespace SimplexMpx

open ByteMemory

theorem copyPairs_writes (pairs : List (Word × Word)) (state : Traced) :
    (state.copyPairs pairs).writes = (pairs.map Prod.snd).reverse ++ state.writes := by
  induction pairs generalizing state with
  | nil => rfl
  | cons pair rest ih =>
      have next := ih ((state.readByte pair.1).2.writeByte pair.2 (state.readByte pair.1).1)
      rw [List.map_cons, List.reverse_cons, List.append_assoc]
      exact next

theorem moveBody_pairs (len d s : Word) :
    ∃ pairs, ∀ state, moveBody len d s state = state.copyPairs pairs := by
  by_cases below : d < s
  · refine ⟨upwards d s len.toNat, fun state => ?_⟩
    rw [moveBody, if_pos below]
    exact copyLoop_eq len.toNat d s state
  · refine ⟨(upwards d s len.toNat).reverse, fun state => ?_⟩
    have last : ∀ base : Word, base + (len - 1) = base + BitVec.ofNat 64 len.toNat - 1 := by
      intro base
      rw [BitVec.ofNat_toNat, BitVec.setWidth_eq]
      bv_omega
    rw [moveBody, if_neg below]
    simp only [last]
    exact copyDownLoop_eq len.toNat d s state

/-! The length of a comparison -/

theorem compareLoop_length_equal {count : Nat} {s1 s2 : Word} {state : Traced}
    (same : ∀ index < count, state.machine.mem (s1 + BitVec.ofNat 64 index) =
      state.machine.mem (s2 + BitVec.ofNat 64 index)) :
    (compareLoop count s1 s2 state).2.reads.length = state.reads.length + 2 * count := by
  induction count generalizing s1 s2 state with
  | zero => rfl
  | succ count ih =>
      have head := same 0 (by omega)
      rw [add_ofNat_zero, add_ofNat_zero] at head
      simp only [compareLoop, add_sub_cancel_right, readByte_value, readByte_machine]
      rw [if_neg (not_not.mpr head), ih]
      · simp only [Traced.readByte, List.length_cons]
        omega
      · intro index before
        have next := same (index + 1) (by omega)
        rwa [add_ofNat_shift, add_ofNat_shift] at next

theorem compareLoop_length_differ {count index : Nat} {s1 s2 : Word} {state : Traced}
    (inside : index < count)
    (same : ∀ earlier < index, state.machine.mem (s1 + BitVec.ofNat 64 earlier) =
      state.machine.mem (s2 + BitVec.ofNat 64 earlier))
    (differ : state.machine.mem (s1 + BitVec.ofNat 64 index) ≠
      state.machine.mem (s2 + BitVec.ofNat 64 index)) :
    (compareLoop count s1 s2 state).2.reads.length = state.reads.length + 2 * index + 4 := by
  induction count generalizing index s1 s2 state with
  | zero => omega
  | succ count ih =>
      simp only [compareLoop, add_sub_cancel_right, readByte_value, readByte_machine]
      cases index with
      | zero =>
          rw [add_ofNat_zero, add_ofNat_zero] at differ
          rw [if_pos differ]
          rfl
      | succ index =>
          have head := same 0 (by omega)
          rw [add_ofNat_zero, add_ofNat_zero] at head
          rw [add_ofNat_shift, add_ofNat_shift] at differ
          rw [if_neg (not_not.mpr head)]
          refine (@ih index (s1 + 1) (s2 + 1) ((state.readByte s1).2.readByte s2).2 (by omega)
            (fun earlier before => ?_) differ).trans ?_
          · have next := same (earlier + 1) (by omega)
            rwa [add_ofNat_shift, add_ofNat_shift] at next
          · simp only [Traced.readByte, List.length_cons]
            omega

theorem compareLoop_writes (count : Nat) (s1 s2 : Word) (state : Traced) :
    (compareLoop count s1 s2 state).2.writes = state.writes := by
  induction count generalizing s1 s2 state with
  | zero => rfl
  | succ count ih =>
      simp only [compareLoop]
      split
      · rfl
      · exact ih _ _ _

namespace StringFixture

/-! Rounds that repeat -/

section Repeat

variable {benchmark : LibgccBenchmark} {sz s1 s2 : Word}

theorem libgccBody_work (env : Environment FixtureCall) (benchmark : LibgccBenchmark)
    (sz s1 s2 : Word) (client : Client FixtureCall) :
    (libgccBody env benchmark sz s1 s2 client).stringWork env
        (fun _ => libgccCall benchmark sz s1 s2) =
      client.stringWork env fun _ => libgccCall benchmark sz s1 s2 := by
  have reading : (libgccBody env benchmark sz s1 s2 client).machine.mem = client.machine.mem →
      (libgccBody env benchmark sz s1 s2 client).stringWork env
          (fun _ => libgccCall benchmark sz s1 s2) =
        client.stringWork env fun _ => libgccCall benchmark sz s1 s2 := by
    intro memory
    generalize libgccBody env benchmark sz s1 s2 client = after at memory ⊢
    have agree : AgreeOutside (fun _ => False) ⟨after.machine.nearBranch, [], [], []⟩
        ⟨client.machine.nearBranch, [], [], []⟩ := by
      refine ⟨fun address _ => ?_, rfl, rfl⟩
      simp only [Machine.nearBranch_mem, memory]
    have same := @libgccCall_agree (fun _ => False) sz s1 s2 _ _ benchmark
      (fun _ _ => not_false) agree
    simp only [Client.stringWork, same.value, same.agree.reads, same.agree.writes]
  cases benchmark with
  | libgccMemcmp =>
      refine reading ((Machine.nearBranch_mem _).trans ?_)
      exact (compareLoop_mem _ _ _ _).trans (Machine.nearBranch_mem _)
  | libgccMemchr =>
      refine reading ((Machine.nearBranch_mem _).trans ?_)
      exact (searchLoop_mem _ _ _ _).trans (Machine.nearBranch_mem _)
  | libgccMemcpy =>
      simp only [Client.stringWork, libgccCall, libgccMemcpy, Prod.map, copyLoop_eq, id,
        copyPairs_reads, copyPairs_writes]
  | libgccMemmove =>
      obtain ⟨pairs, moves⟩ := moveBody_pairs (sz / 2) s1 (s1 + sz / 4 + 1)
      simp only [Client.stringWork, libgccCall, libgccMemmove, Prod.map, moves, id,
        copyPairs_reads, copyPairs_writes]
  | libgccMemset =>
      have agree : AgreeOutside (fun _ => True)
          ⟨(libgccBody env .libgccMemset sz s1 s2 client).machine.nearBranch, [], [], []⟩
          ⟨client.machine.nearBranch, [], [], []⟩ :=
        ⟨fun _ outside => absurd trivial outside, rfl, rfl⟩
      have looped := @setLoop_agree _ 0x43 sz.toNat s1 _ _ agree
      simp only [Client.stringWork, libgccCall, libgccMemset, Prod.map, id, looped.reads,
        looped.writes]

theorem libgccWork_repeats (env : Environment FixtureCall) (benchmark : LibgccBenchmark)
    (sz s1 s2 : Word) (iterations : Nat) (client : Client FixtureCall) :
    libgccWork env benchmark sz s1 s2 iterations client =
      List.replicate iterations (client.stringWork env fun _ => libgccCall benchmark sz s1 s2) := by
  induction iterations generalizing client with
  | zero => rfl
  | succ iterations ih => rw [libgccWork, ih, libgccBody_work, List.replicate_succ]

section SetUp

variable {env : Environment FixtureCall} {client ready : Client FixtureCall}
  (found : Detected env.platform) (set : setUp env client = .ok ((s1, s2), ready))
  (apart : ∀ address, Used s1 s2 sz address → ¬env.Spills address)

include found set apart

/-- The rounds of a benchmark are measurements of the same work: each returns the value of the first
and accesses the same bytes in the same order. -/
theorem rounds_repeat (benchmark : LibgccBenchmark) (iterations : Nat) :
    let once := ready.stringWork env fun _ => libgccCall benchmark sz s1 s2
    simplexWork env benchmark.counterpart sz s1 iterations ready = List.replicate iterations once ∧
      libgccWork env benchmark sz s1 s2 iterations ready = List.replicate iterations once := by
  have plain := libgccWork_repeats env benchmark sz s1 s2 iterations ready
  have alike := (rounds_abreast apart iterations (setUp_abreast found set benchmark)).1
  exact ⟨alike.trans plain, plain⟩

theorem rounds_once {benchmark : LibgccBenchmark} {iterations : Nat} {work : StringWork}
    (member : work ∈ simplexWork env benchmark.counterpart sz s1 iterations ready ++
      libgccWork env benchmark sz s1 s2 iterations ready) :
    work = ready.stringWork env fun _ => libgccCall benchmark sz s1 s2 := by
  have plain := libgccWork_repeats env benchmark sz s1 s2 iterations ready
  have alike := (rounds_abreast apart iterations (setUp_abreast found set benchmark)).1
  rw [alike, plain, List.mem_append, or_self] at member
  exact List.eq_of_mem_replicate member

end SetUp

theorem rounds_repeat_fixedHeap :
    ∃ ready work, setUp (fixedHeap.withBuffers fun _ => 7) freshClient =
        .ok ((0x10000000, 0x20000000), ready) ∧
      simplexWork (fixedHeap.withBuffers fun _ => 7) .simplexMemmove 4096 0x10000000 10000 ready =
        List.replicate 10000 work := by
  obtain ⟨ready, set⟩ := fixedHeap_setUp fun _ => 7
  exact ⟨ready, _, set, (rounds_repeat capablePlatform_capable.detected set
    (fun _ => fixedHeap_unspilled _) .libgccMemmove 10000).1⟩

end Repeat

/-! The buffers of the set up -/

section Prepared

variable {rand : Nat → BitVec 31} {sz s1 s2 : Word} {index : Nat} {client : Client FixtureCall}

/-- The corrupted byte of `s2` is above the one of `s1`, whatever is drawn. -/
theorem filledByte_below (offset : Nat) :
    (filledByte rand offset).toNat < (~~~filledByte rand offset).toNat := by
  have small : (filledByte rand offset).toNat ≤ 127 := by
    unfold filledByte
    split_ifs
    · decide
    · exact (randomChar_range _).2
  rw [BitVec.toNat_not]
  omega

theorem memcmp_once {env : Environment FixtureCall}
    (filled : FilledPair rand s1 s2 index client.machine.mem) (fits : sz ≤ 4 * MB) :
    let work := client.stringWork env fun _ => libgccCall .libgccMemcmp sz s1 s2
    work.writes = [] ∧
      if index < sz.toNat then work.value = .order (-1) ∧ work.reads.length = 2 * index + 4
      else work.value = .order 0 ∧ work.reads.length = 2 * sz.toNat := by
  have covers : sz.toNat ≤ (4 * MB).toNat := fits
  have memory : client.machine.nearBranch.mem = client.machine.mem := Machine.nearBranch_mem _
  simp only [Client.stringWork, libgccCall, libgccMemcmp, Prod.map, id]
  refine ⟨compareLoop_writes _ _ _ _, ?_⟩
  have same : ∀ offset < sz.toNat, offset ≠ index →
      client.machine.nearBranch.mem (s1 + BitVec.ofNat 64 offset) =
        client.machine.nearBranch.mem (s2 + BitVec.ofNat 64 offset) := by
    intro offset inside spared
    rw [memory]
    by_contra differ
    exact spared ((filled.differ (by omega)).mp differ)
  split_ifs with inside
  · have before : ∀ earlier < index,
        client.machine.nearBranch.mem (s1 + BitVec.ofNat 64 earlier) =
          client.machine.nearBranch.mem (s2 + BitVec.ofNat 64 earlier) :=
      fun earlier early => same earlier (by omega) (by omega)
    have differ : client.machine.nearBranch.mem (s1 + BitVec.ofNat 64 index) ≠
        client.machine.nearBranch.mem (s2 + BitVec.ofNat 64 index) := by
      rw [memory]
      exact (filled.differ (by omega)).mpr rfl
    have below : (client.machine.nearBranch.mem (s1 + BitVec.ofNat 64 index)).toNat <
        (client.machine.nearBranch.mem (s2 + BitVec.ofNat 64 index)).toNat := by
      rw [memory, (filled index (by omega)).1, (filled index (by omega)).2, if_pos rfl]
      exact filledByte_below index
    refine ⟨congrArg StringValue.order ?_, ?_⟩
    · exact (compareLoop_differ inside before differ).trans (if_pos below)
    · have counted := @compareLoop_length_differ sz.toNat index s1 s2
        ⟨client.machine.nearBranch, [], [], []⟩ inside before differ
      simpa using counted
  · have all : ∀ offset < sz.toNat,
        client.machine.nearBranch.mem (s1 + BitVec.ofNat 64 offset) =
          client.machine.nearBranch.mem (s2 + BitVec.ofNat 64 offset) :=
      fun offset before => same offset before (by omega)
    refine ⟨congrArg StringValue.order ?_, ?_⟩
    · rw [compareLoop_lexicographic, bytesAt_congr all, orderSign_self]
    · have counted := @compareLoop_length_equal sz.toNat s1 s2
        ⟨client.machine.nearBranch, [], [], []⟩ all
      simpa using counted

theorem memchr_once {env : Environment FixtureCall}
    (filled : FilledPair rand s1 s2 index client.machine.mem) (fits : sz < 4 * MB) :
    client.stringWork env (fun _ => libgccCall .libgccMemchr sz s1 s2) =
      { value := .pointer 0
        reads := ((List.range sz.toNat).map (s1 + BitVec.ofNat 64 ·)).reverse
        writes := [] } := by
  have covers : sz.toNat < (4 * MB).toNat := fits
  have missing : ∀ offset < sz.toNat, ¬Hit client.machine.nearBranch.mem s1 0 offset := by
    intro offset inside hit
    rw [Machine.nearBranch_mem] at hit
    exact filled.unbroken (by simp) (by omega) ((hit_iff _ _ _ _).mp hit).2
  have ran := @searchLoop_missing 0 sz.toNat s1 ⟨client.machine.nearBranch, [], [], []⟩ missing
  simp only [Client.stringWork, libgccCall, libgccMemchr, Prod.map, id, ran, Traced.readUpwards,
    List.append_nil]

variable {env : Environment FixtureCall} {ready : Client FixtureCall}
  (found : Detected env.platform)
  (set : setUp (env.withBuffers rand) client = .ok ((s1, s2), ready))
  (present1 : s1 ≠ 0) (present2 : s2 ≠ 0)
  (disjoint : ∀ address, Within s2 (4 * MB).toNat address → ¬Within s1 (4 * MB).toNat address)
  (image : ∀ address, Within env.buffer 4096 address →
    ¬Within s1 (4 * MB).toNat address ∧ ¬Within s2 (4 * MB).toNat address)
  (apart : ∀ address, Used s1 s2 sz address → ¬env.Spills address)

include found set present1 present2 disjoint image apart

end Prepared

end StringFixture

end SimplexMpx
