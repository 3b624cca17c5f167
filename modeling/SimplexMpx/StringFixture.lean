import SimplexMpx.Fixtures

/-!
Whole runs of the benchmarks of `StringFixture`: the one that passes its buffers in bounds registers
and the plain one do the same work in every round, and all of it inside the two buffers.
-/

namespace SimplexMpx

open ByteMemory

theorem AgreeOutside.trans {hidden : Word → Prop} {state state' state'' : Traced}
    (first : AgreeOutside hidden state state') (second : AgreeOutside hidden state' state'') :
    AgreeOutside hidden state state'' :=
  ⟨fun address apart => (first.mem address apart).trans (second.mem address apart),
    first.reads.trans second.reads, first.writes.trans second.writes⟩

theorem AgreeOutside.mono {hidden more : Word → Prop} {state state' : Traced}
    (agree : AgreeOutside hidden state state') (covers : ∀ address, hidden address → more address) :
    AgreeOutside more state state' :=
  ⟨fun address apart => agree.mem address fun inside => apart (covers address inside),
    agree.reads, agree.writes⟩

/-- The bytes any of the fetches of a client spills to. -/
def Environment.Spills {Foreign : Type} (env : Environment Foreign) (address : Word) : Prop :=
  ∃ n, InSlot (env.rsp n) address

namespace StringFixture

def Used (s1 s2 sz address : Word) : Prop :=
  Within s1 sz.toNat address ∨ Within s2 sz.toNat address

theorem moved_within {s1 sz address : Word}
    (inside : Within (s1 + sz / 4 + 1) (sz / 2).toNat address) : Within s1 sz.toNat address := by
  have bound := sz.isLt
  have half : (sz / 2).toNat = sz.toNat / 2 := BitVec.toNat_udiv
  rw [half] at inside
  obtain ⟨offset, before, rfl⟩ := (within_iff_offset (by omega)).mp inside
  have quarter : sz / 4 = BitVec.ofNat 64 (sz.toNat / 4) := by
    apply BitVec.eq_of_toNat_eq
    rw [BitVec.toNat_ofNat, Nat.mod_eq_of_lt (by omega)]
    exact BitVec.toNat_udiv
  have position : s1 + sz / 4 + 1 + BitVec.ofNat 64 offset =
      s1 + BitVec.ofNat 64 (sz.toNat / 4 + 1 + offset) := by
    rw [quarter, BitVec.ofNat_add, BitVec.ofNat_add, ← add_assoc, ← add_assoc]
    rfl
  rw [position]
  exact within_add s1 (by omega) (by omega)

theorem half_within {s1 sz address : Word} (inside : Within s1 (sz / 2).toNat address) :
    Within s1 sz.toNat address := by
  have half : (sz / 2).toNat = sz.toNat / 2 := BitVec.toNat_udiv
  exact inside.mono (by omega)

/-! Plain functions over memories that differ where they do not look -/

structure SameResult (hidden : Word → Prop) (outcome outcome' : StringValue × Traced) : Prop where
  value : outcome.1 = outcome'.1
  agree : AgreeOutside hidden outcome.2 outcome'.2

section Plain

variable {hidden : Word → Prop} {sz s1 s2 : Word} {state state' : Traced}

theorem used_first (apart : ∀ address, Used s1 s2 sz address → ¬hidden address) :
    ∀ offset < sz.toNat, ¬hidden (s1 + BitVec.ofNat 64 offset) := by
  have bound := sz.isLt
  intro offset inside
  exact apart _ (.inl (within_add s1 inside (by omega)))

theorem used_second (apart : ∀ address, Used s1 s2 sz address → ¬hidden address) :
    ∀ offset < sz.toNat, ¬hidden (s2 + BitVec.ofNat 64 offset) := by
  have bound := sz.isLt
  intro offset inside
  exact apart _ (.inr (within_add s2 inside (by omega)))

theorem libgccCall_agree (benchmark : LibgccBenchmark)
    (apart : ∀ address, Used s1 s2 sz address → ¬hidden address)
    (agree : AgreeOutside hidden state state') :
    SameResult hidden (libgccCall benchmark sz s1 s2 state)
      (libgccCall benchmark sz s1 s2 state') := by
  have first := used_first apart
  have second := used_second apart
  cases benchmark with
  | libgccMemcmp =>
      have looped := compareLoop_agree first second agree
      exact ⟨congrArg StringValue.order looped.1, looped.2⟩
  | libgccMemcpy => exact ⟨rfl, copyLoop_agree second agree⟩
  | libgccMemmove =>
      refine ⟨rfl, moveBody_agree ?_ agree⟩
      intro address inside
      exact apart address (.inl (moved_within inside))
  | libgccMemset => exact ⟨rfl, setLoop_agree agree⟩
  | libgccMemchr =>
      have looped := searchLoop_agree 0 first agree
      exact ⟨congrArg StringValue.pointer looped.1, looped.2⟩

end Plain

/-! One round -/

structure Aimed (benchmark : LibgccBenchmark) (sz s1 s2 : Word) (mpx : MpxState) : Prop where
  enabled : mpx.Enabled
  first : (mpx.bnd .bnd1).lb = s1
  second : (mpx.bnd .bnd2).lb = if benchmark = .libgccMemmove then s1 + sz / 4 + 1 else s2

section Round

variable {benchmark : LibgccBenchmark} {hidden : Word → Prop} {sz s1 s2 rsp : Word}
  {state state' : Traced}

theorem sameResult_of_outcome {α : Type} (wrap : α → StringValue) {initial : Traced}
    {outcome outcome' : α × Traced} (covers : ∀ address, InSlot rsp address → hidden address)
    (same : SameOutcome rsp initial outcome outcome') :
    SameResult hidden (outcome.map wrap id) (outcome'.map wrap id) ∧
      (outcome.map wrap id).2.machine.mpx = initial.machine.mpx :=
  ⟨⟨congrArg wrap same.value, (agreeApart_iff.mp same.agree).mono covers⟩, same.kept⟩

/-- Called with the same state, the two functions of a pair give the same result. -/
theorem simplexCall_agree (aimed : Aimed benchmark sz s1 s2 state.machine.mpx)
    (covers : ∀ address, InSlot rsp address → hidden address)
    (apart : ∀ address, Used s1 s2 sz address → ¬hidden address) :
    SameResult hidden (simplexCall benchmark.counterpart rsp sz state)
        (libgccCall benchmark sz s1 s2 state) ∧
      (simplexCall benchmark.counterpart rsp sz state).2.machine.mpx = state.machine.mpx := by
  obtain ⟨enabled, first, second⟩ := aimed
  have apart1 : ApartFrom rsp (state.machine.mpx.bnd .bnd1).lb sz := by
    rw [first]
    intro address inside slot
    exact apart address (.inl inside) (covers address slot)
  have apart2 : benchmark ≠ .libgccMemmove → ApartFrom rsp (state.machine.mpx.bnd .bnd2).lb sz := by
    intro other
    rw [second, if_neg other]
    intro address inside slot
    exact apart address (.inr inside) (covers address slot)
  cases benchmark <;> simp only [simplexCall, libgccCall, LibgccBenchmark.counterpart]
  case libgccMemcmp =>
      have same := simplexMemcmp_agrees enabled apart1 (apart2 (by decide))
      rw [first, second] at same
      exact sameResult_of_outcome .order covers same
  case libgccMemcpy =>
      have same := simplexMemcpy_agrees enabled (apart2 (by decide))
      rw [first, second] at same
      exact sameResult_of_outcome .pointer covers same
  case libgccMemmove =>
      have source : ApartFrom rsp (state.machine.mpx.bnd .bnd2).lb (sz / 2) := by
        rw [second]
        intro address inside slot
        exact apart address (.inl (moved_within inside)) (covers address slot)
      have same := simplexMemmove_agrees enabled source
      rw [first, second] at same
      exact sameResult_of_outcome .pointer covers same
  case libgccMemset =>
      have same : SameOutcome rsp state (simplexMemset rsp 0x43 sz state) _ :=
        simplexMemset_agrees enabled 0x43
      rw [first] at same
      exact sameResult_of_outcome .pointer covers same
  case libgccMemchr =>
      have same := simplexMemchr_agrees enabled apart1 0
      rw [first] at same
      exact sameResult_of_outcome .pointer covers same

end Round

theorem body_eq (env : Environment FixtureCall) (benchmark : SimplexBenchmark) (sz s1 : Word)
    (client : Client FixtureCall) :
    body env benchmark sz s1 client =
      (aim benchmark sz s1 client).stringCall env fun rsp => simplexCall benchmark rsp sz := by
  cases benchmark <;> rfl

/-- Between two rounds the registers hold the buffers and the memories differ in spilled bytes. -/
structure Abreast (env : Environment FixtureCall) (benchmark : LibgccBenchmark) (s1 s2 : Word)
    (client client' : Client FixtureCall) : Prop where
  enabled : client.machine.mpx.Enabled
  first : client.machine.lower BND1 = s1
  second : benchmark ≠ .libgccMemmove → client.machine.lower BND2 = s2
  mem : ∀ address, ¬env.Spills address →
    client.machine.mem address = client'.machine.mem address

section Rounds

variable {env : Environment FixtureCall} {benchmark : LibgccBenchmark} {sz s1 s2 : Word}
  {client client' : Client FixtureCall}

theorem aim_aimed (abreast : Abreast env benchmark s1 s2 client client') (sz : Word) :
    Aimed benchmark sz s1 s2 (aim benchmark.counterpart sz s1 client).machine.mpx := by
  obtain ⟨enabled, first, second, -⟩ := abreast
  by_cases moves : benchmark = .libgccMemmove
  · subst moves
    have set1 := Client.qsetbndl_enabled enabled BND1 s1
    have stored : (client.qsetbndl BND1 s1).machine.lower BND1 = s1 :=
      Client.qsetbndl_lower_self enabled (show (switchReg BND1).isSome by decide) s1
    refine ⟨Client.qsetbndl_enabled set1 BND2 _, ?_, ?_⟩
    · exact (Client.qsetbndl_lower_of_ne set1 (show BND1 ≠ BND2 by decide) _).trans stored
    · exact Client.qsetbndl_lower_self set1 (show (switchReg BND2).isSome by decide) _
  · have same : aim benchmark.counterpart sz s1 client = client := by
      cases benchmark <;> first | rfl | contradiction
    rw [same]
    refine ⟨enabled, first, ?_⟩
    rw [if_neg moves]
    exact second moves

theorem aim_mem (benchmark : SimplexBenchmark) (sz s1 : Word) (client : Client FixtureCall) :
    (aim benchmark sz s1 client).machine.mem = client.machine.mem := by
  cases benchmark with
  | simplexMemmove => exact (qsetbndl_mem _ _ _).trans (qsetbndl_mem _ _ _)
  | _ => rfl

variable (apart : ∀ address, Used s1 s2 sz address → ¬env.Spills address)
include apart

theorem calls_agree (abreast : Abreast env benchmark s1 s2 client client') :
    SameResult env.Spills
        (simplexCall benchmark.counterpart
          (env.rsp (aim benchmark.counterpart sz s1 client).accesses.length) sz ⟨(aim benchmark.counterpart sz s1 client).machine.nearBranch, [], [], []⟩)
        (libgccCall benchmark sz s1 s2 ⟨client'.machine.nearBranch, [], [], []⟩) ∧
      (simplexCall benchmark.counterpart
          (env.rsp (aim benchmark.counterpart sz s1 client).accesses.length) sz
          ⟨(aim benchmark.counterpart sz s1 client).machine.nearBranch, [], [], []⟩).2.machine.mpx =
        (aim benchmark.counterpart sz s1 client).machine.mpx := by
  have aimed := aim_aimed abreast sz
  have memory := aim_mem benchmark.counterpart sz s1 client
  generalize aim benchmark.counterpart sz s1 client = ready at aimed memory ⊢
  rw [Machine.nearBranch_of_enabled aimed.enabled]
  obtain ⟨same, kept⟩ := @simplexCall_agree benchmark env.Spills sz s1 s2
    (env.rsp ready.accesses.length) ⟨ready.machine, [], [], []⟩ aimed
    (fun address slot => ⟨_, slot⟩) apart
  have agree : AgreeOutside env.Spills ⟨ready.machine, [], [], []⟩
      ⟨client'.machine.nearBranch, [], [], []⟩ := by
    refine ⟨?_, rfl, rfl⟩
    intro address outside
    simp only [memory, Machine.nearBranch_mem]
    exact abreast.mem address outside
  have plain := libgccCall_agree benchmark apart agree
  exact ⟨⟨same.value.trans plain.value, same.agree.trans plain.agree⟩, kept⟩

theorem round_abreast (abreast : Abreast env benchmark s1 s2 client client') :
    (aim benchmark.counterpart sz s1 client).stringWork env
        (fun rsp => simplexCall benchmark.counterpart rsp sz) =
        client'.stringWork env (fun _ => libgccCall benchmark sz s1 s2) ∧
      Abreast env benchmark s1 s2 (body env benchmark.counterpart sz s1 client)
        (libgccBody env benchmark sz s1 s2 client') := by
  have aimed := aim_aimed abreast sz
  obtain ⟨same, kept⟩ := calls_agree apart abreast
  rw [body_eq]
  constructor
  · simp only [Client.stringWork, same.value, same.agree.reads, same.agree.writes]
  · have mpx : ((aim benchmark.counterpart sz s1 client).stringCall env
        fun rsp => simplexCall benchmark.counterpart rsp sz).machine.mpx =
        (aim benchmark.counterpart sz s1 client).machine.mpx := by
      simp only [Client.stringCall]
      rw [Machine.nearBranch_of_enabled (by rw [kept]; exact aimed.enabled), kept]
    refine ⟨by rw [mpx]; exact aimed.enabled, ?_, ?_, ?_⟩
    · rw [lower_of_mpx_eq mpx]
      exact aimed.first
    · intro other
      rw [lower_of_mpx_eq mpx]
      exact aimed.second.trans (if_neg other)
    · intro address outside
      simp only [Client.stringCall, libgccBody, Machine.nearBranch_mem]
      exact same.agree.mem address outside

theorem rounds_abreast (iterations : Nat) (abreast : Abreast env benchmark s1 s2 client client') :
    simplexWork env benchmark.counterpart sz s1 iterations client =
        libgccWork env benchmark sz s1 s2 iterations client' ∧
      Abreast env benchmark s1 s2 (bodies env benchmark.counterpart sz s1 iterations client)
        (libgccBodies env benchmark sz s1 s2 iterations client') := by
  induction iterations generalizing client client' with
  | zero => exact ⟨rfl, abreast⟩
  | succ iterations ih =>
      obtain ⟨work, next⟩ := round_abreast apart abreast
      obtain ⟨works, last⟩ := ih next
      simp only [simplexWork, libgccWork, work, works]
      exact ⟨trivial, last⟩

end Rounds

theorem setUp_abreast {env : Environment FixtureCall} (found : Detected env.platform)
    {client ready : Client FixtureCall} {s1 s2 : Word}
    (set : setUp env client = .ok ((s1, s2), ready)) (benchmark : LibgccBenchmark) :
    Abreast env benchmark s1 s2 ready ready := by
  obtain ⟨value, started, -, began, rfl⟩ := setUp_ok set
  obtain ⟨machine, called, same⟩ := Client.processSpecificInit_ok_iff.mp began
  have enabled : started.machine.mpx.Enabled := by
    rw [same]
    exact init_enabled (.inl found) called
  have set1 := Client.qsetbndl_enabled enabled BND1 s1
  have stored : (started.qsetbndl BND1 s1).machine.lower BND1 = s1 :=
    Client.qsetbndl_lower_self enabled (show (switchReg BND1).isSome by decide) s1
  refine ⟨Client.qsetbndl_enabled set1 BND2 s2, ?_, ?_, fun _ _ => rfl⟩
  · exact (Client.qsetbndl_lower_of_ne set1 (show BND1 ≠ BND2 by decide) s2).trans stored
  · exact fun _ => Client.qsetbndl_lower_self set1 (show (switchReg BND2).isSome by decide) s2

/-- After one set up, any number of rounds of a benchmark over bounds registers and of its plain
counterpart return the same values from the same accesses in the same order, and the memories they
leave differ in spilled bytes only. -/
theorem benchmarks_work_alike {env : Environment FixtureCall} (found : Detected env.platform)
    {client ready : Client FixtureCall} {s1 s2 : Word}
    (set : setUp env client = .ok ((s1, s2), ready)) {sz : Word}
    (apart : ∀ address, Used s1 s2 sz address → ¬env.Spills address)
    (benchmark : LibgccBenchmark) (iterations : Nat) :
    simplexWork env benchmark.counterpart sz s1 iterations ready =
        libgccWork env benchmark sz s1 s2 iterations ready ∧
      ∀ address, ¬env.Spills address →
        (bodies env benchmark.counterpart sz s1 iterations ready).machine.mem address =
          (libgccBodies env benchmark sz s1 s2 iterations ready).machine.mem address := by
  obtain ⟨work, last⟩ := rounds_abreast apart iterations (setUp_abreast found set benchmark)
  exact ⟨work, last.mem⟩

theorem fixedHeap_unspilled (rand : Nat → BitVec 31) {address : Word}
    (used : Used 0x10000000 0x20000000 4096 address) :
    ¬(fixedHeap.withBuffers rand).Spills address := by
  rintro ⟨_, slot⟩
  simp only [Used, Within, InSlot, Environment.withBuffers, fixedHeap] at used slot
  bv_omega

theorem benchmarks_work_alike_fixedHeap :
    ∃ ready, setUp (fixedHeap.withBuffers fun _ => 7) freshClient =
        .ok ((0x10000000, 0x20000000), ready) ∧
      simplexWork (fixedHeap.withBuffers fun _ => 7) .simplexMemmove 4096 0x10000000 10000 ready =
        libgccWork (fixedHeap.withBuffers fun _ => 7) .libgccMemmove 4096 0x10000000 0x20000000
          10000 ready := by
  obtain ⟨ready, set⟩ := fixedHeap_setUp fun _ => 7
  exact ⟨ready, set, (benchmarks_work_alike capablePlatform_capable.detected set
    (fun _ => fixedHeap_unspilled _) .libgccMemmove 10000).1⟩

/-! Where the rounds read and write -/

def Accessed (region : Word → Prop) (state : Traced) : Prop :=
  (∀ address ∈ state.reads, region address) ∧ ∀ address ∈ state.writes, region address

section Inside

variable {region : Word → Prop} {state : Traced}

theorem readByte_accessed (inside : Accessed region state) {address : Word}
    (here : region address) : Accessed region (state.readByte address).2 :=
  ⟨List.forall_mem_cons.mpr ⟨here, inside.1⟩, inside.2⟩

theorem writeByte_accessed (inside : Accessed region state) {address : Word}
    (here : region address) (value : BitVec 8) :
    Accessed region (state.writeByte address value) :=
  ⟨inside.1, List.forall_mem_cons.mpr ⟨here, inside.2⟩⟩

theorem compareLoop_accessed {count : Nat} {s1 s2 : Word}
    (first : ∀ offset < count, region (s1 + BitVec.ofNat 64 offset))
    (second : ∀ offset < count, region (s2 + BitVec.ofNat 64 offset))
    (inside : Accessed region state) : Accessed region (compareLoop count s1 s2 state).2 := by
  induction count generalizing s1 s2 state with
  | zero => exact inside
  | succ count ih =>
      obtain ⟨head1, tail1⟩ := offsets_tail region first
      obtain ⟨head2, tail2⟩ := offsets_tail region second
      have once := readByte_accessed (readByte_accessed inside head1) head2
      simp only [compareLoop, add_sub_cancel_right]
      split
      · exact readByte_accessed (readByte_accessed once head1) head2
      · exact ih tail1 tail2 once

theorem copyLoop_accessed {len : Nat} {d s : Word}
    (target : ∀ offset < len, region (d + BitVec.ofNat 64 offset))
    (source : ∀ offset < len, region (s + BitVec.ofNat 64 offset))
    (inside : Accessed region state) : Accessed region (copyLoop len d s state) := by
  induction len generalizing d s state with
  | zero => exact inside
  | succ len ih =>
      obtain ⟨head, tail⟩ := offsets_tail region target
      obtain ⟨head', tail'⟩ := offsets_tail region source
      exact ih tail tail' (writeByte_accessed (readByte_accessed inside head') head _)

theorem copyDownLoop_accessed {len : Nat} {lastd lasts : Word}
    (target : ∀ offset < len, region (lastd - BitVec.ofNat 64 offset))
    (source : ∀ offset < len, region (lasts - BitVec.ofNat 64 offset))
    (inside : Accessed region state) : Accessed region (copyDownLoop len lastd lasts state) := by
  induction len generalizing lastd lasts state with
  | zero => exact inside
  | succ len ih =>
      obtain ⟨head, tail⟩ := offsets_down_tail region target
      obtain ⟨head', tail'⟩ := offsets_down_tail region source
      exact ih tail tail' (writeByte_accessed (readByte_accessed inside head') head _)

theorem setLoop_accessed {val : BitVec 32} {len : Nat} {ptr : Word}
    (target : ∀ offset < len, region (ptr + BitVec.ofNat 64 offset))
    (inside : Accessed region state) : Accessed region (setLoop val len ptr state) := by
  induction len generalizing ptr state with
  | zero => exact inside
  | succ len ih =>
      obtain ⟨head, tail⟩ := offsets_tail region target
      exact ih tail (writeByte_accessed inside head _)

theorem searchLoop_accessed {c : BitVec 32} {len : Nat} {src : Word}
    (source : ∀ offset < len, region (src + BitVec.ofNat 64 offset))
    (inside : Accessed region state) : Accessed region (searchLoop c len src state).2 := by
  induction len generalizing src state with
  | zero => exact inside
  | succ len ih =>
      obtain ⟨head, tail⟩ := offsets_tail region source
      have once := readByte_accessed inside head
      simp only [searchLoop]
      split
      · exact once
      · exact ih tail once

theorem moveBody_accessed {len d s : Word}
    (target : ∀ address, Within d len.toNat address → region address)
    (source : ∀ address, Within s len.toNat address → region address)
    (inside : Accessed region state) : Accessed region (moveBody len d s state) := by
  have bound := len.isLt
  have last : ∀ base offset, offset < len.toNat →
      Within base len.toNat (base + (len - 1) - BitVec.ofNat 64 offset) := by
    intro base offset before
    have back : base + (len - 1) - BitVec.ofNat 64 offset - base =
        len - 1 - BitVec.ofNat 64 offset := by bv_omega
    rw [Within, back]
    bv_omega
  unfold moveBody
  split
  · exact copyLoop_accessed (fun _ before => target _ (within_add d before (by omega)))
      (fun _ before => source _ (within_add s before (by omega))) inside
  · exact copyDownLoop_accessed (fun offset before => target _ (last d offset before))
      (fun offset before => source _ (last s offset before)) inside

theorem libgccCall_accessed (benchmark : LibgccBenchmark) {sz s1 s2 : Word}
    (inside : Accessed (Used s1 s2 sz) state) :
    Accessed (Used s1 s2 sz) (libgccCall benchmark sz s1 s2 state).2 := by
  have bound := sz.isLt
  have first : ∀ offset < sz.toNat, Used s1 s2 sz (s1 + BitVec.ofNat 64 offset) :=
    fun _ before => .inl (within_add s1 before (by omega))
  have second : ∀ offset < sz.toNat, Used s1 s2 sz (s2 + BitVec.ofNat 64 offset) :=
    fun _ before => .inr (within_add s2 before (by omega))
  cases benchmark with
  | libgccMemcmp => exact compareLoop_accessed first second inside
  | libgccMemcpy => exact copyLoop_accessed first second inside
  | libgccMemmove =>
      exact moveBody_accessed (fun _ half => .inl (half_within half))
        (fun _ moved => .inl (moved_within moved)) inside
  | libgccMemset => exact setLoop_accessed first inside
  | libgccMemchr => exact searchLoop_accessed first inside

end Inside

theorem libgccWork_used (env : Environment FixtureCall) (benchmark : LibgccBenchmark)
    (sz s1 s2 : Word) (iterations : Nat) (client : Client FixtureCall) :
    ∀ work ∈ libgccWork env benchmark sz s1 s2 iterations client,
      ∀ address ∈ work.reads ++ work.writes, Used s1 s2 sz address := by
  induction iterations generalizing client with
  | zero => simp [libgccWork]
  | succ iterations ih =>
      refine List.forall_mem_cons.mpr ⟨?_, ih _⟩
      have nothing : Accessed (Used s1 s2 sz) ⟨client.machine.nearBranch, [], [], []⟩ :=
        ⟨by simp, by simp⟩
      obtain ⟨reads, writes⟩ := libgccCall_accessed benchmark nothing
      intro address member
      rcases List.mem_append.mp member with read | wrote
      · exact reads address read
      · exact writes address wrote

end StringFixture

end SimplexMpx
