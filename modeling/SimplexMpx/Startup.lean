import SimplexMpx.Runtime

/-!
When detection is exact, and when starting and stopping MPX is safe. Detection reads the vendor
string of leaf 0 where the feature bits are in leaf 1, and neither function reads XCR0.
-/

namespace SimplexMpx

/-! Switching -/

/-- What an operating system can have set up: CPUID reports CR4.OSXSAVE, and XCR0 has no
component the processor does not support. -/
structure PlatformConsistent (platform : Platform) : Prop where
  osxsave : (platform.cpuid 1 0).ecx.getLsbD 27 = platform.osxsave
  supported : platform.xcr0 &&&
    ~~~((platform.cpuid 13 0).edx ++ (platform.cpuid 13 0).eax) = 0

/-- Neither function faults, a true result means MPX was switched, a false one that no MPX state
was touched. -/
structure StartupSafe (platform : Platform) (buffer : ByteMemory.Word) (machine : Machine) :
    Prop where
  initRuns : ∃ result, processSpecificInit platform buffer machine = .ok result
  finishRuns : ∃ result, processSpecificFinish platform buffer machine = .ok result
  initEnables : ∀ final, processSpecificInit platform buffer machine = .ok (true, final) →
    final.mpx.en = true ∧ final.mpx.bndpreserve = true
  initKeeps : ∀ final, processSpecificInit platform buffer machine = .ok (false, final) →
    final.mpx = machine.mpx
  finishDisables : ∀ final, processSpecificFinish platform buffer machine = .ok (true, final) →
    final.mpx.en = false
  finishKeeps : ∀ final, processSpecificFinish platform buffer machine = .ok (false, final) →
    final.mpx = machine.mpx

theorem startupSafe_of_undetected {platform : Platform} (missing : ¬Detected platform)
    (buffer : ByteMemory.Word) (machine : Machine) : StartupSafe platform buffer machine := by
  have started := processSpecificInit_undetected missing buffer machine
  have stopped := processSpecificFinish_undetected missing buffer machine
  refine ⟨⟨_, started⟩, ⟨_, stopped⟩, ?_, ?_, ?_, ?_⟩
  · intro final ran
    simp [started] at ran
  · intro final ran
    simp only [started, Except.ok.injEq, Prod.mk.injEq] at ran
    rw [← ran.2]
  · intro final ran
    simp [stopped] at ran
  · intro final ran
    simp only [stopped, Except.ok.injEq, Prod.mk.injEq] at ran
    rw [← ran.2]

theorem startupSafe_of_enabled {platform : Platform} (found : Detected platform)
    (on : platform.osxsave = true) (csr : platform.xcr0.getLsbD 4 = true)
    (buffer : ByteMemory.Word) (machine : Machine) : StartupSafe platform buffer machine := by
  have started := processSpecificInit_detected found buffer machine
  have stopped := processSpecificFinish_detected found buffer machine
  rw [enableMpx_ok on csr, Except.map] at started
  rw [disableMpx_ok on csr, Except.map] at stopped
  refine ⟨⟨_, started⟩, ⟨_, stopped⟩, ?_, ?_, ?_, ?_⟩
  · intro final ran
    simp only [started, Except.ok.injEq, Prod.mk.injEq] at ran
    rw [← ran.2]
    exact configured_enabled platform machine _
  · intro final ran
    simp [started] at ran
  · intro final ran
    simp only [stopped, Except.ok.injEq, Prod.mk.injEq] at ran
    rw [← ran.2]
    exact configured_off platform machine _
  · intro final ran
    simp [stopped] at ran

theorem init_faults {platform : Platform} (found : Detected platform)
    (missing : ¬(platform.osxsave = true ∧ platform.xcr0.getLsbD 4 = true))
    (buffer : ByteMemory.Word) (machine : Machine) :
    ∃ fault, processSpecificInit platform buffer machine = .error fault := by
  obtain ⟨fault, failed⟩ := restoreTwice_error (enableImage_programmed buffer) missing machine
  refine ⟨fault, ?_⟩
  rw [processSpecificInit_detected found, enableMpx_eq, failed]
  rfl

theorem finish_faults {platform : Platform} (found : Detected platform)
    (missing : ¬(platform.osxsave = true ∧ platform.xcr0.getLsbD 4 = true))
    (buffer : ByteMemory.Word) (machine : Machine) :
    ∃ fault, processSpecificFinish platform buffer machine = .error fault := by
  obtain ⟨fault, failed⟩ := restoreTwice_error (disableImage_programmed buffer) missing machine
  refine ⟨fault, ?_⟩
  rw [processSpecificFinish_detected found, disableMpx_eq, failed]
  rfl

/-- Starting and stopping is safe exactly when the operating system has enabled XSAVE with the
BNDCSR component wherever detection, as coded, succeeds. -/
theorem startupSafe_iff (platform : Platform) (buffer : ByteMemory.Word) (machine : Machine) :
    StartupSafe platform buffer machine ↔
      (Detected platform → platform.osxsave = true ∧ platform.xcr0.getLsbD 4 = true) := by
  constructor
  · intro safe found
    by_contra missing
    obtain ⟨fault, failed⟩ := init_faults found missing buffer machine
    obtain ⟨result, ran⟩ := safe.initRuns
    rw [failed] at ran
    contradiction
  · intro enabled
    by_cases found : Detected platform
    · exact startupSafe_of_enabled found (enabled found).1 (enabled found).2 buffer machine
    · exact startupSafe_of_undetected found buffer machine

/-! Detection -/

structure Reported (platform : Platform) : Prop where
  maxLevel : 13 ≤ (platform.cpuid 0 0).eax
  xsave : (platform.cpuid 1 0).ecx.getLsbD 26 = true
  osxsave : (platform.cpuid 1 0).ecx.getLsbD 27 = true
  mpx : (platform.cpuid 7 0).ebx.getLsbD 14 = true
  bndregs : (platform.cpuid 13 0).eax.getLsbD 3 = true
  bndcsr : (platform.cpuid 13 0).eax.getLsbD 4 = true

/-- All three functions give the result of `Reported`, and every leaf queried exists. -/
structure DetectionExact (platform : Platform) : Prop where
  check : checkMpxSupport platform = true ↔ Reported platform
  init : ∀ buffer machine, ∃ result final,
    processSpecificInit platform buffer machine = .ok (result, final) ∧
      (result = true ↔ Reported platform)
  finish : ∀ buffer machine, ∃ result final,
    processSpecificFinish platform buffer machine = .ok (result, final) ∧
      (result = true ↔ Reported platform)
  withinMaximum : ∀ query ∈ ((checkMpxSupportQueries platform).run []).2,
    query.1 ≤ (platform.cpuid 0 0).eax

structure VendorBits (platform : Platform) : Prop where
  xsave : (platform.cpuid 0 0).ecx.getLsbD 26 = true
  osxsave : (platform.cpuid 0 0).ecx.getLsbD 27 = true

theorem queries_eq (platform : Platform) :
    ((checkMpxSupportQueries platform).run []).2 =
      (0, platform.ecx) ::
        if 13 ≤ (platform.cpuid 0 platform.ecx).eax then
          (0, 0) ::
            if (platform.cpuid 0 0).ecx.getLsbD 26 && (platform.cpuid 0 0).ecx.getLsbD 27 then
              (7, 0) :: if (platform.cpuid 7 0).ebx.getLsbD 14 then [(13, 0)] else []
            else []
        else [] := by
  have bits : bitXSAVE = BitVec.twoPow 32 26 ∧ bitOSXSAVE = BitVec.twoPow 32 27 ∧
      bitMPX = BitVec.twoPow 32 14 := by decide
  simp only [checkMpxSupportQueries, getCpuidMax, cpuid, cpuidCount, bits,
    and_twoPow_eq_zero_iff _ 26 (by decide), and_twoPow_eq_zero_iff _ 27 (by decide),
    and_twoPow_eq_zero_iff _ 14 (by decide), bind_assoc, pure_bind]
  by_cases level : (platform.cpuid 0 platform.ecx).eax < 13
  · have low : ¬13 ≤ (platform.cpuid 0 platform.ecx).eax := by bv_omega
    rw [if_pos level, if_neg low]
    rfl
  have high : 13 ≤ (platform.cpuid 0 platform.ecx).eax := by bv_omega
  rw [if_neg level, if_pos high]
  cases (platform.cpuid 0 0).ecx.getLsbD 26
  · rfl
  cases (platform.cpuid 0 0).ecx.getLsbD 27
  · rfl
  cases (platform.cpuid 7 0).ebx.getLsbD 14
  · rfl
  simp only [Bool.true_eq_false, if_false, Bool.and_self, if_true]
  split
  · rfl
  · split <;> rfl

theorem queries_within_iff (platform : Platform) (maximum : BitVec 32) :
    (∀ query ∈ ((checkMpxSupportQueries platform).run []).2, query.1 ≤ maximum) ↔
      (13 ≤ (platform.cpuid 0 platform.ecx).eax → VendorBits platform →
        7 ≤ maximum ∧ ((platform.cpuid 7 0).ebx.getLsbD 14 = true → 13 ≤ maximum)) := by
  have least : (0 : BitVec 32) ≤ maximum := by bv_omega
  rw [queries_eq, List.forall_mem_cons]
  by_cases level : 13 ≤ (platform.cpuid 0 platform.ecx).eax
  · rw [if_pos level, List.forall_mem_cons]
    cases vendor : (platform.cpuid 0 0).ecx.getLsbD 26 && (platform.cpuid 0 0).ecx.getLsbD 27 with
    | false =>
        have missing : ¬VendorBits platform := by
          rintro ⟨xsave, osxsave⟩
          rw [xsave, osxsave] at vendor
          contradiction
        exact ⟨fun _ _ bits => absurd bits missing,
          fun _ => ⟨least, least, List.forall_mem_nil _⟩⟩
    | true =>
        obtain ⟨xsave, osxsave⟩ := (Bool.and_eq_true _ _).mp vendor
        rw [if_pos rfl, List.forall_mem_cons]
        cases (platform.cpuid 7 0).ebx.getLsbD 14 with
        | false =>
            constructor
            · rintro ⟨-, -, seven, -⟩ - -
              exact ⟨seven, fun mpx => absurd mpx Bool.false_ne_true⟩
            · intro within
              exact ⟨least, least, (within level ⟨xsave, osxsave⟩).1, List.forall_mem_nil _⟩
        | true =>
            rw [if_pos rfl, List.forall_mem_singleton]
            constructor
            · rintro ⟨-, -, seven, thirteen⟩ - -
              exact ⟨seven, fun _ => thirteen⟩
            · intro within
              obtain ⟨seven, thirteen⟩ := within level ⟨xsave, osxsave⟩
              exact ⟨least, least, seven, thirteen rfl⟩
  · rw [if_neg level]
    exact ⟨fun _ high => absurd high level, fun _ => ⟨least, List.forall_mem_nil _⟩⟩

/-- Where CPUID's answers are such that the tests made give the result of those documented. -/
structure DetectionAgrees (platform : Platform) : Prop where
  -- a processor whose leaf 0 depends on ECX can report another maximum to `__get_cpuid_max`
  maximum : 13 ≤ (platform.cpuid 0 platform.ecx).eax → VendorBits platform →
    7 ≤ (platform.cpuid 0 0).eax ∧
      ((platform.cpuid 7 0).ebx.getLsbD 14 = true → 13 ≤ (platform.cpuid 0 0).eax)
  features : (platform.cpuid 7 0).ebx.getLsbD 14 = true →
    (platform.cpuid 13 0).eax.getLsbD 3 = true → (platform.cpuid 13 0).eax.getLsbD 4 = true →
      (13 ≤ (platform.cpuid 0 platform.ecx).eax ∧ VendorBits platform ↔
        13 ≤ (platform.cpuid 0 0).eax ∧ (platform.cpuid 1 0).ecx.getLsbD 26 = true ∧
          (platform.cpuid 1 0).ecx.getLsbD 27 = true)
  usable : Detected platform → platform.osxsave = true ∧ platform.xcr0.getLsbD 4 = true

theorem detected_iff_reported (platform : Platform) :
    (Detected platform ↔ Reported platform) ↔
      ((platform.cpuid 7 0).ebx.getLsbD 14 = true →
        (platform.cpuid 13 0).eax.getLsbD 3 = true → (platform.cpuid 13 0).eax.getLsbD 4 = true →
          (13 ≤ (platform.cpuid 0 platform.ecx).eax ∧ VendorBits platform ↔
            13 ≤ (platform.cpuid 0 0).eax ∧ (platform.cpuid 1 0).ecx.getLsbD 26 = true ∧
              (platform.cpuid 1 0).ecx.getLsbD 27 = true)) := by
  constructor
  · intro same mpx bndregs bndcsr
    constructor
    · rintro ⟨level, xsave, osxsave⟩
      have reported := same.mp ⟨level, xsave, osxsave, mpx, bndregs, bndcsr⟩
      exact ⟨reported.maxLevel, reported.xsave, reported.osxsave⟩
    · rintro ⟨level, xsave, osxsave⟩
      have detected := same.mpr ⟨level, xsave, osxsave, mpx, bndregs, bndcsr⟩
      exact ⟨detected.maxLevel, detected.xsave, detected.osxsave⟩
  · intro agree
    constructor
    · rintro ⟨level, xsave, osxsave, mpx, bndregs, bndcsr⟩
      obtain ⟨level, xsave, osxsave⟩ := (agree mpx bndregs bndcsr).mp ⟨level, xsave, osxsave⟩
      exact ⟨level, xsave, osxsave, mpx, bndregs, bndcsr⟩
    · rintro ⟨level, xsave, osxsave, mpx, bndregs, bndcsr⟩
      obtain ⟨level, xsave, osxsave⟩ := (agree mpx bndregs bndcsr).mpr ⟨level, xsave, osxsave⟩
      exact ⟨level, xsave, osxsave, mpx, bndregs, bndcsr⟩

section Results

variable {platform : Platform}
  (usable : Detected platform → platform.osxsave = true ∧ platform.xcr0.getLsbD 4 = true)
include usable

theorem init_returns (buffer : ByteMemory.Word) (machine : Machine) :
    ∃ final, processSpecificInit platform buffer machine =
      .ok (checkMpxSupport platform, final) := by
  by_cases found : Detected platform
  · obtain ⟨on, csr⟩ := usable found
    rw [processSpecificInit_detected found, enableMpx_ok on csr,
      (checkMpxSupport_iff platform).mpr found]
    exact ⟨_, rfl⟩
  · have missing : checkMpxSupport platform = false := by
      rwa [← Bool.not_eq_true, checkMpxSupport_iff]
    rw [processSpecificInit_undetected found, missing]
    exact ⟨_, rfl⟩

theorem finish_returns (buffer : ByteMemory.Word) (machine : Machine) :
    ∃ final, processSpecificFinish platform buffer machine =
      .ok (checkMpxSupport platform, final) := by
  by_cases found : Detected platform
  · obtain ⟨on, csr⟩ := usable found
    rw [processSpecificFinish_detected found, disableMpx_ok on csr,
      (checkMpxSupport_iff platform).mpr found]
    exact ⟨_, rfl⟩
  · have missing : checkMpxSupport platform = false := by
      rwa [← Bool.not_eq_true, checkMpxSupport_iff]
    rw [processSpecificFinish_undetected found, missing]
    exact ⟨_, rfl⟩

end Results

/-- Detection is exact, and both functions return its result, exactly where the answers agree and
the operating system lets detected MPX be used. -/
theorem detectionExact_iff (platform : Platform) :
    DetectionExact platform ↔ DetectionAgrees platform := by
  constructor
  · intro exactly
    have same := exactly.check
    rw [checkMpxSupport_iff] at same
    refine ⟨(queries_within_iff _ _).mp exactly.withinMaximum,
      (detected_iff_reported platform).mp same, ?_⟩
    intro found
    by_contra missing
    obtain ⟨fault, failed⟩ := init_faults found missing 0 ⟨⟨fun _ => initPair, 0, 0⟩, fun _ => 0, []⟩
    obtain ⟨result, final, ran, -⟩ := exactly.init 0 _
    rw [failed] at ran
    contradiction
  · intro agrees
    have same : checkMpxSupport platform = true ↔ Reported platform := by
      rw [checkMpxSupport_iff]
      exact (detected_iff_reported platform).mpr agrees.features
    refine ⟨same, ?_, ?_, (queries_within_iff _ _).mpr agrees.maximum⟩
    · intro buffer machine
      obtain ⟨final, ran⟩ := init_returns agrees.usable buffer machine
      exact ⟨_, final, ran, same⟩
    · intro buffer machine
      obtain ⟨final, ran⟩ := finish_returns agrees.usable buffer machine
      exact ⟨_, final, ran, same⟩

def mpxPlatform (xcr0 : ByteMemory.Word) : Platform where
  cpuid leaf _ :=
    if leaf = 0 then { eax := 0x16, ebx := 0x756e6547, ecx := 0x6c65746e, edx := 0x49656e69 }
    else if leaf = 1 then { eax := 0, ebx := 0, ecx := bitXSAVE ||| bitOSXSAVE, edx := 0 }
    else if leaf = 7 then { eax := 0, ebx := bitMPX, ecx := 0, edx := 0 }
    else if leaf = 13 then { eax := 0x1f, ebx := 0, ecx := 0, edx := 0 }
    else { eax := 0, ebx := 0, ecx := 0, edx := 0 }
  ecx := 5
  osxsave := true
  xcr0 := xcr0

def platformWithoutMpxState : Platform := mpxPlatform 0x7

def capablePlatform : Platform := mpxPlatform 0x1f

def platformWithoutOsxsave : Platform where
  cpuid leaf count :=
    if leaf = 1 then { eax := 0, ebx := 0, ecx := bitXSAVE, edx := 0 }
    else capablePlatform.cpuid leaf count
  ecx := capablePlatform.ecx
  osxsave := false
  xcr0 := 0

theorem detection_misses_osxsave :
    platformWithoutOsxsave.osxsave =
        (platformWithoutOsxsave.cpuid 1 0).ecx.getLsbD 27 ∧
      checkMpxSupport platformWithoutOsxsave = true ∧
      ¬DetectionExact platformWithoutOsxsave := by
  have found : checkMpxSupport platformWithoutOsxsave = true := by decide
  refine ⟨by decide, found, ?_⟩
  intro exactly
  have missing : (platformWithoutOsxsave.cpuid 1 0).ecx.getLsbD 27 = false := by decide
  have reported := (exactly.check.mp found).osxsave
  rw [missing] at reported
  contradiction

def blankMachine : Machine where
  mpx := { bnd := fun _ => initPair, bndcfgu := 0, bndstatus := 0 }
  mem := fun _ => 0
  stderr := []

theorem startup_faults_without_mpx_state :
    PlatformConsistent platformWithoutMpxState ∧
      ¬StartupSafe platformWithoutMpxState 0 blankMachine := by
  have detected : Detected platformWithoutMpxState :=
    (checkMpxSupport_iff platformWithoutMpxState).mp (by decide)
  refine ⟨⟨by decide, by decide⟩, ?_⟩
  intro safe
  obtain ⟨fault, failed⟩ := init_faults detected (by decide) 0 blankMachine
  obtain ⟨result, ran⟩ := safe.initRuns
  rw [failed] at ran
  contradiction

end SimplexMpx
