import SimplexMpx.Processor
import SimplexMpx.RuntimeCore

/-!
What detection answers, and what the two XRSTORs of `enable_mpx` and `disable_mpx` do on every
platform.
-/

namespace SimplexMpx

open ByteMemory

/-! Detection -/

theorem and_twoPow_eq_zero_iff (value : BitVec 32) (index : Nat) (bound : index < 32) :
    value &&& BitVec.twoPow 32 index = 0 ↔ value.getLsbD index = false := by
  rw [BitVec.and_twoPow]
  cases value.getLsbD index with
  | false => simp
  | true =>
      simp only [if_true, Bool.true_eq_false, iff_false]
      intro zero
      have numbers := congrArg BitVec.toNat zero
      rw [BitVec.toNat_twoPow_of_lt bound] at numbers
      simp at numbers

/-- The CPUID answers under which detection succeeds, as `check_mpx_support` reads them. -/
structure Detected (platform : Platform) : Prop where
  maxLevel : 13 ≤ (platform.cpuid 0 platform.ecx).eax
  xsave : (platform.cpuid 0 0).ecx.getLsbD 26 = true
  osxsave : (platform.cpuid 0 0).ecx.getLsbD 27 = true
  mpx : (platform.cpuid 7 0).ebx.getLsbD 14 = true
  bndregs : (platform.cpuid 13 0).eax.getLsbD 3 = true
  bndcsr : (platform.cpuid 13 0).eax.getLsbD 4 = true

theorem checkMpxSupport_eq (platform : Platform) :
    checkMpxSupport platform =
      (decide (13 ≤ (platform.cpuid 0 platform.ecx).eax) && (platform.cpuid 0 0).ecx.getLsbD 26 &&
        (platform.cpuid 0 0).ecx.getLsbD 27 && (platform.cpuid 7 0).ebx.getLsbD 14 &&
        (platform.cpuid 13 0).eax.getLsbD 3 && (platform.cpuid 13 0).eax.getLsbD 4) := by
  have bits : bitXSAVE = BitVec.twoPow 32 26 ∧ bitOSXSAVE = BitVec.twoPow 32 27 ∧
      bitMPX = BitVec.twoPow 32 14 ∧ bitBNDREGS = BitVec.twoPow 32 3 ∧
      bitBNDCSR = BitVec.twoPow 32 4 := by decide
  simp only [checkMpxSupport, checkMpxSupportQueries, getCpuidMax, cpuid, cpuidCount, bits,
    and_twoPow_eq_zero_iff _ 26 (by decide), and_twoPow_eq_zero_iff _ 27 (by decide),
    and_twoPow_eq_zero_iff _ 14 (by decide), and_twoPow_eq_zero_iff _ 3 (by decide),
    and_twoPow_eq_zero_iff _ 4 (by decide), bind_assoc, pure_bind]
  by_cases level : (platform.cpuid 0 platform.ecx).eax < 13
  · have low : ¬13 ≤ (platform.cpuid 0 platform.ecx).eax := by bv_omega
    simp only [level, low, if_true, decide_false, Bool.false_and]
    rfl
  · have high : 13 ≤ (platform.cpuid 0 platform.ecx).eax := by bv_omega
    simp only [level, high, if_false, decide_true, Bool.true_and]
    cases (platform.cpuid 0 0).ecx.getLsbD 26
    · rfl
    cases (platform.cpuid 0 0).ecx.getLsbD 27
    · rfl
    cases (platform.cpuid 7 0).ebx.getLsbD 14
    · rfl
    cases (platform.cpuid 13 0).eax.getLsbD 3
    · rfl
    cases (platform.cpuid 13 0).eax.getLsbD 4 <;> rfl

theorem checkMpxSupport_iff (platform : Platform) :
    checkMpxSupport platform = true ↔ Detected platform := by
  rw [checkMpxSupport_eq]
  simp only [Bool.and_eq_true, decide_eq_true_eq]
  constructor
  · rintro ⟨⟨⟨⟨⟨level, xsave⟩, osxsave⟩, mpx⟩, bndregs⟩, bndcsr⟩
    exact ⟨level, xsave, osxsave, mpx, bndregs, bndcsr⟩
  · intro found
    exact ⟨⟨⟨⟨⟨found.maxLevel, found.xsave⟩, found.osxsave⟩, found.mpx⟩, found.bndregs⟩,
      found.bndcsr⟩

/-! The packed struct of `mpxrt.h` has the processor's layout. -/

theorem xstateBvAddress_eq (buffer : Word) : xstateBvAddress buffer = buffer + headerOffset := rfl

theorem cfgRegUAddress_eq (buffer : Word) : cfgRegUAddress buffer = buffer + bndcsrOffset := rfl

theorem statusRegAddress_eq (buffer : Word) :
    statusRegAddress buffer = buffer + bndcsrOffset + 8 := rfl

/-! XRSTOR -/

theorem split_mask (mask : Word) :
    (mask >>> 32).setWidth 32 ++ mask.setWidth 32 = mask := by
  apply BitVec.eq_of_getLsbD_eq
  intro index bound
  simp only [BitVec.getLsbD_append, BitVec.getLsbD_setWidth, BitVec.getLsbD_ushiftRight]
  by_cases low : index < 32
  · simp [low]
  · have high : index - 32 < 32 := by omega
    simp [low, high, show 32 + (index - 32) = index by omega]

theorem xrstorState_ud {platform : Platform} (off : platform.osxsave = false) (fx mask : Word)
    (machine : Machine) : xrstorState platform fx mask machine = .error .ud := by
  simp [xrstorState, Machine.xrstor, off]

theorem xrstorState_gp {platform : Platform} (on : platform.osxsave = true) {fx mask : Word}
    {machine : Machine}
    (unsupported : machine.load (xstateBvAddress fx) &&& ~~~platform.xcr0 ≠ 0) :
    xrstorState platform fx mask machine = .error .gp := by
  rw [xstateBvAddress_eq] at unsupported
  simp only [xrstorState, Machine.xrstor, on, Bool.not_true, Bool.false_eq_true, if_false]
  rw [if_pos unsupported]

theorem xrstorState_ok {platform : Platform} (on : platform.osxsave = true) {fx mask : Word}
    {machine : Machine}
    (supported : machine.load (xstateBvAddress fx) &&& ~~~platform.xcr0 = 0) :
    xrstorState platform fx mask machine =
      let restored :=
        if (mask &&& platform.xcr0).getLsbD 3 then
          machine.restoreBndregs fx ((machine.load (xstateBvAddress fx)).getLsbD 3)
        else machine
      .ok (if (mask &&& platform.xcr0).getLsbD 4 then
          restored.restoreBndcsr fx ((machine.load (xstateBvAddress fx)).getLsbD 4)
        else restored) := by
  rw [xstateBvAddress_eq] at supported ⊢
  simp only [xrstorState, Machine.xrstor, on, Bool.not_true, Bool.false_eq_true, if_false,
    split_mask]
  rw [if_neg (not_not.mpr supported)]

/-! The two XRSTORs -/

def Machine.initialised (platform : Platform) (machine : Machine) : Machine :=
  { machine with mpx := {
      bnd := if platform.xcr0.getLsbD 3 then fun _ => initPair else machine.mpx.bnd
      bndcfgu := if platform.xcr0.getLsbD 4 then 0 else machine.mpx.bndcfgu
      bndstatus := if platform.xcr0.getLsbD 4 then 0 else machine.mpx.bndstatus } }

theorem memsetBuffer_load (buffer offset : Word) (inside : offset.toNat + 8 ≤ 4096)
    (machine : Machine) : (memsetBuffer buffer machine).load (buffer + offset) = 0 := by
  apply load64_fill_zero
  intro address member
  simp only [Within] at *
  bv_omega

theorem xrstorState_zeroed {platform : Platform} (on : platform.osxsave = true) (buffer : Word)
    (machine : Machine) :
    xrstorState platform buffer 0x18 (memsetBuffer buffer machine) =
      .ok ((memsetBuffer buffer machine).initialised platform) := by
  have header : (memsetBuffer buffer machine).load (xstateBvAddress buffer) = 0#64 := by
    rw [xstateBvAddress_eq]
    exact memsetBuffer_load buffer headerOffset (by decide) machine
  rw [xrstorState_ok on (by rw [header]; exact BitVec.zero_and)]
  have third : ((0x18 : Word) &&& platform.xcr0).getLsbD 3 = platform.xcr0.getLsbD 3 := by
    rw [BitVec.getLsbD_and]
    exact Bool.true_and _
  have fourth : ((0x18 : Word) &&& platform.xcr0).getLsbD 4 = platform.xcr0.getLsbD 4 := by
    rw [BitVec.getLsbD_and]
    exact Bool.true_and _
  rw [third, fourth, header]
  cases regs : platform.xcr0.getLsbD 3 <;> cases csr : platform.xcr0.getLsbD 4 <;>
    simp only [Machine.initialised, regs, csr] <;> rfl

structure Programmed (buffer cfg : Word) (machine : Machine) : Prop where
  header : machine.load (xstateBvAddress buffer) = 0x10
  config : machine.load (cfgRegUAddress buffer) = cfg
  status : machine.load (statusRegAddress buffer) = 0

theorem sixteen_and_not (xcr0 : Word) :
    (0x10 : Word) &&& ~~~xcr0 = 0 ↔ xcr0.getLsbD 4 = true := by
  have bit : (0x10 : Word) = BitVec.twoPow 64 4 := by decide
  rw [bit, BitVec.and_comm, BitVec.and_twoPow]
  cases found : xcr0.getLsbD 4 with
  | false =>
      have flipped : (~~~xcr0).getLsbD 4 = true := by
        rw [BitVec.getLsbD_not, found]
        rfl
      rw [flipped]
      decide
  | true =>
      have flipped : (~~~xcr0).getLsbD 4 = false := by
        rw [BitVec.getLsbD_not, found]
        rfl
      rw [flipped]
      decide

theorem xrstorState_programmed {platform : Platform} (on : platform.osxsave = true)
    (csr : platform.xcr0.getLsbD 4 = true) {buffer cfg : Word} {machine : Machine}
    (image : Programmed buffer cfg machine) :
    xrstorState platform buffer 0x10 machine =
      .ok { machine with mpx := { machine.mpx with bndcfgu := cfg, bndstatus := 0 } } := by
  rw [xrstorState_ok on (by rw [image.header]; exact (sixteen_and_not platform.xcr0).mpr csr)]
  have third : ((0x10 : Word) &&& platform.xcr0).getLsbD 3 = false := by
    rw [BitVec.getLsbD_and]
    exact Bool.false_and _
  have fourth : ((0x10 : Word) &&& platform.xcr0).getLsbD 4 = true := by
    rw [BitVec.getLsbD_and, csr]
    rfl
  have config := image.config
  have status := image.status
  rw [cfgRegUAddress_eq] at config
  rw [statusRegAddress_eq] at status
  simp only [third, fourth, image.header, if_true, Bool.false_eq_true, if_false]
  simp only [Machine.restoreBndcsr, config, status]
  rfl

theorem xrstorState_programmed_gp {platform : Platform} (on : platform.osxsave = true)
    (csr : platform.xcr0.getLsbD 4 = false) {buffer cfg : Word} {machine : Machine}
    (image : Programmed buffer cfg machine) :
    xrstorState platform buffer 0x10 machine = .error .gp := by
  apply xrstorState_gp on
  rw [image.header]
  intro zero
  rw [(sixteen_and_not platform.xcr0).mp zero] at csr
  contradiction

/-! `enable_mpx` and `disable_mpx` -/

theorem load_store_offset {first second : Word}
    (apart : 8 ≤ (second - first).toNat ∧ 8 ≤ (first - second).toNat) (buffer value : Word)
    (machine : Machine) :
    (machine.store (buffer + first) value).load (buffer + second) =
      machine.load (buffer + second) := by
  apply load64_store64_of_apart
  · rw [add_sub_add_left_eq_sub]
    exact apart.1
  · rw [add_sub_add_left_eq_sub]
    exact apart.2

def enableImage (buffer : Word) (machine : Machine) : Machine :=
  let machine := machine.store (xstateBvAddress buffer) 0x10
  let machine := machine.store (cfgRegUAddress buffer) l1base
  let machine := machine.store (cfgRegUAddress buffer)
    (machine.load (cfgRegUAddress buffer) ||| (enable <<< mpxEnableBitNo))
  let machine := machine.store (cfgRegUAddress buffer)
    (machine.load (cfgRegUAddress buffer) ||| (bndpreserve <<< bndpreserveBitNo))
  machine.store (statusRegAddress buffer) 0

def disableImage (buffer : Word) (machine : Machine) : Machine :=
  let machine := machine.store (xstateBvAddress buffer) 0x10
  let machine := machine.store (cfgRegUAddress buffer) 0
  machine.store (statusRegAddress buffer) 0

theorem enableImage_programmed (buffer : Word) (machine : Machine) :
    Programmed buffer 3 (enableImage buffer machine) := by
  have settled : enableImage buffer machine =
      ((((machine.store (buffer + headerOffset) 0x10).store (buffer + bndcsrOffset) 0).store
        (buffer + bndcsrOffset) 1).store (buffer + bndcsrOffset) 3).store
        (buffer + (bndcsrOffset + 8)) 0 := by
    have base : l1base = 0 := rfl
    have one : (0 : Word) ||| enable <<< mpxEnableBitNo = 1 := by decide
    have three : (1 : Word) ||| bndpreserve <<< bndpreserveBitNo = 3 := by decide
    simp only [enableImage, Machine.load_store_same, xstateBvAddress_eq, cfgRegUAddress_eq,
      statusRegAddress_eq, add_assoc, base, one, three]
  rw [settled]
  refine ⟨?_, ?_, ?_⟩
  · rw [xstateBvAddress_eq, load_store_offset (by decide), load_store_offset (by decide),
      load_store_offset (by decide), load_store_offset (by decide), Machine.load_store_same]
  · rw [cfgRegUAddress_eq, load_store_offset (by decide), Machine.load_store_same]
  · rw [statusRegAddress_eq, add_assoc, Machine.load_store_same]

theorem disableImage_programmed (buffer : Word) (machine : Machine) :
    Programmed buffer 0 (disableImage buffer machine) := by
  have settled : disableImage buffer machine =
      ((machine.store (buffer + headerOffset) 0x10).store (buffer + bndcsrOffset) 0).store
        (buffer + (bndcsrOffset + 8)) 0 := by
    simp only [disableImage, xstateBvAddress_eq, cfgRegUAddress_eq, statusRegAddress_eq, add_assoc]
  rw [settled]
  refine ⟨?_, ?_, ?_⟩
  · rw [xstateBvAddress_eq, load_store_offset (by decide), load_store_offset (by decide),
      Machine.load_store_same]
  · rw [cfgRegUAddress_eq, load_store_offset (by decide), Machine.load_store_same]
  · rw [statusRegAddress_eq, add_assoc, Machine.load_store_same]

/-- Both functions restore the zeroed image with mask 0x18 and then, with mask 0x10, the image
they store into the buffer. -/
def restoreTwice (platform : Platform) (image : Word → Machine → Machine) (buffer : Word)
    (machine : Machine) : Except Fault Machine :=
  (xrstorState platform buffer 0x18 (memsetBuffer buffer machine)).bind fun cleared =>
    xrstorState platform buffer 0x10 (image buffer cleared)

theorem enableMpx_eq (platform : Platform) (buffer : Word) (machine : Machine) :
    enableMpx platform buffer machine = restoreTwice platform enableImage buffer machine := rfl

theorem disableMpx_eq (platform : Platform) (buffer : Word) (machine : Machine) :
    disableMpx platform buffer machine = restoreTwice platform disableImage buffer machine := rfl

theorem restoreTwice_error {platform : Platform} {image : Word → Machine → Machine}
    {buffer cfg : Word} (programmed : ∀ machine, Programmed buffer cfg (image buffer machine))
    (missing : ¬(platform.osxsave = true ∧ platform.xcr0.getLsbD 4 = true)) (machine : Machine) :
    ∃ fault, restoreTwice platform image buffer machine = .error fault := by
  cases on : platform.osxsave with
  | false =>
      refine ⟨.ud, ?_⟩
      rw [restoreTwice, xrstorState_ud on]
      rfl
  | true =>
      have csr : platform.xcr0.getLsbD 4 = false := by simpa [on] using missing
      refine ⟨.gp, ?_⟩
      rw [restoreTwice, xrstorState_zeroed on]
      exact xrstorState_programmed_gp on csr (programmed _)

def Machine.configured (platform : Platform) (cfg : Word) (machine image : Machine) : Machine :=
  { image with mpx := {
      bnd := if platform.xcr0.getLsbD 3 then fun _ => initPair else machine.mpx.bnd
      bndcfgu := cfg
      bndstatus := 0 } }

theorem configured_enabled (platform : Platform) (machine image : Machine) :
    (machine.configured platform 3 image).mpx.Enabled := by
  simp only [MpxState.Enabled, MpxState.en, MpxState.bndpreserve, Machine.configured]
  decide

theorem configured_off (platform : Platform) (machine image : Machine) :
    (machine.configured platform 0 image).mpx.en = false := by
  simp only [MpxState.en, Machine.configured]
  decide

theorem enableMpx_ok {platform : Platform} (on : platform.osxsave = true)
    (csr : platform.xcr0.getLsbD 4 = true) (buffer : Word) (machine : Machine) :
    enableMpx platform buffer machine =
      .ok (machine.configured platform 3 (enableImage buffer (memsetBuffer buffer machine))) := by
  rw [enableMpx_eq, restoreTwice, xrstorState_zeroed on]
  simp only [Except.bind]
  rw [xrstorState_programmed on csr (enableImage_programmed buffer _)]
  rfl

theorem disableMpx_ok {platform : Platform} (on : platform.osxsave = true)
    (csr : platform.xcr0.getLsbD 4 = true) (buffer : Word) (machine : Machine) :
    disableMpx platform buffer machine =
      .ok (machine.configured platform 0 (disableImage buffer (memsetBuffer buffer machine))) := by
  rw [disableMpx_eq, restoreTwice, xrstorState_zeroed on]
  simp only [Except.bind]
  rw [xrstorState_programmed on csr (disableImage_programmed buffer _)]
  rfl

/-! `process_specific_init` and `process_specific_finish` -/

theorem processSpecificInit_undetected {platform : Platform} (missing : ¬Detected platform)
    (buffer : Word) (machine : Machine) :
    processSpecificInit platform buffer machine = .ok (false, machine) := by
  rw [← checkMpxSupport_iff, Bool.not_eq_true] at missing
  simp only [processSpecificInit, missing]
  rfl

theorem processSpecificFinish_undetected {platform : Platform} (missing : ¬Detected platform)
    (buffer : Word) (machine : Machine) :
    processSpecificFinish platform buffer machine = .ok (false, machine) := by
  rw [← checkMpxSupport_iff, Bool.not_eq_true] at missing
  simp only [processSpecificFinish, missing]
  rfl

theorem processSpecificInit_detected {platform : Platform} (found : Detected platform)
    (buffer : Word) (machine : Machine) :
    processSpecificInit platform buffer machine =
      (enableMpx platform buffer machine).map fun final => (true, final) := by
  rw [← checkMpxSupport_iff] at found
  simp only [processSpecificInit, found]
  cases enableMpx platform buffer machine <;> rfl

theorem processSpecificFinish_detected {platform : Platform} (found : Detected platform)
    (buffer : Word) (machine : Machine) :
    processSpecificFinish platform buffer machine =
      (disableMpx platform buffer machine).map fun final => (true, final) := by
  rw [← checkMpxSupport_iff] at found
  simp only [processSpecificFinish, found]
  cases disableMpx platform buffer machine <;> rfl

end SimplexMpx
