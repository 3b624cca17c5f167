import SimplexMpx.ProcessorCore

/-!
The runtime of `mpxrt.c` with the parts of `cpuid.h` and `mpxrt.h` it uses: support detection and
the process-wide switch of MPX. Only detection reads CPUID; the reads are kept in order.
-/

namespace SimplexMpx

open ByteMemory

/-! `cpuid.h` -/

def bitXSAVE : BitVec 32 := 1 <<< 26

def bitOSXSAVE : BitVec 32 := 1 <<< 27

def bitMPX : BitVec 32 := 1 <<< 14

def bitBNDREGS : BitVec 32 := 1 <<< 3

def bitBNDCSR : BitVec 32 := 1 <<< 4

/-- CPUID queries as the pair of leaf and subleaf. -/
abbrev CpuidM := StateM (List (BitVec 32 × BitVec 32))

def cpuidCount (platform : Platform) (level count : BitVec 32) : CpuidM CpuidRegs := do
  modify fun queries => queries ++ [(level, count)]
  return platform.cpuid level count

def cpuid (platform : Platform) (level : BitVec 32) : CpuidM CpuidRegs :=
  cpuidCount platform level platform.ecx

def getCpuidMax (platform : Platform) (ext : BitVec 32) : CpuidM (BitVec 32) := do
  let regs ← cpuid platform ext
  return regs.eax

/-! `mpxrt.h` -/

def mpxEnableBitNo : Nat := 0

def bndpreserveBitNo : Nat := 1

/-- Offsets in the packed `struct xsave_struct`. -/
def xsaveHdrOffset : Word := 512

def xsaveBndregsOffset : Word := xsaveHdrOffset + 64 + 256 + 128

def xsaveBndcsrOffset : Word := xsaveBndregsOffset + 64

def xstateBvAddress (xsaveBuf : Word) : Word := xsaveBuf + xsaveHdrOffset

def cfgRegUAddress (xsaveBuf : Word) : Word := xsaveBuf + xsaveBndcsrOffset

def statusRegAddress (xsaveBuf : Word) : Word := xsaveBuf + xsaveBndcsrOffset + 8

/-! `mpxrt.c` -/

def l1base : Word := 0

def bndpreserve : Word := 1

def enable : Word := 1

def xrstorState (platform : Platform) (fx mask : Word) (machine : Machine) :
    Except Fault Machine :=
  let lmask : BitVec 32 := mask.setWidth 32
  let hmask : BitVec 32 := (mask >>> 32).setWidth 32
  machine.xrstor platform fx hmask lmask

def checkMpxSupportQueries (platform : Platform) : CpuidM Bool := do
  let maxLevel ← getCpuidMax platform 0
  if maxLevel < 13 then
    return false
  let regs ← cpuidCount platform 0 0
  if regs.ecx &&& bitXSAVE = 0 then
    return false
  if regs.ecx &&& bitOSXSAVE = 0 then
    return false
  let regs ← cpuidCount platform 7 0
  if regs.ebx &&& bitMPX = 0 then
    return false
  let regs ← cpuidCount platform 13 0
  if regs.eax &&& bitBNDREGS = 0 then
    return false
  if regs.eax &&& bitBNDCSR = 0 then
    return false
  return true

def checkMpxSupport (platform : Platform) : Bool :=
  ((checkMpxSupportQueries platform).run []).1

def memsetBuffer (buffer : Word) (machine : Machine) : Machine :=
  { machine with mem := fill machine.mem buffer 4096 0 }

/-- `buffer` is the address of the 4096-byte local the image is built in. -/
def enableMpx (platform : Platform) (buffer : Word) (machine : Machine) :
    Except Fault Machine := do
  let machine := memsetBuffer buffer machine
  let machine ← xrstorState platform buffer 0x18 machine
  let machine := machine.store (xstateBvAddress buffer) 0x10
  let machine := machine.store (cfgRegUAddress buffer) l1base
  let machine := machine.store (cfgRegUAddress buffer)
    (machine.load (cfgRegUAddress buffer) ||| (enable <<< mpxEnableBitNo))
  let machine := machine.store (cfgRegUAddress buffer)
    (machine.load (cfgRegUAddress buffer) ||| (bndpreserve <<< bndpreserveBitNo))
  let machine := machine.store (statusRegAddress buffer) 0
  xrstorState platform buffer 0x10 machine

def disableMpx (platform : Platform) (buffer : Word) (machine : Machine) :
    Except Fault Machine := do
  let machine := memsetBuffer buffer machine
  let machine ← xrstorState platform buffer 0x18 machine
  let machine := machine.store (xstateBvAddress buffer) 0x10
  let machine := machine.store (cfgRegUAddress buffer) 0
  let machine := machine.store (statusRegAddress buffer) 0
  xrstorState platform buffer 0x10 machine

def processSpecificInit (platform : Platform) (buffer : Word) (machine : Machine) :
    Except Fault (Bool × Machine) := do
  if !checkMpxSupport platform then
    return (false, machine)
  let machine ← enableMpx platform buffer machine
  return (true, machine)

def processSpecificFinish (platform : Platform) (buffer : Word) (machine : Machine) :
    Except Fault (Bool × Machine) := do
  if !checkMpxSupport platform then
    return (false, machine)
  let machine ← disableMpx platform buffer machine
  return (true, machine)

end SimplexMpx
