import Mathlib.Logic.Function.Basic
import SimplexMpx.ByteMemory

/-!
The part of an Intel 64 processor the library drives: the four MPX bounds registers with their
configuration and status words, byte memory, and the instructions the sources execute on them.
-/

namespace SimplexMpx

open ByteMemory

inductive Bnd
  | bnd0
  | bnd1
  | bnd2
  | bnd3
deriving DecidableEq, Repr

@[ext] structure BndPair where
  lb : Word
  ub : Word
deriving DecidableEq, Repr

/-- The MPX state components: BNDREGS, and BNDCFGU with BNDSTATUS in BNDCSR. -/
@[ext] structure MpxState where
  bnd : Bnd → BndPair
  bndcfgu : Word
  bndstatus : Word

def MpxState.en (mpx : MpxState) : Bool := mpx.bndcfgu.getLsbD 0

def MpxState.bndpreserve (mpx : MpxState) : Bool := mpx.bndcfgu.getLsbD 1

/-- A processor context with the process's memory and what it wrote to stderr. -/
@[ext] structure Machine where
  mpx : MpxState
  mem : Memory 64
  stderr : List String

structure CpuidRegs where
  eax : BitVec 32
  ebx : BitVec 32
  ecx : BitVec 32
  edx : BitVec 32
deriving DecidableEq, Repr

/-- `ecx` is what ECX holds where `__cpuid` executes CPUID without setting it. -/
structure Platform where
  cpuid : BitVec 32 → BitVec 32 → CpuidRegs
  ecx : BitVec 32
  osxsave : Bool
  xcr0 : Word

inductive Fault
  | ud
  | gp
deriving DecidableEq, Repr

def initPair : BndPair := { lb := 0, ub := 0 }

namespace Machine

def load (address : Word) (machine : Machine) : Word := load64 machine.mem address

def store (address value : Word) (machine : Machine) : Machine :=
  { machine with mem := store64 machine.mem address value }

/-- `andq $0, address` -/
def andqZero (address : Word) (machine : Machine) : Machine :=
  machine.store address (machine.load address &&& 0)

def setBnd (bnd : Bnd) (pair : BndPair) (machine : Machine) : Machine :=
  { machine with mpx := { machine.mpx with bnd := Function.update machine.mpx.bnd bnd pair } }

/-- `bndmk (base,index), bnd`; a NOP while MPX is off. -/
def bndmk (base index : Word) (bnd : Bnd) (machine : Machine) : Machine :=
  if machine.mpx.en then machine.setBnd bnd { lb := base, ub := ~~~(base + index) } else machine

/-- `bndmov bnd, address`; a NOP while MPX is off. -/
def bndmov (bnd : Bnd) (address : Word) (machine : Machine) : Machine :=
  if machine.mpx.en then
    (machine.store address (machine.mpx.bnd bnd).lb).store (address + 8) (machine.mpx.bnd bnd).ub
  else machine

/-- A near call, return or jump without BND prefix. -/
def nearBranch (machine : Machine) : Machine :=
  if machine.mpx.en && !machine.mpx.bndpreserve then
    { machine with mpx := { machine.mpx with bnd := fun _ => initPair } }
  else machine

/-- Run a function body between its call and its return. The branches inside a body follow the
one or precede the other with no change to the registers in between, so they add nothing. -/
def nearCall {α : Type} (body : Machine → α × Machine) (machine : Machine) : α × Machine :=
  let (value, machine) := body machine.nearBranch
  (value, machine.nearBranch)

def fprintfStderr (text : String) (machine : Machine) : Machine :=
  { machine with stderr := machine.stderr ++ [text] }

end Machine

/-! XRSTOR on a standard-format XSAVE area: header at 512, BNDREGS at 960, BNDCSR at 1024. -/

def headerOffset : Word := 512

def bndregsOffset : Word := 960

def bndcsrOffset : Word := 1024

def bndregOffset : Bnd → Word
  | .bnd0 => bndregsOffset
  | .bnd1 => bndregsOffset + 16
  | .bnd2 => bndregsOffset + 32
  | .bnd3 => bndregsOffset + 48

namespace Machine

def restoreBndregs (area : Word) (fromImage : Bool) (machine : Machine) : Machine :=
  { machine with mpx := { machine.mpx with
      bnd := fun bnd =>
        if fromImage then
          { lb := machine.load (area + bndregOffset bnd)
            ub := machine.load (area + bndregOffset bnd + 8) }
        else initPair } }

def restoreBndcsr (area : Word) (fromImage : Bool) (machine : Machine) : Machine :=
  { machine with mpx := { machine.mpx with
      bndcfgu := if fromImage then machine.load (area + bndcsrOffset) else 0
      bndstatus := if fromImage then machine.load (area + bndcsrOffset + 8) else 0 } }

/-- `xrstor (area)` with the requested-feature bitmap in edx:eax. -/
def xrstor (platform : Platform) (area : Word) (edx eax : BitVec 32) (machine : Machine) :
    Except Fault Machine :=
  if !platform.osxsave then .error .ud
  else
    let xstateBv := machine.load (area + headerOffset)
    if xstateBv &&& ~~~platform.xcr0 ≠ 0 then .error .gp
    else
      let requested := (edx ++ eax) &&& platform.xcr0
      let machine :=
        if requested.getLsbD 3 then machine.restoreBndregs area (xstateBv.getLsbD 3) else machine
      let machine :=
        if requested.getLsbD 4 then machine.restoreBndcsr area (xstateBv.getLsbD 4) else machine
      .ok machine

end Machine

end SimplexMpx
