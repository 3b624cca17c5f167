import SimplexMpx.ProcessorCore

/-!
The assembly of `gptraverse.S` and `mpxtraverse.S`, block by block. Operands stand in the order of
the source, destination last. A round of the loop yields its two indexed loads and their XOR.
-/

namespace SimplexMpx

open ByteMemory

inductive Gpr
  | rax
  | rcx
  | rdx
  | rsp
  | rbp
  | rsi
  | rdi
  | r8
  | r9
deriving DecidableEq, Repr

/-- The registers the two functions use and the zero flag, the machine, and the address of every
8-byte store, latest first. -/
structure Cpu where
  reg : Gpr → Word
  zf : Bool
  machine : Machine
  stores : List Word

/-- The addresses of the two indexed loads of a round, and what the round computes. -/
structure Round where
  first : Word
  second : Word
  result : Word
deriving DecidableEq, Repr

namespace Cpu

def set (dst : Gpr) (value : Word) (cpu : Cpu) : Cpu :=
  { cpu with reg := Function.update cpu.reg dst value }

def setFlag (value : Word) (cpu : Cpu) : Cpu :=
  { cpu with zf := value = 0 }

def store (address value : Word) (cpu : Cpu) : Cpu :=
  { cpu with machine := cpu.machine.store address value, stores := address :: cpu.stores }

def mov (src dst : Gpr) (cpu : Cpu) : Cpu := cpu.set dst (cpu.reg src)

def add (src dst : Gpr) (cpu : Cpu) : Cpu :=
  (cpu.set dst (cpu.reg dst + cpu.reg src)).setFlag (cpu.reg dst + cpu.reg src)

def sub (immediate : Word) (dst : Gpr) (cpu : Cpu) : Cpu :=
  (cpu.set dst (cpu.reg dst - immediate)).setFlag (cpu.reg dst - immediate)

def shr (dst : Gpr) (cpu : Cpu) : Cpu :=
  (cpu.set dst (cpu.reg dst >>> 1)).setFlag (cpu.reg dst >>> 1)

def xor (src dst : Gpr) (cpu : Cpu) : Cpu :=
  (cpu.set dst (cpu.reg dst ^^^ cpu.reg src)).setFlag (cpu.reg dst ^^^ cpu.reg src)

def inc (dst : Gpr) (cpu : Cpu) : Cpu :=
  (cpu.set dst (cpu.reg dst + 1)).setFlag (cpu.reg dst + 1)

def cmp (src dst : Gpr) (cpu : Cpu) : Cpu := cpu.setFlag (cpu.reg dst - cpu.reg src)

def push (src : Gpr) (cpu : Cpu) : Cpu :=
  (cpu.set .rsp (cpu.reg .rsp - 8)).store (cpu.reg .rsp - 8) (cpu.reg src)

def pop (dst : Gpr) (cpu : Cpu) : Cpu :=
  (cpu.set .rsp (cpu.reg .rsp + 8)).set dst (cpu.machine.load (cpu.reg .rsp))

def movStack (displacement : Word) (dst : Gpr) (cpu : Cpu) : Cpu :=
  cpu.set dst (cpu.machine.load (cpu.reg .rsp + displacement))

/-- `mov (base,index,1), dst`, with the address it reads. -/
def movIndexed (base index dst : Gpr) (cpu : Cpu) : Word × Cpu :=
  (cpu.reg base + cpu.reg index,
    cpu.set dst (cpu.machine.load (cpu.reg base + cpu.reg index)))

def andqZero (displacement : Word) (cpu : Cpu) : Cpu :=
  (cpu.store (cpu.reg .rsp + displacement)
    (cpu.machine.load (cpu.reg .rsp + displacement) &&& 0)).setFlag
    (cpu.machine.load (cpu.reg .rsp + displacement) &&& 0)

def bndmk (base index : Gpr) (bnd : Bnd) (cpu : Cpu) : Cpu :=
  { cpu with machine := cpu.machine.bndmk (cpu.reg base) (cpu.reg index) bnd }

/-- `bndmov bnd, displacement(%rsp)`: two stores while MPX is on. -/
def bndmov (bnd : Bnd) (displacement : Word) (cpu : Cpu) : Cpu :=
  { cpu with
    machine := cpu.machine.bndmov bnd (cpu.reg .rsp + displacement)
    stores :=
      if cpu.machine.mpx.en then
        (cpu.reg .rsp + displacement + 8) :: (cpu.reg .rsp + displacement) :: cpu.stores
      else cpu.stores }

def branch (cpu : Cpu) : Cpu := { cpu with machine := cpu.machine.nearBranch }

def ret (cpu : Cpu) : Cpu := (cpu.set .rsp (cpu.reg .rsp + 8)).branch

end Cpu

/-- The loop both functions share: a round ends by leaving for `exit` or jumping back. `none` means
that `fuel` rounds were not enough. -/
def rounds (body : Cpu → Round × Cpu) : Nat → Cpu → Option (List Round × Cpu)
  | 0, _ => none
  | fuel + 1, cpu =>
      let (round, cpu) := body cpu
      if cpu.zf then some ([round], cpu.branch)
      else (rounds body fuel cpu.branch).map fun (later, final) => (round :: later, final)

/-- The part of a round from the two indexed loads to the comparison, the same in both files. -/
def readAndCompare (cpu : Cpu) : Round × Cpu :=
  let (first, cpu) := cpu.movIndexed .rax .rdx .r8
  let (second, cpu) := cpu.movIndexed .rcx .rdx .r9
  let cpu := cpu.xor .r8 .r9
  let result := cpu.reg .r9
  let cpu := cpu.inc .rdx
  let cpu := cpu.add .rdx .rax
  let cpu := cpu.cmp .rcx .rax
  ({ first := first, second := second, result := result }, cpu)

/-- `exit`, the same in both files. -/
def traverseExit (cpu : Cpu) : Cpu :=
  let cpu := cpu.pop .r9
  let cpu := cpu.pop .r8
  let cpu := cpu.pop .rdx
  let cpu := cpu.pop .rcx
  let cpu := cpu.pop .rax
  let cpu := cpu.pop .rbp
  cpu.ret

/-! `gptraverse.S` -/

def gptraverseEntry (cpu : Cpu) : Cpu :=
  let cpu := cpu.push .rbp
  let cpu := cpu.mov .rsp .rbp
  let cpu := cpu.push .rax
  let cpu := cpu.push .rdx
  let cpu := cpu.push .rcx
  let cpu := cpu.push .r8
  let cpu := cpu.push .r9
  -- the midpoint of the buffer
  let cpu := cpu.shr .rsi
  let cpu := cpu.add .rdi .rsi
  let cpu := cpu.xor .rax .rax
  let cpu := cpu.xor .rcx .rcx
  let cpu := cpu.xor .rdx .rdx
  cpu.branch

def gptraverseContinue (cpu : Cpu) : Round × Cpu :=
  let cpu := cpu.mov .rdi .rax
  let cpu := cpu.mov .rsi .rcx
  readAndCompare cpu

def gptraverse (fuel : Nat) (cpu : Cpu) : Option (List Round × Cpu) :=
  (rounds gptraverseContinue fuel (gptraverseEntry cpu)).map fun (done, cpu) =>
    (done, traverseExit cpu)

/-! `mpxtraverse.S` -/

def mpxtraverseEntry (cpu : Cpu) : Cpu :=
  let cpu := cpu.push .rbp
  let cpu := cpu.mov .rsp .rbp
  let cpu := cpu.push .rax
  let cpu := cpu.push .rcx
  let cpu := cpu.push .rdx
  let cpu := cpu.push .r8
  let cpu := cpu.push .r9
  let cpu := cpu.shr .rsi
  let cpu := cpu.mov .rdi .rdx
  let cpu := cpu.mov .rsi .rax
  let cpu := cpu.sub 1 .rax
  let cpu := cpu.bndmk .rdx .rax .bnd0
  let cpu := cpu.add .rsi .rdx
  let cpu := cpu.bndmk .rdx .rax .bnd1
  let cpu := cpu.xor .rax .rax
  let cpu := cpu.xor .rcx .rcx
  let cpu := cpu.xor .rdx .rdx
  cpu.branch

/-- The first part of `continue`: both registers through the stack into `rax` and `rcx`. -/
def fetchBounds (cpu : Cpu) : Cpu :=
  let cpu := cpu.bndmov .bnd0 (-0x10)
  let cpu := cpu.bndmov .bnd1 (-0x20)
  let cpu := cpu.movStack (-0x10) .rax
  let cpu := cpu.movStack (-0x20) .rcx
  let cpu := cpu.andqZero (-0x08)
  let cpu := cpu.andqZero (-0x10)
  let cpu := cpu.andqZero (-0x18)
  cpu.andqZero (-0x20)

def mpxtraverseContinue (cpu : Cpu) : Round × Cpu :=
  let cpu := fetchBounds cpu
  readAndCompare cpu

def mpxtraverse (fuel : Nat) (cpu : Cpu) : Option (List Round × Cpu) :=
  (rounds mpxtraverseContinue fuel (mpxtraverseEntry cpu)).map fun (done, cpu) =>
    (done, traverseExit cpu)

end SimplexMpx
