import SimplexMpx.RegisterCore

/-!
`simplex_string.cpp`: five functions of string.h that take their buffers from BND1 and BND2, and
the plain versions. Every byte the functions themselves read or write is recorded, latest first.
The two versions of a function share the text of their loop; a loop counts its length down to zero,
and the value its counter wraps to at the end is not used.
-/

namespace SimplexMpx

open ByteMemory

/-- `fetches` are the results of the function's own calls of `qgetbndl`, latest first. -/
structure Traced where
  machine : Machine
  reads : List Word
  writes : List Word
  fetches : List (BndregT × Word)

namespace Traced

def readByte (address : Word) (state : Traced) : BitVec 8 × Traced :=
  (state.machine.mem address, { state with reads := address :: state.reads })

def writeByte (address : Word) (value : BitVec 8) (state : Traced) : Traced :=
  { state with
    machine := { state.machine with mem := Function.update state.machine.mem address value }
    writes := address :: state.writes }

/-- A call of `qgetbndl`, whose spill is not one of the function's own accesses. -/
def qgetbndl (rsp : Word) (reg : BndregT) (state : Traced) : Word × Traced :=
  let (value, machine) := state.machine.nearCall (SimplexMpx.qgetbndl rsp reg)
  (value, { state with machine := machine, fetches := (reg, value) :: state.fetches })

end Traced

/-! Loops -/

/-- A difference is read again for the order of the two bytes. -/
def compareLoop : Nat → Word → Word → Traced → Int × Traced
  | 0, _, _, state => (0, state)
  | count + 1, s1, s2, state =>
      let (byte1, state) := state.readByte s1
      let (byte2, state) := state.readByte s2
      let s1 := s1 + 1
      let s2 := s2 + 1
      if byte1 ≠ byte2 then
        let (byte1, state) := state.readByte (s1 - 1)
        let (byte2, state) := state.readByte (s2 - 1)
        (if byte1 < byte2 then -1 else 1, state)
      else compareLoop count s1 s2 state

def copyLoop : Nat → Word → Word → Traced → Traced
  | 0, _, _, state => state
  | len + 1, d, s, state =>
      let (byte, state) := state.readByte s
      let state := state.writeByte d byte
      copyLoop len (d + 1) (s + 1) state

def copyDownLoop : Nat → Word → Word → Traced → Traced
  | 0, _, _, state => state
  | len + 1, lastd, lasts, state =>
      let (byte, state) := state.readByte lasts
      let state := state.writeByte lastd byte
      copyDownLoop len (lastd - 1) (lasts - 1) state

def setLoop (val : BitVec 32) : Nat → Word → Traced → Traced
  | 0, _, state => state
  | len + 1, ptr, state =>
      let state := state.writeByte ptr (val.setWidth 8)
      setLoop val len (ptr + 1) state

/-- The byte is compared as an `int`, so a `c` outside 0..255 matches none. -/
def searchLoop (c : BitVec 32) : Nat → Word → Traced → Word × Traced
  | 0, _, state => (0, state)
  | len + 1, src, state =>
      let (byte, state) := state.readByte src
      if byte.setWidth 32 = c then (src, state)
      else searchLoop c len (src + 1) state

def moveBody (len d s : Word) (state : Traced) : Traced :=
  if d < s then copyLoop len.toNat d s state
  else
    let lasts := s + (len - 1)
    let lastd := d + (len - 1)
    copyDownLoop len.toNat lastd lasts state

/-! Functions over the bounds registers -/

def simplexMemcmp (rsp count : Word) (state : Traced) : Int × Traced :=
  let (s1, state) := state.qgetbndl rsp BND1
  let (s2, state) := state.qgetbndl rsp BND2
  compareLoop count.toNat s1 s2 state

def simplexMemcpy (rsp len : Word) (state : Traced) : Word × Traced :=
  let (d, state) := state.qgetbndl rsp BND1
  let (s, state) := state.qgetbndl rsp BND2
  let state := copyLoop len.toNat d s state
  state.qgetbndl rsp BND1

def simplexMemmove (rsp len : Word) (state : Traced) : Word × Traced :=
  let (d, state) := state.qgetbndl rsp BND1
  let (s, state) := state.qgetbndl rsp BND2
  let state := moveBody len d s state
  state.qgetbndl rsp BND1

def simplexMemset (rsp : Word) (val : BitVec 32) (len : Word) (state : Traced) : Word × Traced :=
  let (ptr, state) := state.qgetbndl rsp BND1
  let state := setLoop val len.toNat ptr state
  state.qgetbndl rsp BND1

def simplexMemchr (rsp : Word) (c : BitVec 32) (len : Word) (state : Traced) : Word × Traced :=
  let (src, state) := state.qgetbndl rsp BND1
  searchLoop c len.toNat src state

/-! Plain functions -/

def libgccMemcmp (str1 str2 count : Word) (state : Traced) : Int × Traced :=
  compareLoop count.toNat str1 str2 state

def libgccMemcpy (dest src len : Word) (state : Traced) : Word × Traced :=
  (dest, copyLoop len.toNat dest src state)

def libgccMemmove (dest src len : Word) (state : Traced) : Word × Traced :=
  (dest, moveBody len dest src state)

def libgccMemset (dest : Word) (val : BitVec 32) (len : Word) (state : Traced) : Word × Traced :=
  (dest, setLoop val len.toNat dest state)

def libgccMemchr (srcVoid : Word) (c : BitVec 32) (length : Word) (state : Traced) :
    Word × Traced :=
  searchLoop c length.toNat srcVoid state

end SimplexMpx
