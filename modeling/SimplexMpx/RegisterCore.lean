import SimplexMpx.RunRules
import SimplexMpx.RuntimeCore

/-!
The programmer interface of `simplex.c`. The four switch arms of each function differ only in the
register they name, so an arm is a function of that register. Accessors run at a stack pointer
`rsp` of their own; for `setbndl` and `setbndu` it is the one of the accessor they call.
-/

namespace SimplexMpx

open ByteMemory

/-- A C argument of type `bndreg_t`: any 32-bit value can be passed. -/
abbrev BndregT := BitVec 32

def BND0 : BndregT := 0

def BND1 : BndregT := 1

def BND2 : BndregT := 2

def BND3 : BndregT := 3

def switchReg (reg : BndregT) : Option Bnd :=
  if reg = 0 then some .bnd0
  else if reg = 1 then some .bnd1
  else if reg = 2 then some .bnd2
  else if reg = 3 then some .bnd3
  else none

def LOWER : BitVec 64 := 0xFFFFFFFFFFFFFFFF

/-- The text `fprintf` writes for `%i`. -/
def invalidRegister (function : String) (reg : BndregT) : String :=
  "(" ++ function ++ ") invalid bounds register: " ++ toString reg.toInt ++ "\n"

/-- The statement after the switch that clears the 16 bytes spilled below the stack pointer. -/
def sanitize (rsp : Word) (machine : Machine) : Machine :=
  (machine.andqZero (rsp - 0x78)).andqZero (rsp - 0x80)

def getbndl (rsp : Word) (reg : BndregT) (machine : Machine) : Word × Machine :=
  match switchReg reg with
  | some bnd =>
      let machine := machine.bndmov bnd (rsp - 0x80)
      let val := machine.load (rsp - 0x80)
      let machine := sanitize rsp machine
      (val, machine)
  | none => (0, machine.fprintfStderr (invalidRegister "getbndl" reg))

def getbndu (rsp : Word) (reg : BndregT) (machine : Machine) : Word × Machine :=
  match switchReg reg with
  | some bnd =>
      let machine := machine.bndmov bnd (rsp - 0x80)
      let val := machine.load (rsp - 0x78)
      let machine := sanitize rsp machine
      (~~~val, machine)
  | none => (0, machine.fprintfStderr (invalidRegister "getbndu" reg))

def getbnd (rsp : Word) (reg : BndregT) (machine : Machine) : BitVec 128 × Machine :=
  match switchReg reg with
  | some bnd =>
      let machine := machine.bndmov bnd (rsp - 0x80)
      let upper := machine.load (rsp - 0x78)
      let lower := machine.load (rsp - 0x80)
      let machine := sanitize rsp machine
      (lower.setWidth 128 ||| (~~~upper.setWidth 128) <<< 64, machine)
  | none => (0, machine.fprintfStderr (invalidRegister "getbndu" reg))

def qgetbndl (rsp : Word) (reg : BndregT) (machine : Machine) : Word × Machine :=
  match switchReg reg with
  | some bnd =>
      let machine := machine.bndmov bnd (rsp - 0x80)
      let val := machine.load (rsp - 0x80)
      (val, machine)
  | none => (0, machine.fprintfStderr (invalidRegister "getbndl" reg))

def setbndl (rsp : Word) (reg : BndregT) (val : Word) (machine : Machine) : Machine :=
  let (upper, machine) := machine.nearCall (getbndu rsp reg)
  let upper := upper - val
  match switchReg reg with
  | some bnd => machine.bndmk val upper bnd
  | none => machine.fprintfStderr (invalidRegister "setbndl" reg)

def setbndu (rsp : Word) (reg : BndregT) (val : Word) (machine : Machine) : Machine :=
  let (lower, machine) := machine.nearCall (getbndl rsp reg)
  let val := val - lower
  match switchReg reg with
  | some bnd => machine.bndmk lower val bnd
  | none => machine.fprintfStderr (invalidRegister "setbndu" reg)

def setbnd (reg : BndregT) (val : BitVec 128) (machine : Machine) : Machine :=
  let lower : Word := (val &&& LOWER.setWidth 128).setWidth 64
  let upper : Word := ((val ^^^ LOWER.setWidth 128) >>> 64).setWidth 64
  let upper := upper - lower
  match switchReg reg with
  | some bnd => machine.bndmk lower upper bnd
  | none => machine.fprintfStderr (invalidRegister "setbndu" reg)

def qsetbndl (reg : BndregT) (val : Word) (machine : Machine) : Machine :=
  match switchReg reg with
  | some bnd => machine.bndmk val 0 bnd
  | none => machine.fprintfStderr (invalidRegister "qsetbndl" reg)

/-! Calls of the library -/

/-- A call with its arguments and the stack addresses it works at, or a near branch of the
program between two calls. -/
inductive Call
  | processSpecificInit (buffer : Word)
  | processSpecificFinish (buffer : Word)
  | getbndl (rsp : Word) (reg : BndregT)
  | getbndu (rsp : Word) (reg : BndregT)
  | getbnd (rsp : Word) (reg : BndregT)
  | qgetbndl (rsp : Word) (reg : BndregT)
  | setbndl (rsp : Word) (reg : BndregT) (val : Word)
  | setbndu (rsp : Word) (reg : BndregT) (val : Word)
  | setbnd (reg : BndregT) (val : BitVec 128)
  | qsetbndl (reg : BndregT) (val : Word)
  | nearBranch
deriving DecidableEq, Repr

inductive Returned
  | void
  | bool (value : Bool)
  | word (value : Word)
  | wide (value : BitVec 128)
deriving DecidableEq, Repr

def procedure (body : Machine → Machine) (machine : Machine) : Unit × Machine :=
  ((), body machine)

def call {α : Type} (returned : α → Returned) (body : Machine → α × Machine)
    (machine : Machine) : Except Fault (Returned × Machine) :=
  let (value, machine) := machine.nearCall body
  .ok (returned value, machine)

def fallibleCall (body : Machine → Except Fault (Bool × Machine)) (machine : Machine) :
    Except Fault (Returned × Machine) := do
  let (value, machine) ← body machine.nearBranch
  return (.bool value, machine.nearBranch)

def callStep (platform : Platform) : Call → Machine → Except Fault (Returned × Machine)
  | .processSpecificInit buffer => fallibleCall (processSpecificInit platform buffer)
  | .processSpecificFinish buffer => fallibleCall (processSpecificFinish platform buffer)
  | .getbndl rsp reg => call .word (getbndl rsp reg)
  | .getbndu rsp reg => call .word (getbndu rsp reg)
  | .getbnd rsp reg => call .wide (getbnd rsp reg)
  | .qgetbndl rsp reg => call .word (qgetbndl rsp reg)
  | .setbndl rsp reg val => call (fun _ => .void) (procedure (setbndl rsp reg val))
  | .setbndu rsp reg val => call (fun _ => .void) (procedure (setbndu rsp reg val))
  | .setbnd reg val => call (fun _ => .void) (procedure (setbnd reg val))
  | .qsetbndl reg val => call (fun _ => .void) (procedure (qsetbndl reg val))
  | .nearBranch => fun machine => .ok (.void, machine.nearBranch)

abbrev runCalls (platform : Platform) :
    List Call → Machine → Except Fault (List Returned × Machine) :=
  RunRules.run (callStep platform)

end SimplexMpx
