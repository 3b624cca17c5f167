import SimplexMpx.RegisterCore

/-!
The inline assembly of the accessors of `simplex.c` as the compiler sees it: a template it does not
read, with the operands and clobbers declared for it. Only these decide which statements the
compiler may exchange.
-/

namespace SimplexMpx

open ByteMemory

inductive Operand
  | val
  | lower
  | upper
deriving DecidableEq, Repr

/-- Displacements are relative to `%rsp`. -/
inductive AsmInstruction
  | bndmov (bnd : Bnd) (displacement : Word)
  | mov (displacement : Word) (dst : Operand)
  | andqZero (displacement : Word)
deriving DecidableEq, Repr

structure AsmStatement where
  template : List AsmInstruction
  isVolatile : Bool
  outputs : List Operand
  inputs : List Operand
  clobbers : List String
deriving DecidableEq, Repr

/-- Volatile statements and those without operands stay in order among themselves. -/
def AsmStatement.keepsOrder (statement : AsmStatement) : Bool :=
  statement.isVolatile || (statement.outputs.isEmpty && statement.inputs.isEmpty)

def AsmStatement.operands (statement : AsmStatement) : List Operand :=
  statement.outputs ++ statement.inputs

def AsmStatement.shares (first second : AsmStatement) : Bool :=
  first.operands.any (second.operands.contains ·) || first.clobbers.any (second.clobbers.contains ·)

def mayExchange (first second : AsmStatement) : Bool :=
  !(first.keepsOrder && second.keepsOrder) && !first.shares second

/-- The execution orders the compiler may choose for statements written in the order `source`. -/
def Permitted (source order : List AsmStatement) : Prop :=
  RunRules.Reordering (fun first second => mayExchange first second = true) source order

structure AsmState where
  machine : Machine
  operand : Operand → Word

def AsmInstruction.execute (rsp : Word) (instruction : AsmInstruction) (state : AsmState) :
    AsmState :=
  match instruction with
  | bndmov bnd displacement =>
      { state with machine := state.machine.bndmov bnd (rsp + displacement) }
  | mov displacement dst =>
      { state with
        operand := Function.update state.operand dst (state.machine.load (rsp + displacement)) }
  | andqZero displacement =>
      { state with machine := state.machine.andqZero (rsp + displacement) }

def AsmStatement.execute (rsp : Word) (statement : AsmStatement) (state : AsmState) : AsmState :=
  statement.template.foldl (fun state instruction => instruction.execute rsp state) state

def executeInOrder (rsp : Word) (order : List AsmStatement) (state : AsmState) : AsmState :=
  order.foldl (fun state statement => statement.execute rsp state) state

/-! `simplex.c` -/

inductive Accessor
  | getbndl
  | getbndu
  | getbnd
deriving DecidableEq, Repr

def Accessor.fetch (bnd : Bnd) : Accessor → AsmStatement
  | getbndl =>
      { template := [.bndmov bnd (-0x80), .mov (-0x80) .val]
        isVolatile := false
        outputs := [.val]
        inputs := []
        clobbers := [] }
  | getbndu =>
      { template := [.bndmov bnd (-0x80), .mov (-0x78) .val]
        isVolatile := false
        outputs := [.val]
        inputs := []
        clobbers := [] }
  | getbnd =>
      { template := [.bndmov bnd (-0x80), .mov (-0x78) .upper, .mov (-0x80) .lower]
        isVolatile := false
        outputs := [.upper, .lower]
        inputs := []
        clobbers := [] }

/-- The statement after the switch, the same in all three. -/
def scrub : AsmStatement where
  template := [.andqZero (-0x78), .andqZero (-0x80)]
  isVolatile := true
  outputs := []
  inputs := []
  clobbers := []

def Accessor.statements (accessor : Accessor) (bnd : Bnd) : List AsmStatement :=
  [accessor.fetch bnd, scrub]

def Accessor.result (operand : Operand → Word) : Accessor → Returned
  | getbndl => .word (operand .val)
  | getbndu => .word (~~~operand .val)
  | getbnd => .wide ((operand .lower).setWidth 128 ||| (~~~(operand .upper).setWidth 128) <<< 64)

end SimplexMpx
