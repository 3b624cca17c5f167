import SimplexMpx.RegisterCore

/-!
The unit tests of `simplex_test.c`. Every test is a loop over the registers that sets one, reads it
and asserts what it has read. What CUnit does with an assertion is not part of the repository.
-/

namespace SimplexMpx

open ByteMemory

namespace SimplexTest

/-- What the functions of CUnit do to the machine: the call an assertion makes with its outcome, and
the code that calls the functions of a test. -/
structure CUnit where
  asserted : Bool → Machine → Machine
  dispatch : Machine → Machine

/-- The stack pointers of the accessors a test calls, and of those that `setbndl` and `setbndu` call
for it and for `reset_bnd_regs`. -/
structure TestStack where
  getbndl : Word
  getbndu : Word
  getbnd : Word
  qgetbndl : Word
  setbndl : Word
  setbndu : Word
  resetSetbndl : Word
  resetSetbndu : Word

structure Round where
  sets : List Call
  gets : List (Call × Returned)

def registers : List BndregT := [BND0, BND1, BND2, BND3]

def resetBndRegs (stack : TestStack) : List Call :=
  registers.flatMap fun reg =>
    [.setbndl stack.resetSetbndl reg 0, .setbndu stack.resetSetbndu reg 0]

def testLowerHalf (stack : TestStack) : List Round :=
  registers.map fun reg =>
    { sets := [.setbndl stack.setbndl reg 0xDEADBEEFDEADBEEF]
      gets := [(.getbndl stack.getbndl reg, .word 0xDEADBEEFDEADBEEF)] }

def testUpperHalf (stack : TestStack) : List Round :=
  registers.map fun reg =>
    { sets := [.setbndu stack.setbndu reg 0xDEADBEEFDEADBEEF]
      gets := [(.getbndu stack.getbndu reg, .word 0xDEADBEEFDEADBEEF)] }

def testLowerLtUpper (stack : TestStack) : List Round :=
  registers.map fun reg =>
    { sets := [.setbndl stack.setbndl reg 0xBEEF, .setbndu stack.setbndu reg 0xDEAD]
      gets := [(.getbndl stack.getbndl reg, .word 0xBEEF),
        (.getbndu stack.getbndu reg, .word 0xDEAD)] }

def testLowerGtUpper (stack : TestStack) : List Round :=
  registers.map fun reg =>
    { sets := [.setbndl stack.setbndl reg 0xDEAD, .setbndu stack.setbndu reg 0xBEEF]
      gets := [(.getbndl stack.getbndl reg, .word 0xDEAD),
        (.getbndu stack.getbndu reg, .word 0xBEEF)] }

def testUpperLtLower (stack : TestStack) : List Round :=
  registers.map fun reg =>
    { sets := [.setbndu stack.setbndu reg 0xBEEF, .setbndl stack.setbndl reg 0xDEAD]
      gets := [(.getbndl stack.getbndl reg, .word 0xDEAD),
        (.getbndu stack.getbndu reg, .word 0xBEEF)] }

def testUpperGtLower (stack : TestStack) : List Round :=
  registers.map fun reg =>
    { sets := [.setbndu stack.setbndu reg 0xDEAD, .setbndl stack.setbndl reg 0xBEEF]
      gets := [(.getbndl stack.getbndl reg, .word 0xBEEF),
        (.getbndu stack.getbndu reg, .word 0xDEAD)] }

/-- The constant is an unsigned long, so the shift drops its upper 16 bits. -/
def wideValue : BitVec 128 := ((0xDEADBEEFDEADBEEF : Word) <<< 16).setWidth 128

def testWide (stack : TestStack) : List Round :=
  registers.map fun reg =>
    { sets := [.setbnd reg wideValue]
      gets := [(.getbnd stack.getbnd reg, .wide wideValue)] }

def testQuick (stack : TestStack) : List Round :=
  registers.map fun reg =>
    { sets := [.qsetbndl reg 0xDEADBEEFDEADBEEF]
      gets := [(.qgetbndl stack.qgetbndl reg, .word 0xDEADBEEFDEADBEEF)] }

inductive UnitTest
  | lowerHalf
  | upperHalf
  | lowerLtUpper
  | lowerGtUpper
  | upperLtLower
  | upperGtLower
  | wide
  | quick
deriving DecidableEq, Repr

def UnitTest.rounds : UnitTest → TestStack → List Round
  | lowerHalf => testLowerHalf
  | upperHalf => testUpperHalf
  | lowerLtUpper => testLowerLtUpper
  | lowerGtUpper => testLowerGtUpper
  | upperLtLower => testUpperLtLower
  | upperGtLower => testUpperGtLower
  | wide => testWide
  | quick => testQuick

def simplexSuite : List UnitTest :=
  [.lowerHalf, .upperHalf, .lowerLtUpper, .lowerGtUpper, .upperLtLower, .upperGtLower, .wide, .quick]

/-! Running the tests -/

section Running

variable (cunit : CUnit) (platform : Platform)

abbrev Asserted := List Bool

def Round.assertEqual (round : Round) (results : List Returned) : Asserted :=
  List.zipWith (fun result expected => decide (result = expected)) results
    (round.gets.map Prod.snd)

def CUnit.assertAll (outcomes : Asserted) (machine : Machine) : Machine :=
  outcomes.foldl (fun machine outcome => cunit.asserted outcome machine) machine

def roundStep (round : Round) (machine : Machine) : Except Fault (Asserted × Machine) := do
  let (_, machine) ← runCalls platform round.sets machine
  let (results, machine) ← runCalls platform (round.gets.map Prod.fst) machine
  let outcomes := round.assertEqual results
  return (outcomes, cunit.assertAll outcomes machine)

def runRounds (rounds : List Round) (machine : Machine) : Except Fault (Asserted × Machine) := do
  let (asserted, machine) ← RunRules.run (roundStep cunit platform) rounds machine
  return (asserted.flatten, machine)

def testStep (test : UnitTest × TestStack) (machine : Machine) :
    Except Fault (Asserted × Machine) := do
  let (_, machine) ← runCalls platform (resetBndRegs test.2) (cunit.dispatch machine)
  runRounds cunit platform (test.1.rounds test.2) (cunit.dispatch machine)

def runTests (tests : List (UnitTest × TestStack)) (machine : Machine) :
    Except Fault (Asserted × Machine) := do
  let (asserted, machine) ← RunRules.run (testStep cunit platform) tests machine
  return (asserted.flatten, machine)

/-- The assertions of `CU_SUITE_SETUP` and `CU_SUITE_TEARDOWN` are fatal: the run ends with one
that does not hold. -/
def runSuite (setup teardown : Word) (tests : List (UnitTest × TestStack)) (machine : Machine) :
    Except Fault (Asserted × Machine) := do
  let (started, machine) ← callStep platform (.processSpecificInit setup) machine
  let ready := decide (started = .bool true)
  let machine := cunit.asserted ready machine
  if !ready then
    return ([false], machine)
  let (asserted, machine) ← runTests cunit platform tests machine
  let (stopped, machine) ← callStep platform (.processSpecificFinish teardown)
    (cunit.dispatch machine)
  let done := decide (stopped = .bool true)
  return (true :: asserted ++ [done], cunit.asserted done machine)

end Running

end SimplexTest

end SimplexMpx
