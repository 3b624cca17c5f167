import SimplexMpx.BlowfishCore

/-!
`test/bftest.c` of OpenSSL 1.1.0g before and after `bf.patch`: `main`, and the two functions it
chooses from as trees of memory accesses, messages and calls of the Blowfish functions.
-/

namespace SimplexMpx

open ByteMemory Interaction

namespace Blowfish

abbrev DriverState := State × List String

abbrev Driver := StateM DriverState

def printf (text : String) : Driver Unit := do
  beside nearBranch
  modify fun driver => (driver.1, driver.2 ++ [text])
  beside nearBranch

/-- `Calls` are the calls of Blowfish functions, which are given the key object of the test. -/
inductive DriverOperation (Calls : Type)
  | load (address : Word)
  | store (address : Word) (value : BitVec 8)
  | printf (text : String)
  | call (function : Calls)

def DriverOperation.Answer {Calls : Type} : DriverOperation Calls → Type
  | .load _ => BitVec 8
  | .store _ _ => Unit
  | .printf _ => Unit
  | .call _ => Unit

abbrev DriverText (Calls : Type) :=
  Tree (DriverOperation Calls) DriverOperation.Answer (BitVec 32)

/-- `key` is the address of the local `BF_KEY` of `test`. -/
structure Bftest where
  key : Word
  test : DriverText BfFunction
  printTestData : DriverText Empty

def operateDriver {Calls : Type} (call : Calls → Code Unit) :
    (operation : DriverOperation Calls) → Driver operation.Answer
  | .load address => do
      let value ← beside (load address 1)
      return BitVec.ofNat 8 value
  | .store address value => beside (store address 1 value.toNat)
  | .printf text => printf text
  | .call function => beside (call function)

variable (openSsl : OpenSsl) (program : Bftest)

def printTestData : Driver (BitVec 32) := do
  beside nearBranch
  let ret ← program.printTestData.interpret (operateDriver Empty.elim)
  beside nearBranch
  return ret

namespace Original

def test : Driver (BitVec 32) := do
  beside nearBranch
  let ret ← program.test.interpret (operateDriver fun function =>
    perform openSsl (version openSsl) ⟨program.key, function⟩)
  beside nearBranch
  return ret

def main (argc : Int) : Driver (BitVec 32) :=
  if argc > 1 then printTestData program else test openSsl program

end Original

namespace Patched

variable (rsp : Nat → Word)

def test : Driver (BitVec 32) := do
  beside nearBranch
  beside (qsetbndl BND0 program.key)
  let ret ← program.test.interpret (operateDriver fun function => do
    let key ← qgetbndl rsp BND0
    perform openSsl (version openSsl rsp) ⟨key, function⟩)
  beside nearBranch
  return ret

def testOrPrint (argc : Int) : Driver (BitVec 32) :=
  if argc > 1 then printTestData program else test openSsl program rsp

def callSwitch (body : Machine → Except Fault (Bool × Machine)) (driver : DriverState) :
    Except Fault (Bool × DriverState) := do
  let (value, machine) ← body driver.1.machine.nearBranch
  return (value, ({ driver.1 with machine := machine.nearBranch }, driver.2))

def main (platform : Platform) (buffer : Word) (argc : Int) (driver : DriverState) :
    Except Fault (BitVec 32 × DriverState) := do
  let (initialized, driver) ← callSwitch (processSpecificInit platform buffer) driver
  if !initialized then
    let ((), driver) := (printf "Simplex failed to initialize\n").run driver
    return (0, driver)
  let (ret, driver) := (testOrPrint openSsl program rsp argc).run driver
  let (finished, driver) ← callSwitch (processSpecificFinish platform buffer) driver
  if !finished then
    let ((), driver) := (printf "Simplex failed to finish\n").run driver
    return (0, driver)
  return (ret, driver)

end Patched

end Blowfish

end SimplexMpx
