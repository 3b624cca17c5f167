import SimplexMpx.ClientCore

/-!
`main` of 531.deepsjeng_r after `531.deepsjeng_r.patch` and before it. The patched program keeps the
`state_t` in BND0 and the `gamestate_t` in BND1. Operands are evaluated from left to right; the
operand of `sizeof` is not.
-/

namespace SimplexMpx

open ByteMemory

/-- Constants of the headers of the benchmark stand for themselves. -/
inductive SjengValue
  | number (value : Int)
  | FALSE
  | TRUE
  | OPENING
  | WHITE
deriving DecidableEq, Repr

inductive StdStream
  | stdin
  | stdout
deriving DecidableEq, Repr

inductive GamestateField
  | movesToTc
  | minPerGame
  | secPerGame
  | timeLeft
  | compColor
  | fixedTime
  | phase
  | rootToMove
  | moveNumber
deriving DecidableEq, Repr

inductive GamestateArray
  | gameHistory
  | gameHistoryX
deriving DecidableEq, Repr

inductive SjengGlobal
  | contempt
  | isPondering
  | allowPondering
  | isAnalyzing
  | timeCheckLog
  | bufferedCount
deriving DecidableEq, Repr

/-- The calls and assignments of `main` with the pointers they are given. -/
inductive SjengCall
  | mallocState (ptr : Word)
  | mallocGamestate (ptr : Word)
  | setbuf (stream : StdStream)
  | startUp
  | initParameters (g : Word)
  | initializeZobrist (s : Word)
  | setupPrecalculatedData
  | preprocessPrepare
  | mysrand (seed : Nat)
  | initGame (g s : Word)
  | initializeHash (s : Word)
  | clearTt
  | clearPawnTt
  | assignPly (s : Word) (value : Int)
  | assignGamestate (g : Word) (field : GamestateField) (value : SjengValue)
  | assignGlobal (target : SjengGlobal) (value : SjengValue)
  | memsetGamestate (g : Word) (array : GamestateArray)
  | assignHashHistory (s g s' : Word)
  | memsetBufferedCommand
  | runEpdTestsuite (g s : Word) (testname : String)
  | myprintf (text : String)
  | free (ptr : Word)
deriving DecidableEq, Repr

inductive ExitStatus
  | EXIT_SUCCESS
  | EXIT_FAILURE
deriving DecidableEq, Repr

namespace Sjeng

variable (env : Environment SjengCall)

def allocate (client : Client SjengCall) : Client SjengCall :=
  let (ptr, client) := client.allocate env .mallocState
  let client := client.qsetbndl BND0 ptr
  let (ptr, client) := client.allocate env .mallocGamestate
  client.qsetbndl BND1 ptr

def prepare (client : Client SjengCall) : Client SjengCall :=
  let client := client.call env (.setbuf .stdout)
  let client := client.call env (.setbuf .stdin)
  let client := client.call env .startUp
  let client := client.callOn env BND1 .initParameters
  let client := client.callOn env BND0 .initializeZobrist
  let client := client.call env .setupPrecalculatedData
  let client := client.call env .preprocessPrepare
  let client := client.call env (.mysrand 12345)
  let (g, client) := client.qgetbndl env BND1
  let (s, client) := client.qgetbndl env BND0
  let client := client.call env (.initGame g s)
  let client := client.callOn env BND0 .initializeHash
  let client := client.call env .clearTt
  client.call env .clearPawnTt

def assignGamestate (field : GamestateField) (value : SjengValue) (client : Client SjengCall) :
    Client SjengCall :=
  client.performOn env BND1 (.assignGamestate · field value)

def assignParameters (client : Client SjengCall) : Client SjengCall :=
  let client := client.performOn env BND0 (.assignPly · 0)
  let client := assignGamestate env .movesToTc (.number 40) client
  let client := assignGamestate env .minPerGame (.number 15) client
  let client := assignGamestate env .secPerGame (.number 0) client
  let client := assignGamestate env .timeLeft (.number (15 * 60 * 100)) client
  let client := client.perform env (.assignGlobal .contempt (.number 0))
  let client := assignGamestate env .compColor (.number 0) client
  let client := client.perform env (.assignGlobal .isPondering .FALSE)
  let client := client.perform env (.assignGlobal .allowPondering .TRUE)
  let client := client.perform env (.assignGlobal .isAnalyzing .FALSE)
  let client := assignGamestate env .fixedTime .FALSE client
  let client := assignGamestate env .phase .OPENING client
  let client := assignGamestate env .rootToMove .WHITE client
  let client := client.perform env (.assignGlobal .timeCheckLog (.number 14))
  assignGamestate env .moveNumber (.number 0) client

def clearHistory (client : Client SjengCall) : Client SjengCall :=
  let client := client.callOn env BND1 (.memsetGamestate · .gameHistory)
  let client := client.callOn env BND1 (.memsetGamestate · .gameHistoryX)
  let (s, client) := client.qgetbndl env BND0
  let (g, client) := client.qgetbndl env BND1
  let (s', client) := client.qgetbndl env BND0
  let client := client.perform env (.assignHashHistory s g s')
  let client := client.call env .memsetBufferedCommand
  client.perform env (.assignGlobal .bufferedCount (.number 0))

def testOrComplain (argv : List String) (client : Client SjengCall) :
    ExitStatus × Client SjengCall :=
  match argv with
  | [testname] =>
      let (g, client) := client.qgetbndl env BND1
      let (s, client) := client.qgetbndl env BND0
      (.EXIT_SUCCESS, client.call env (.runEpdTestsuite g s testname))
  | _ => (.EXIT_FAILURE, client.call env (.myprintf "Please specify the workfile.\n"))

def release (client : Client SjengCall) : Client SjengCall :=
  let client := client.callOn env BND0 .free
  client.callOn env BND1 .free

def main (argv : List String) (client : Client SjengCall) :
    Except Fault (ExitStatus × Client SjengCall) := do
  let (_, client) ← client.processSpecificInit env
  let client := allocate env client
  let client := prepare env client
  let client := assignParameters env client
  let client := clearHistory env client
  let (status, client) := testOrComplain env argv client
  let client := release env client
  let (_, client) ← client.processSpecificFinish env
  return (status, client)

end Sjeng

/-! The original program, with `state` and `gamestate` in static storage. -/

/-- `state` and `gamestate` are the addresses of the two globals. -/
structure SjengOriginal where
  state : Word
  gamestate : Word
  calls : List SjengCall

namespace SjengOriginal

def call (foreign : SjengCall) (original : SjengOriginal) : SjengOriginal :=
  { original with calls := foreign :: original.calls }

def prepare (original : SjengOriginal) : SjengOriginal :=
  let original := original.call (.setbuf .stdout)
  let original := original.call (.setbuf .stdin)
  let original := original.call .startUp
  let original := original.call (.initParameters original.gamestate)
  let original := original.call (.initializeZobrist original.state)
  let original := original.call .setupPrecalculatedData
  let original := original.call .preprocessPrepare
  let original := original.call (.mysrand 12345)
  let original := original.call (.initGame original.gamestate original.state)
  let original := original.call (.initializeHash original.state)
  let original := original.call .clearTt
  original.call .clearPawnTt

def assignGamestate (field : GamestateField) (value : SjengValue) (original : SjengOriginal) :
    SjengOriginal :=
  original.call (.assignGamestate original.gamestate field value)

def assignParameters (original : SjengOriginal) : SjengOriginal :=
  let original := original.call (.assignPly original.state 0)
  let original := original.assignGamestate .movesToTc (.number 40)
  let original := original.assignGamestate .minPerGame (.number 15)
  let original := original.assignGamestate .secPerGame (.number 0)
  let original := original.assignGamestate .timeLeft (.number (15 * 60 * 100))
  let original := original.call (.assignGlobal .contempt (.number 0))
  let original := original.assignGamestate .compColor (.number 0)
  let original := original.call (.assignGlobal .isPondering .FALSE)
  let original := original.call (.assignGlobal .allowPondering .TRUE)
  let original := original.call (.assignGlobal .isAnalyzing .FALSE)
  let original := original.assignGamestate .fixedTime .FALSE
  let original := original.assignGamestate .phase .OPENING
  let original := original.assignGamestate .rootToMove .WHITE
  let original := original.call (.assignGlobal .timeCheckLog (.number 14))
  original.assignGamestate .moveNumber (.number 0)

def clearHistory (original : SjengOriginal) : SjengOriginal :=
  let original := original.call (.memsetGamestate original.gamestate .gameHistory)
  let original := original.call (.memsetGamestate original.gamestate .gameHistoryX)
  let original := original.call
    (.assignHashHistory original.state original.gamestate original.state)
  let original := original.call .memsetBufferedCommand
  original.call (.assignGlobal .bufferedCount (.number 0))

def testOrComplain (argv : List String) (original : SjengOriginal) : ExitStatus × SjengOriginal :=
  match argv with
  | [testname] =>
      (.EXIT_SUCCESS,
        original.call (.runEpdTestsuite original.gamestate original.state testname))
  | _ => (.EXIT_FAILURE, original.call (.myprintf "Please specify the workfile.\n"))

def main (argv : List String) (original : SjengOriginal) : ExitStatus × SjengOriginal :=
  original.prepare.assignParameters.clearHistory.testOrComplain argv

end SjengOriginal

/-- The calls that allocate or free, latest first. -/
def heapCalls (calls : List SjengCall) : List SjengCall :=
  calls.filter fun
    | .mallocState _ => true
    | .mallocGamestate _ => true
    | .free _ => true
    | _ => false

end SimplexMpx
