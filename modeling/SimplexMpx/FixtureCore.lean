import SimplexMpx.BenchmarkCore
import SimplexMpx.ClientCore
import SimplexMpx.StringCore
import SimplexMpx.TraverseCore

/-!
`StringFixture` of `benchmark.cpp` with its benchmarks, those of the functions over bounds registers
and those of the plain ones. One run of the framework sets the fixture up, repeats the body and
tears the fixture down. Of `TraversalFixture` the set up and the two bodies.
-/

namespace SimplexMpx

open ByteMemory

/-- The fetches of a string function count as the client's. -/
def Client.stringCall {Foreign α : Type} (env : Environment Foreign)
    (body : Word → Traced → α × Traced) (client : Client Foreign) : Client Foreign :=
  let rsp := env.rsp client.accesses.length
  let (_, state) := body rsp
    { machine := client.machine.nearBranch, reads := [], writes := [], fetches := [] }
  { client with
    machine := state.machine.nearBranch
    accesses := state.fetches.map (fun (reg, val) => .fetched reg val) ++ client.accesses }

inductive FixtureCall
  | srandTime
  | malloc (ptr : Word)
  | randomize (ptr : Word)
  | corrupt (dst src : Word)
  | free (ptr : Word)
deriving DecidableEq, Repr

/-- The calls of `rand` since the sequence was last started, for buffers of 4 MB. -/
def drawn : List FixtureCall → Nat
  | [] => 0
  | .srandTime :: _ => 0
  | .malloc _ :: earlier => drawn earlier
  | .randomize ptr :: earlier => drawn earlier + if ptr = 0 then 0 else (4 * MB).toNat - 1
  | .corrupt dst _ :: earlier => drawn earlier + if dst = 0 then 0 else 1
  | .free _ :: earlier => drawn earlier

/-- The environment in which `randomize` and `corrupt` are the functions of `benchmark.cpp`. -/
def Environment.withBuffers (rand : Nat → BitVec 31) (env : Environment FixtureCall) :
    Environment FixtureCall :=
  { env with
    effect := fun calls foreign machine =>
      match foreign with
      | .randomize ptr =>
          let state := randomize rand ptr (4 * MB) (.start machine.mem (drawn calls))
          { machine with mem := state.mem }
      | .corrupt dst src =>
          match corrupt rand dst src (4 * MB) (.start machine.mem (drawn calls)) with
          | .ok state => { machine with mem := state.mem }
          | .error _ => machine
      | _ => env.effect calls foreign machine }

inductive SimplexBenchmark
  | simplexMemcmp
  | simplexMemcpy
  | simplexMemmove
  | simplexMemset
  | simplexMemchr
deriving DecidableEq, Repr

inductive LibgccBenchmark
  | libgccMemcmp
  | libgccMemcpy
  | libgccMemmove
  | libgccMemset
  | libgccMemchr
deriving DecidableEq, Repr

def LibgccBenchmark.counterpart : LibgccBenchmark → SimplexBenchmark
  | .libgccMemcmp => .simplexMemcmp
  | .libgccMemcpy => .simplexMemcpy
  | .libgccMemmove => .simplexMemmove
  | .libgccMemset => .simplexMemset
  | .libgccMemchr => .simplexMemchr

inductive StringValue
  | order (value : Int)
  | pointer (value : Word)
deriving DecidableEq, Repr

structure StringWork where
  value : StringValue
  reads : List Word
  writes : List Word
deriving DecidableEq, Repr

def Client.stringWork {Foreign : Type} (env : Environment Foreign)
    (body : Word → Traced → StringValue × Traced) (client : Client Foreign) : StringWork :=
  let rsp := env.rsp client.accesses.length
  let (value, state) := body rsp
    { machine := client.machine.nearBranch, reads := [], writes := [], fetches := [] }
  { value := value, reads := state.reads, writes := state.writes }

namespace StringFixture

variable (env : Environment FixtureCall)

def allocateBuffers (client : Client FixtureCall) : (Word × Word) × Client FixtureCall :=
  let client := client.call env .srandTime
  let (s1, client) := client.allocate env .malloc
  let (s2, client) := client.allocate env .malloc
  let client := client.call env (.randomize s1)
  let client := client.call env (.corrupt s2 s1)
  ((s1, s2), client)

def setUp (client : Client FixtureCall) : Except Fault ((Word × Word) × Client FixtureCall) := do
  let ((s1, s2), client) := allocateBuffers env client
  let (_, client) ← client.processSpecificInit env
  let client := client.qsetbndl BND1 s1
  let client := client.qsetbndl BND2 s2
  return ((s1, s2), client)

def tearDown (s1 s2 : Word) (client : Client FixtureCall) : Except Fault (Client FixtureCall) := do
  let client := client.call env (.free s1)
  let client := client.call env (.free s2)
  let (_, client) ← client.processSpecificFinish env
  return client

def body (benchmark : SimplexBenchmark) (sz s1 : Word) (client : Client FixtureCall) :
    Client FixtureCall :=
  match benchmark with
  | .simplexMemcmp => client.stringCall env fun rsp => simplexMemcmp rsp sz
  | .simplexMemcpy => client.stringCall env fun rsp => simplexMemcpy rsp sz
  | .simplexMemmove =>
      let client := client.qsetbndl BND1 s1
      let client := client.qsetbndl BND2 (s1 + sz / 4 + 1)
      client.stringCall env fun rsp => simplexMemmove rsp (sz / 2)
  | .simplexMemset => client.stringCall env fun rsp => simplexMemset rsp 0x43 sz
  | .simplexMemchr => client.stringCall env fun rsp => simplexMemchr rsp 0 sz

def bodies (benchmark : SimplexBenchmark) (sz s1 : Word) :
    Nat → Client FixtureCall → Client FixtureCall
  | 0, client => client
  | iterations + 1, client => bodies benchmark sz s1 iterations (body env benchmark sz s1 client)

def run (benchmark : SimplexBenchmark) (sz : Word) (iterations : Nat)
    (client : Client FixtureCall) : Except Fault (Client FixtureCall) := do
  let ((s1, s2), client) ← setUp env client
  let client := bodies env benchmark sz s1 iterations client
  tearDown env s1 s2 client

/-! The benchmarks of the plain functions, and the work both kinds do -/

def libgccCall (benchmark : LibgccBenchmark) (sz s1 s2 : Word) (state : Traced) :
    StringValue × Traced :=
  match benchmark with
  | .libgccMemcmp => (libgccMemcmp s1 s2 sz state).map .order id
  | .libgccMemcpy => (libgccMemcpy s1 s2 sz state).map .pointer id
  | .libgccMemmove => (libgccMemmove s1 (s1 + sz / 4 + 1) (sz / 2) state).map .pointer id
  | .libgccMemset => (libgccMemset s1 0x43 sz state).map .pointer id
  | .libgccMemchr => (libgccMemchr s1 0x0 sz state).map .pointer id

def libgccBody (benchmark : LibgccBenchmark) (sz s1 s2 : Word) (client : Client FixtureCall) :
    Client FixtureCall :=
  client.stringCall env fun _ => libgccCall benchmark sz s1 s2

def simplexCall (benchmark : SimplexBenchmark) (rsp sz : Word) (state : Traced) :
    StringValue × Traced :=
  match benchmark with
  | .simplexMemcmp => (simplexMemcmp rsp sz state).map .order id
  | .simplexMemcpy => (simplexMemcpy rsp sz state).map .pointer id
  | .simplexMemmove => (simplexMemmove rsp (sz / 2) state).map .pointer id
  | .simplexMemset => (simplexMemset rsp 0x43 sz state).map .pointer id
  | .simplexMemchr => (simplexMemchr rsp 0 sz state).map .pointer id

def aim (benchmark : SimplexBenchmark) (sz s1 : Word) (client : Client FixtureCall) :
    Client FixtureCall :=
  match benchmark with
  | .simplexMemmove => (client.qsetbndl BND1 s1).qsetbndl BND2 (s1 + sz / 4 + 1)
  | _ => client

def libgccWork (benchmark : LibgccBenchmark) (sz s1 s2 : Word) :
    Nat → Client FixtureCall → List StringWork
  | 0, _ => []
  | iterations + 1, client =>
      client.stringWork env (fun _ => libgccCall benchmark sz s1 s2) ::
        libgccWork benchmark sz s1 s2 iterations (libgccBody env benchmark sz s1 s2 client)

def simplexWork (benchmark : SimplexBenchmark) (sz s1 : Word) :
    Nat → Client FixtureCall → List StringWork
  | 0, _ => []
  | iterations + 1, client =>
      (aim benchmark sz s1 client).stringWork env (fun rsp => simplexCall benchmark rsp sz) ::
        simplexWork benchmark sz s1 iterations (body env benchmark sz s1 client)

def libgccBodies (benchmark : LibgccBenchmark) (sz s1 s2 : Word) :
    Nat → Client FixtureCall → Client FixtureCall
  | 0, client => client
  | iterations + 1, client =>
      libgccBodies benchmark sz s1 s2 iterations (libgccBody env benchmark sz s1 s2 client)

end StringFixture

/-- A call with two arguments: `call` pushes the return address and branches. -/
def Cpu.callWith (returnAddress first second : Word) (cpu : Cpu) : Cpu :=
  let cpu := cpu.set .rdi first
  let cpu := cpu.set .rsi second
  let cpu := (cpu.set .rsp (cpu.reg .rsp - 8)).store (cpu.reg .rsp - 8) returnAddress
  cpu.branch

namespace TraversalFixture

/-- `field` is the address of the member, `&this->buffer`, which the bodies pass on. -/
def setUp (env : Environment FixtureCall) (field : Word) (client : Client FixtureCall) :
    Except Fault (Word × Client FixtureCall) := do
  let client := client.call env .srandTime
  let (ptr, client) := client.allocate env .malloc
  let client := { client with machine := client.machine.store field ptr }
  let client := client.call env (.randomize (client.machine.load field))
  let (_, client) ← client.processSpecificInit env
  return (ptr, client)

def gpTraverse (field returnAddress sz : Word) (fuel : Nat) (cpu : Cpu) :
    Option (List Round × Cpu) :=
  gptraverse fuel (cpu.callWith returnAddress field sz)

def mpxTraverse (field returnAddress sz : Word) (fuel : Nat) (cpu : Cpu) :
    Option (List Round × Cpu) :=
  mpxtraverse fuel (cpu.callWith returnAddress field sz)

end TraversalFixture

end SimplexMpx
