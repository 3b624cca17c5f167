import SimplexMpx.Interaction
import SimplexMpx.RegisterCore

/-!
The Blowfish functions of OpenSSL 1.1.0g before and after `bf.patch`. The lines the patch shows are
written out; the rest of each function is a tree of memory accesses and calls over its arguments.
A local array `BF_LONG [2]` is its contents.
-/

namespace SimplexMpx

open ByteMemory Interaction

namespace Blowfish

abbrev BfLong := BitVec 32

abbrev Data := BfLong × BfLong

/-- `touched` are the ranges of bytes read or written so far, latest first; `fetches` counts the
calls of `qgetbndl`. -/
structure State where
  machine : Machine
  touched : List (Word × Nat)
  fetches : Nat

abbrev Code := StateM State

def load (base : Word) (size : Nat) : Code Nat := fun state =>
  (loadBytes state.machine.mem base size, { state with touched := (base, size) :: state.touched })

def store (base : Word) (size value : Nat) : Code Unit := fun state =>
  ((), { state with
    machine := { state.machine with mem := storeBytes state.machine.mem base size value }
    touched := (base, size) :: state.touched })

def loadLong (base : Word) : Code BfLong := do
  let value ← load base 4
  return BitVec.ofNat 32 value

def storeLong (base : Word) (value : BfLong) : Code Unit := store base 4 value.toNat

def element (base : Word) (index : Nat) : Word := base + BitVec.ofNat 64 (4 * index)

def loadArray (base : Word) (count : Nat) : Code (List BfLong) := fun state =>
  ((List.range count).map fun index =>
      BitVec.ofNat 32 (loadBytes state.machine.mem (element base index) 4),
    { state with touched := (base, 4 * count) :: state.touched })

/-! Calls -/

def nearBranch : Code Unit := fun state =>
  ((), { state with machine := state.machine.nearBranch })

def nearCall {α : Type} (body : Code α) : Code α := do
  nearBranch
  let value ← body
  nearBranch
  return value

/-- `rsp` gives the stack pointer of the n-th call. -/
def qgetbndl (rsp : Nat → Word) (reg : BndregT) : Code Word := fun state =>
  let (value, machine) := state.machine.nearCall (SimplexMpx.qgetbndl (rsp state.fetches) reg)
  (value, { state with machine := machine, fetches := state.fetches + 1 })

def qsetbndl (reg : BndregT) (val : Word) : Code Unit := fun state =>
  let (_, machine) := state.machine.nearCall (procedure (SimplexMpx.qsetbndl reg val))
  ((), { state with machine := machine })

/-! What the patch does not show -/

inductive CbcFile
  | bfCbc
  | bfEnc
deriving DecidableEq, Repr

/-- The lines of `BF_cbc_encrypt` around a call, with the variables they read. They are the same
in its loop and in its tail. -/
inductive CbcLines
  | encrypt (tin0 tin1 tout1 : BfLong)
  | decrypt (tin0 tin1 xor0 xor1 : BfLong)

/-- `bfEncrypt` and `bfDecrypt` are calls that pass on the function's own key argument. -/
inductive Operation (Lines : Type)
  | load (address : Word)
  | store (address : Word) (value : BitVec 8)
  | bfEncrypt (data : Data)
  | bfDecrypt (data : Data)
  | lines (shown : Lines)

def Operation.Answer {Lines : Type} : Operation Lines → Type
  | .load _ => BitVec 8
  | .store _ _ => Unit
  | .bfEncrypt _ => Data
  | .bfDecrypt _ => Data
  | .lines _ => Data

abbrev Text (Lines α : Type) := Tree (Operation Lines) Operation.Answer α

/-- `encryptBlock` and `decryptBlock` take the arrays `P` and `S` of a key object. `setKeyStart` is
`BF_set_key` before it turns to `S`, and `setKeyRest` the end of the loop body over `S`; both
return the local array `in`. -/
structure OpenSsl where
  offsetP : Word
  lengthP : Nat
  offsetS : Word
  encryptBlock : List BfLong → List BfLong → Data → Data
  decryptBlock : List BfLong → List BfLong → Data → Data
  setKeyStart (key : Word) (len : BitVec 32) (data : Word) : Text Empty Data
  setKeyRest (p : Word) (i : Nat) (block : Data) : Text Empty Data
  cbcEncrypt (file : CbcFile) (input out length schedule ivec : Word) (encrypt : BitVec 32) :
    Text CbcLines Unit
  ecbEncrypt (input out key : Word) (encrypt : BitVec 32) : Text Empty Unit
  cfb64Encrypt (input out length schedule ivec num : Word) (encrypt : BitVec 32) : Text Empty Unit
  ofb64Encrypt (input out length schedule ivec num : Word) : Text Empty Unit

variable (openSsl : OpenSsl)

def crypt (compute : List BfLong → List BfLong → Data → Data) (p s : Word) (data : Data) :
    Code Data := do
  let arrayP ← loadArray p openSsl.lengthP
  let arrayS ← loadArray s (4 * 256)
  return compute arrayP arrayS data

/-! What the patch changes -/

/-- The two block functions, the key argument of the calls in `BF_cbc_encrypt`, and the object
whose array `S` `BF_set_key` writes. -/
structure Version where
  bfEncrypt (data : Data) (key : Word) : Code Data
  bfDecrypt (data : Data) (key : Word) : Code Data
  cbcEncryptKey (file : CbcFile) (schedule : Word) : Code Word
  cbcDecryptKey (file : CbcFile) (schedule : Word) : Code Word
  setKeyObject (key : Word) : Code Word

namespace Original

def bfBlock (compute : List BfLong → List BfLong → Data → Data) (data : Data) (key : Word) :
    Code Data := nearCall do
  let p := key + openSsl.offsetP
  let s := key + openSsl.offsetS
  crypt openSsl compute p s data

def bfEncrypt : Data → Word → Code Data := bfBlock openSsl openSsl.encryptBlock

def bfDecrypt : Data → Word → Code Data := bfBlock openSsl openSsl.decryptBlock

def version : Version where
  bfEncrypt := bfEncrypt openSsl
  bfDecrypt := bfDecrypt openSsl
  cbcEncryptKey _ schedule := pure schedule
  cbcDecryptKey _ schedule := pure schedule
  setKeyObject key := pure key

end Original

namespace Patched

variable (rsp : Nat → Word)

def bfBlock (compute : List BfLong → List BfLong → Data → Data) (data : Data) (_key : Word) :
    Code Data := nearCall do
  let object ← qgetbndl rsp BND0
  let p := object + openSsl.offsetP
  let object ← qgetbndl rsp BND0
  let s := object + openSsl.offsetS
  crypt openSsl compute p s data

def bfEncrypt : Data → Word → Code Data := bfBlock openSsl rsp openSsl.encryptBlock

def bfDecrypt : Data → Word → Code Data := bfBlock openSsl rsp openSsl.decryptBlock

def version : Version where
  bfEncrypt := bfEncrypt openSsl rsp
  bfDecrypt := bfDecrypt openSsl rsp
  cbcEncryptKey
    | .bfCbc, schedule => pure schedule
    | .bfEnc, _ => qgetbndl rsp BND0
  cbcDecryptKey
    | .bfCbc, _ => pure 0 -- NULL
    | .bfEnc, _ => qgetbndl rsp BND0
  setKeyObject _ := qgetbndl rsp BND0

end Patched

/-! The functions -/

section Functions

variable (version : Version)

def cbcLines (file : CbcFile) (schedule : Word) : CbcLines → Code Data
  | .encrypt tin0 tin1 tout1 => do
      let tin1 := tin1 ^^^ tout1
      let key ← version.cbcEncryptKey file schedule
      let tin ← version.bfEncrypt (tin0, tin1) key
      let tout0 := tin.1
      let tout1 := tin.2
      return (tout0, tout1)
  | .decrypt tin0 tin1 xor0 xor1 => do
      let key ← version.cbcDecryptKey file schedule
      let tin ← version.bfDecrypt (tin0, tin1) key
      let tout0 := tin.1 ^^^ xor0
      let tout1 := tin.2 ^^^ xor1
      return (tout0, tout1)

def operate {Lines : Type} (key : Word) (shown : Lines → Code Data) :
    (operation : Operation Lines) → Code operation.Answer
  | .load address => do
      let value ← load address 1
      return BitVec.ofNat 8 value
  | .store address value => store address 1 value.toNat
  | .bfEncrypt data => version.bfEncrypt data key
  | .bfDecrypt data => version.bfDecrypt data key
  | .lines lines => shown lines

def execute {α : Type} (key : Word) (text : Text Empty α) : Code α :=
  text.interpret (operate version key Empty.elim)

def setKeyRound (key p : Word) (block : Data) (i : Nat) : Code Data := do
  let block ← version.bfEncrypt block key
  storeLong (element p i) block.1
  execute version key (openSsl.setKeyRest p i block)

def bfSetKey (key : Word) (len : BitVec 32) (data : Word) : Code Unit := nearCall do
  let block ← execute version key (openSsl.setKeyStart key len data)
  let object ← version.setKeyObject key
  let p := object + openSsl.offsetS
  -- for (i = 0; i < 4 * 256; i += 2)
  let _ ← ((List.range (2 * 256)).map (2 * ·)).foldlM (setKeyRound openSsl version key p) block

def bfCbcEncrypt (file : CbcFile) (input out length schedule ivec : Word) (encrypt : BitVec 32) :
    Code Unit := nearCall
  ((openSsl.cbcEncrypt file input out length schedule ivec encrypt).interpret
    (operate version schedule (cbcLines version file schedule)))

def bfEcbEncrypt (input out key : Word) (encrypt : BitVec 32) : Code Unit := nearCall
  (execute version key (openSsl.ecbEncrypt input out key encrypt))

def bfCfb64Encrypt (input out length schedule ivec num : Word) (encrypt : BitVec 32) : Code Unit :=
  nearCall (execute version schedule
    (openSsl.cfb64Encrypt input out length schedule ivec num encrypt))

def bfOfb64Encrypt (input out length schedule ivec num : Word) : Code Unit := nearCall
  (execute version schedule (openSsl.ofb64Encrypt input out length schedule ivec num))

/-- A block function on an array in memory: it reads the array first and writes it last. -/
def onArray (function : Data → Code Data) (data : Word) : Code Unit := do
  let l ← loadLong (element data 0)
  let r ← loadLong (element data 1)
  let result ← function (l, r)
  storeLong (element data 1) result.2
  storeLong (element data 0) result.1

end Functions

/-! Sequences of calls -/

inductive BfFunction
  | setKey (len : BitVec 32) (data : Word)
  | encrypt (data : Word)
  | decrypt (data : Word)
  | cbcEncrypt (file : CbcFile) (input out length ivec : Word) (encrypt : BitVec 32)
  | ecbEncrypt (input out : Word) (encrypt : BitVec 32)
  | cfb64Encrypt (input out length ivec num : Word) (encrypt : BitVec 32)
  | ofb64Encrypt (input out length ivec num : Word)
deriving DecidableEq, Repr

structure BfCall where
  key : Word
  function : BfFunction
deriving DecidableEq, Repr

def perform (version : Version) (call : BfCall) : Code Unit :=
  match call.function with
  | .setKey len data => bfSetKey openSsl version call.key len data
  | .encrypt data => onArray (version.bfEncrypt · call.key) data
  | .decrypt data => onArray (version.bfDecrypt · call.key) data
  | .cbcEncrypt file input out length ivec encrypt =>
      bfCbcEncrypt openSsl version file input out length call.key ivec encrypt
  | .ecbEncrypt input out encrypt => bfEcbEncrypt openSsl version input out call.key encrypt
  | .cfb64Encrypt input out length ivec num encrypt =>
      bfCfb64Encrypt openSsl version input out length call.key ivec num encrypt
  | .ofb64Encrypt input out length ivec num =>
      bfOfb64Encrypt openSsl version input out length call.key ivec num

def originalCalls (calls : List BfCall) : Code Unit :=
  calls.forM (perform openSsl (Original.version openSsl))

/-- Each call is preceded by `qsetbndl (BND0, key)`. -/
def patchedCalls (rsp : Nat → Word) (calls : List BfCall) : Code Unit :=
  calls.forM fun call => do
    qsetbndl BND0 call.key
    perform openSsl (Patched.version openSsl rsp) call

def start (machine : Machine) : State := { machine := machine, touched := [], fetches := 0 }

end Blowfish

end SimplexMpx
