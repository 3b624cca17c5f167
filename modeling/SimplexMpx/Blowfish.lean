import SimplexMpx.BlowfishCore
import SimplexMpx.Client

/-!
The patched Blowfish functions do what the original ones do while BND0 holds the key pointer. Two
runs are compared outside the slots that `qgetbndl` spills to.
-/

namespace SimplexMpx

open ByteMemory Interaction

namespace Blowfish

def InSlots (rsp : Nat → Word) (address : Word) : Prop := ∃ n, InSlot (rsp n) address

/-- No byte touched so far is hidden. -/
def Clear (hidden : Word → Prop) (state : State) : Prop :=
  ∀ range ∈ state.touched, ∀ offset < range.2, ¬hidden (range.1 + BitVec.ofNat 64 offset)

structure SameMemory (hidden : Word → Prop) (original patched : State) : Prop where
  mem : ∀ address, ¬hidden address → original.machine.mem address = patched.machine.mem address
  enabled : patched.machine.mpx.Enabled

structure KeyHeld (hidden : Word → Prop) (key : Word) (original patched : State) : Prop
    extends SameMemory hidden original patched where
  pointer : patched.machine.lower BND0 = key

abbrev Agrees {α : Type} (hidden : Word → Prop) (key : Word) (original patched : Code α) : Prop :=
  Simulates (Clear hidden) (KeyHeld hidden key) (KeyHeld hidden key) original patched

variable {openSsl : OpenSsl} {hidden : Word → Prop} {rsp : Nat → Word} {key : Word}

/-! Memory -/

theorem clear_earlier {state later : State} {range : Word × Nat}
    (touched : later.touched = range :: state.touched) (clear : Clear hidden later) :
    Clear hidden state := by
  intro earlier member
  apply clear earlier
  rw [touched]
  exact List.mem_cons_of_mem range member

theorem load_agrees (base : Word) (size : Nat) :
    Agrees hidden key (load base size) (load base size) := by
  constructor
  · intro state clear
    exact clear_earlier rfl clear
  · intro original patched held clear
    have bytes : ∀ offset < size, original.machine.mem (base + BitVec.ofNat 64 offset) =
        patched.machine.mem (base + BitVec.ofNat 64 offset) := by
      intro offset inside
      exact held.mem _ (clear (base, size) List.mem_cons_self offset inside)
    exact ⟨loadBytes_congr_offsets bytes, ⟨held.mem, held.enabled⟩, held.pointer⟩

theorem store_agrees (base : Word) (size value : Nat) :
    Agrees hidden key (store base size value) (store base size value) := by
  constructor
  · intro state clear
    exact clear_earlier rfl clear
  · intro original patched held clear
    refine ⟨rfl, ⟨?_, held.enabled⟩, held.pointer⟩
    intro address apart
    simp only [store, StateT.run, storeBytes]
    by_cases inside : Within base size address
    · rw [if_pos inside, if_pos inside]
    · rw [if_neg inside, if_neg inside, held.mem address apart]

theorem loadLong_agrees (base : Word) : Agrees hidden key (loadLong base) (loadLong base) :=
  (load_agrees base 4).bind fun value => .pure (BitVec.ofNat 32 value)

theorem storeLong_agrees (base : Word) (value : BfLong) :
    Agrees hidden key (storeLong base value) (storeLong base value) :=
  store_agrees base 4 value.toNat

theorem loadArray_agrees (base : Word) (count : Nat) :
    Agrees hidden key (loadArray base count) (loadArray base count) := by
  constructor
  · intro state clear
    exact clear_earlier rfl clear
  · intro original patched held clear
    have bytes : ∀ index < count, loadBytes original.machine.mem (element base index) 4 =
        loadBytes patched.machine.mem (element base index) 4 := by
      intro index inside
      apply loadBytes_congr_offsets
      intro offset low
      rw [element, add_assoc, ← BitVec.ofNat_add]
      exact held.mem _ (clear (base, 4 * count) List.mem_cons_self (4 * index + offset) (by omega))
    refine ⟨?_, ⟨held.mem, held.enabled⟩, held.pointer⟩
    apply List.map_congr_left
    intro index member
    rw [bytes index (List.mem_range.mp member)]

/-! Calls and registers -/

theorem nearBranch_agrees : Agrees hidden key nearBranch nearBranch := by
  refine ⟨fun state clear => clear, ?_⟩
  intro original patched held clear
  have kept : patched.machine.nearBranch = patched.machine :=
    Machine.nearBranch_of_enabled held.enabled
  refine ⟨rfl, ⟨?_, ?_⟩, ?_⟩
  · intro address apart
    simp only [nearBranch, StateT.run, kept, Machine.nearBranch_mem]
    exact held.mem address apart
  · simpa only [nearBranch, StateT.run, kept] using held.enabled
  · simpa only [nearBranch, StateT.run, kept] using held.pointer

theorem nearCall_agrees {α : Type} {body body' : Code α} (agrees : Agrees hidden key body body') :
    Agrees hidden key (nearCall body) (nearCall body') :=
  nearBranch_agrees.bind fun _ => agrees.bind fun value =>
    nearBranch_agrees.bind fun _ => .pure value

theorem qgetbndl_run {state : State} (enabled : state.machine.mpx.Enabled) :
    (qgetbndl rsp BND0).run state = (state.machine.lower BND0,
      { state with
        machine := afterQuickAccess (rsp state.fetches) BND0 state.machine
        fetches := state.fetches + 1 }) := by
  have called := nearCall_qgetbndl enabled (rsp state.fetches) BND0
  rw [accessed_of_en enabled.1] at called
  simp only [qgetbndl, StateT.run, called]
  rfl

section Fetch

variable (hides : ∀ address, InSlots rsp address → hidden address)
include hides

theorem qgetbndl_quiet {original patched : State} (held : KeyHeld hidden key original patched) :
    ((qgetbndl rsp BND0).run patched).1 = key ∧
      KeyHeld hidden key original ((qgetbndl rsp BND0).run patched).2 := by
  have mpx := afterQuickAccess_mpx (rsp patched.fetches) BND0 patched.machine
  rw [qgetbndl_run held.enabled]
  refine ⟨held.pointer, ⟨?_, ?_⟩, ?_⟩
  · intro address apart
    simp only
    rw [afterQuickAccess_mem_outside (fun inside => apart (hides address ⟨_, inside⟩))]
    exact held.mem address apart
  · rw [mpx]
    exact held.enabled
  · rw [lower_of_mpx_eq mpx]
    exact held.pointer

/-- A fetch of the pointer in the patched text, where the original has the argument. -/
theorem fetch_agrees {α : Type} {original : Code α} {rest : Word → Code α}
    (agrees : Agrees hidden key original (rest key)) :
    Agrees hidden key original (qgetbndl rsp BND0 >>= rest) :=
  .silent (fun _ _ held => qgetbndl_quiet hides held) agrees

end Fetch

theorem qsetbndl_holds (key : Word) {original patched : State}
    (same : SameMemory hidden original patched) :
    KeyHeld hidden key original ((qsetbndl BND0 key).run patched).2 := by
  have called := nearCall_qsetbndl same.enabled BND0 key
  simp only [qsetbndl, StateT.run, called]
  refine ⟨⟨?_, writePair_enabled same.enabled "qsetbndl" BND0 key 0⟩,
    writePair_lower_self same.enabled.1 rfl "qsetbndl" key 0⟩
  intro address apart
  rw [writePair_mem]
  exact same.mem address apart

/-! Block functions -/

theorem crypt_agrees (compute : List BfLong → List BfLong → Data → Data) (p s : Word)
    (data : Data) :
    Agrees hidden key (crypt openSsl compute p s data) (crypt openSsl compute p s data) :=
  (loadArray_agrees p openSsl.lengthP).bind fun arrayP =>
    (loadArray_agrees s (4 * 256)).bind fun arrayS => .pure (compute arrayP arrayS data)

/-- The argument is not used, and what is read are the arrays of the object BND0 points to. -/
structure KeyUnused (openSsl : OpenSsl) (function : Data → Word → Code Data) : Prop where
  same : ∀ data key key', function data key = function data key'
  reads : ∀ data key state, state.machine.mpx.Enabled →
    ((function data key).run state).2.touched =
      (state.machine.lower BND0 + openSsl.offsetS, 4 * (4 * 256)) ::
        (state.machine.lower BND0 + openSsl.offsetP, 4 * openSsl.lengthP) :: state.touched

theorem crypt_touched (compute : List BfLong → List BfLong → Data → Data) (p s : Word)
    (data : Data) (state : State) :
    ((crypt openSsl compute p s data).run state).2.touched =
      (s, 4 * (4 * 256)) :: (p, 4 * openSsl.lengthP) :: state.touched := by
  have loaded (base : Word) (count : Nat) (before : State) :
      ((loadArray base count).run before).2 =
        { before with touched := (base, 4 * count) :: before.touched } := rfl
  rw [crypt, run_bind, run_bind, run_pure, loaded, loaded]

theorem bfBlock_keyUnused (compute : List BfLong → List BfLong → Data → Data) :
    KeyUnused openSsl (Patched.bfBlock openSsl rsp compute) := by
  refine ⟨fun _ _ _ => rfl, ?_⟩
  intro data key state enabled
  have entered : (nearBranch.run state).2 = state := by
    simp only [nearBranch, StateT.run, Machine.nearBranch_of_enabled enabled]
  have left (after : State) : (nearBranch.run after).2.touched = after.touched := rfl
  have mpx (slot : Word) := afterQuickAccess_mpx slot BND0 state.machine
  rw [Patched.bfBlock, nearCall, run_bind, entered, run_bind, run_bind, run_pure, run_bind, run_bind,
    qgetbndl_run enabled, qgetbndl_run (by rw [mpx]; exact enabled), lower_of_mpx_eq (mpx _), left,
    crypt_touched]

section Fetching

variable (hides : ∀ address, InSlots rsp address → hidden address)
include hides

theorem bfBlock_agrees (compute : List BfLong → List BfLong → Data → Data) (data : Data)
    (argument : Word) :
    Agrees hidden key (Original.bfBlock openSsl compute data key)
      (Patched.bfBlock openSsl rsp compute data argument) := by
  apply nearCall_agrees
  apply fetch_agrees hides
  apply fetch_agrees hides
  exact crypt_agrees compute _ _ data

theorem bfEncrypt_agrees (data : Data) (argument : Word) :
    Agrees hidden key ((Original.version openSsl).bfEncrypt data key)
      ((Patched.version openSsl rsp).bfEncrypt data argument) :=
  bfBlock_agrees hides openSsl.encryptBlock data argument

theorem bfDecrypt_agrees (data : Data) (argument : Word) :
    Agrees hidden key ((Original.version openSsl).bfDecrypt data key)
      ((Patched.version openSsl rsp).bfDecrypt data argument) :=
  bfBlock_agrees hides openSsl.decryptBlock data argument

/-- Where the callee does not look at its key argument, the argument may come from the register,
be the function's own or be NULL. -/
theorem argument_agrees {α : Type} {original : Code α} {argument : Code Word}
    {rest : Word → Code α} (passed : (∃ value, argument = pure value) ∨ argument = qgetbndl rsp BND0)
    (agrees : ∀ value, Agrees hidden key original (rest value)) :
    Agrees hidden key original (argument >>= rest) := by
  rcases passed with ⟨value, rfl⟩ | rfl
  · rw [pure_bind]
    exact agrees value
  · exact fetch_agrees hides (agrees key)

omit hides in
theorem cbcEncryptKey_passed (file : CbcFile) (schedule : Word) :
    (∃ value, (Patched.version openSsl rsp).cbcEncryptKey file schedule = pure value) ∨
      (Patched.version openSsl rsp).cbcEncryptKey file schedule = qgetbndl rsp BND0 := by
  cases file with
  | bfCbc => exact Or.inl ⟨schedule, rfl⟩
  | bfEnc => exact Or.inr rfl

omit hides in
theorem cbcDecryptKey_passed (file : CbcFile) (schedule : Word) :
    (∃ value, (Patched.version openSsl rsp).cbcDecryptKey file schedule = pure value) ∨
      (Patched.version openSsl rsp).cbcDecryptKey file schedule = qgetbndl rsp BND0 := by
  cases file with
  | bfCbc => exact Or.inl ⟨0, rfl⟩
  | bfEnc => exact Or.inr rfl

theorem cbcLines_agrees (file : CbcFile) (shown : CbcLines) :
    Agrees hidden key (cbcLines (Original.version openSsl) file key shown)
      (cbcLines (Patched.version openSsl rsp) file key shown) := by
  cases shown with
  | encrypt tin0 tin1 tout1 =>
      have passed : (Original.version openSsl).cbcEncryptKey file key = pure key := rfl
      rw [cbcLines, cbcLines, passed, pure_bind]
      apply argument_agrees hides (cbcEncryptKey_passed file key)
      intro argument
      apply (bfEncrypt_agrees hides (tin0, tin1 ^^^ tout1) argument).bind
      intro tin
      exact .pure (tin.1, tin.2)
  | decrypt tin0 tin1 xor0 xor1 =>
      have passed : (Original.version openSsl).cbcDecryptKey file key = pure key := rfl
      rw [cbcLines, cbcLines, passed, pure_bind]
      apply argument_agrees hides (cbcDecryptKey_passed file key)
      intro argument
      apply (bfDecrypt_agrees hides (tin0, tin1) argument).bind
      intro tin
      exact .pure (tin.1 ^^^ xor0, tin.2 ^^^ xor1)

/-! Functions -/

theorem operate_agrees {Lines : Type} {shown shown' : Lines → Code Data}
    (lines : ∀ line, Agrees hidden key (shown line) (shown' line)) (operation : Operation Lines) :
    Agrees hidden key (operate (Original.version openSsl) key shown operation)
      (operate (Patched.version openSsl rsp) key shown' operation) := by
  cases operation with
  | load address => exact (load_agrees address 1).bind fun value => .pure (BitVec.ofNat 8 value)
  | store address value => exact store_agrees address 1 value.toNat
  | bfEncrypt data => exact bfEncrypt_agrees hides data key
  | bfDecrypt data => exact bfDecrypt_agrees hides data key
  | lines line => exact lines line

theorem execute_agrees {α : Type} (text : Text Empty α) :
    Agrees hidden key (execute (Original.version openSsl) key text)
      (execute (Patched.version openSsl rsp) key text) :=
  .interpret (operate_agrees hides fun line => line.elim) text

theorem setKeyRound_agrees (p : Word) (block : Data) (i : Nat) :
    Agrees hidden key (setKeyRound openSsl (Original.version openSsl) key p block i)
      (setKeyRound openSsl (Patched.version openSsl rsp) key p block i) := by
  apply (bfEncrypt_agrees hides block key).bind
  intro block
  apply (storeLong_agrees (element p i) block.1).bind
  intro _
  exact execute_agrees hides (openSsl.setKeyRest p i block)

/-- `P` is written through the argument and `S` through the register. -/
theorem bfSetKey_agrees (len : BitVec 32) (data : Word) :
    Agrees hidden key (bfSetKey openSsl (Original.version openSsl) key len data)
      (bfSetKey openSsl (Patched.version openSsl rsp) key len data) := by
  have passed : (Original.version openSsl).setKeyObject key = pure key := rfl
  rw [bfSetKey, bfSetKey, passed]
  apply nearCall_agrees
  apply (execute_agrees hides (openSsl.setKeyStart key len data)).bind
  intro block
  rw [pure_bind]
  apply fetch_agrees hides
  apply (Simulates.foldlM (setKeyRound_agrees hides (key + openSsl.offsetS)) _ block).bind
  intro _
  exact .pure ()

omit hides in
theorem onArray_agrees {function function' : Data → Code Data}
    (agrees : ∀ block, Agrees hidden key (function block) (function' block)) (data : Word) :
    Agrees hidden key (onArray function data) (onArray function' data) := by
  apply (loadLong_agrees (element data 0)).bind
  intro l
  apply (loadLong_agrees (element data 1)).bind
  intro r
  apply (agrees (l, r)).bind
  intro result
  apply (storeLong_agrees (element data 1) result.2).bind
  intro _
  exact storeLong_agrees (element data 0) result.1

theorem perform_agrees (function : BfFunction) :
    Agrees hidden key (perform openSsl (Original.version openSsl) ⟨key, function⟩)
      (perform openSsl (Patched.version openSsl rsp) ⟨key, function⟩) := by
  cases function with
  | setKey len data => exact bfSetKey_agrees hides len data
  | encrypt data => exact onArray_agrees (fun block => bfEncrypt_agrees hides block key) data
  | decrypt data => exact onArray_agrees (fun block => bfDecrypt_agrees hides block key) data
  | cbcEncrypt file input out length ivec encrypt =>
      exact nearCall_agrees (.interpret (operate_agrees hides (cbcLines_agrees hides file)) _)
  | ecbEncrypt input out encrypt => exact nearCall_agrees (execute_agrees hides _)
  | cfb64Encrypt input out length ivec num encrypt => exact nearCall_agrees (execute_agrees hides _)
  | ofb64Encrypt input out length ivec num => exact nearCall_agrees (execute_agrees hides _)

/-! Runs -/

theorem call_agrees (call : BfCall) :
    Simulates (Clear hidden) (SameMemory hidden) (SameMemory hidden)
      (perform openSsl (Original.version openSsl) call)
      (qsetbndl BND0 call.key >>= fun _ => perform openSsl (Patched.version openSsl rsp) call) := by
  have stored : ∀ original patched, SameMemory hidden original patched →
      ((qsetbndl BND0 call.key).run patched).1 = () ∧
        KeyHeld hidden call.key original ((qsetbndl BND0 call.key).run patched).2 :=
    fun original patched same => ⟨rfl, qsetbndl_holds call.key same⟩
  apply Simulates.silent stored
  exact (perform_agrees hides call.function).weaken (fun _ _ held => held)
    (fun _ _ held => held.toSameMemory)

theorem calls_agree (calls : List BfCall) :
    Simulates (Clear hidden) (SameMemory hidden) (SameMemory hidden) (originalCalls openSsl calls)
      (patchedCalls openSsl rsp calls) :=
  .forM (call_agrees hides) calls

end Fetching

/-- Every byte outside the slots is the same: those of the buffers, ivs, counters and key objects.
The key argument of the block functions may be anything, NULL included. -/
theorem patched_blowfish_agrees (openSsl : OpenSsl) (rsp : Nat → Word) (calls : List BfCall)
    (machine : Machine) (enabled : machine.mpx.Enabled)
    (clear : Clear (InSlots rsp) ((originalCalls openSsl calls).run (start machine)).2) :
    (∀ address, ¬InSlots rsp address →
      ((patchedCalls openSsl rsp calls).run (start machine)).2.machine.mem address =
        ((originalCalls openSsl calls).run (start machine)).2.machine.mem address) ∧
    KeyUnused openSsl (Patched.bfEncrypt openSsl rsp) ∧
    KeyUnused openSsl (Patched.bfDecrypt openSsl rsp) := by
  have same : SameMemory (InSlots rsp) (start machine) (start machine) := ⟨fun _ _ => rfl, enabled⟩
  have agreed := ((calls_agree (fun _ inside => inside) calls).agrees _ _ same clear).2
  refine ⟨?_, bfBlock_keyUnused openSsl.encryptBlock, bfBlock_keyUnused openSsl.decryptBlock⟩
  intro address apart
  exact (agreed.mem address apart).symm

/-! Two keys -/

def Below (limit : Nat) (state : State) : Prop :=
  ∀ range ∈ state.touched, range.1.toNat + range.2 ≤ limit

theorem clear_of_below {limit : Nat} {state : State}
    (above : ∀ address, hidden address → limit ≤ address.toNat) (below : Below limit state) :
    Clear hidden state := by
  intro range member offset inside hides
  have low := below range member
  have high := above _ hides
  bv_omega

section Below

variable {limit : Nat} {address : Word} {count : Nat}

theorem below_cons {state later : State} (fits : address.toNat + count ≤ limit)
    (below : Below limit state) (touched : later.touched = (address, count) :: state.touched) :
    Below limit later := by
  intro range member
  rw [touched] at member
  rcases List.mem_cons.mp member with rfl | earlier
  · exact fits
  · exact below range earlier

theorem load_below (fits : address.toNat + count ≤ limit) :
    Keeps (Below limit) (load address count) :=
  fun _ below => below_cons fits below rfl

theorem store_below (fits : address.toNat + count ≤ limit) (value : Nat) :
    Keeps (Below limit) (store address count value) :=
  fun _ below => below_cons fits below rfl

theorem loadArray_below (fits : address.toNat + 4 * count ≤ limit) :
    Keeps (Below limit) (loadArray address count) :=
  fun _ below => below_cons fits below rfl

theorem nearCall_below {α : Type} {body : Code α} (keeps : Keeps (Below limit) body) :
    Keeps (Below limit) (nearCall body) :=
  have branch : Keeps (Below limit) nearBranch := fun _ below => below
  branch.bind fun _ => keeps.bind fun value => branch.bind fun _ => .pure value

theorem onArray_below {function : Data → Code Data} (bound : limit ≤ 2 ^ 64)
    (fits : address.toNat + 8 ≤ limit) (keeps : ∀ data, Keeps (Below limit) (function data)) :
    Keeps (Below limit) (onArray function address) := by
  have low : (element address 0).toNat + 4 ≤ limit := by
    unfold element
    bv_omega
  have high : (element address 1).toNat + 4 ≤ limit := by
    unfold element
    bv_omega
  have half : ∀ base : Word, base.toNat + 4 ≤ limit → Keeps (Below limit) (loadLong base) :=
    fun base inside => (load_below inside).bind fun value => .pure _
  exact (half _ low).bind fun l => (half _ high).bind fun r => (keeps (l, r)).bind fun result =>
    (store_below high _).bind fun _ => store_below low _

end Below

section OneBlock

variable {Lines α : Type}

def readLong (address : Word) (next : BfLong → Text Lines α) : Text Lines α :=
  .ask (.load address) fun (b0 : BitVec 8) =>
    .ask (.load (address + 1)) fun (b1 : BitVec 8) =>
      .ask (.load (address + 2)) fun (b2 : BitVec 8) =>
        .ask (.load (address + 3)) fun (b3 : BitVec 8) => next (b0 ++ b1 ++ b2 ++ b3)

def writeLong (address : Word) (value : BfLong) (next : Text Lines α) : Text Lines α :=
  .ask (.store address (value.extractLsb' 24 8)) fun _ =>
    .ask (.store (address + 1) (value.extractLsb' 16 8)) fun _ =>
      .ask (.store (address + 2) (value.extractLsb' 8 8)) fun _ =>
        .ask (.store (address + 3) (value.extractLsb' 0 8)) fun _ => next

def readData (address : Word) (next : Data → Text Lines α) : Text Lines α :=
  readLong address fun l => readLong (address + 4) fun r => next (l, r)

def writeData (address : Word) (data : Data) (next : Text Lines α) : Text Lines α :=
  writeLong address data.1 (writeLong (address + 4) data.2 next)

end OneBlock

def feistel (arrayS : List BfLong) (half : BfLong) : BfLong :=
  let byte (box : Nat) := (half.extractLsb' (24 - 8 * box) 8).toNat
  let entry (box : Nat) := arrayS.getD (256 * box + byte box) 0
  (entry 0 + entry 1 ^^^ entry 2) + entry 3

def rounds (arrayP arrayS : List BfLong) (data : Data) : Data :=
  let mixed := (arrayP.tail.take 16).foldl
    (fun halves p => (halves.2 ^^^ p ^^^ feistel arrayS halves.1, halves.1))
    (data.1 ^^^ arrayP.headD 0, data.2)
  (mixed.2 ^^^ arrayP.getLastD 0, mixed.1)

/-- The byte `num` points into the iv, which is encrypted when it is used up. -/
def feedback {α : Type} (ivec num : Word) (next : BitVec 8 → BitVec 8 → Text Empty α) :
    Text Empty α :=
  .ask (.load num) fun (n : BitVec 8) =>
    let key := .ask (.load (ivec + n.setWidth 64)) fun (byte : BitVec 8) =>
      .ask (.store num ((n + 1) &&& 7)) fun _ => next n byte
    if n = 0 then
      readData ivec fun iv => .ask (.bfEncrypt iv) fun (iv : Data) => writeData ivec iv key
    else key

def oneWordKey (key data : Word) : Text Empty Data :=
  readLong data fun ri => readLong key fun p => writeLong key (p ^^^ ri) <|
    .ask (.bfEncrypt (0, 0)) fun (block : Data) => writeData key block (.done block)

def oneCbc (input out ivec : Word) (encrypt : BitVec 32) : Text CbcLines Unit :=
  readData ivec fun iv => readData input fun tin =>
    if encrypt = 0 then
      .ask (.lines (.decrypt tin.1 tin.2 iv.1 iv.2)) fun (tout : Data) =>
        writeData out tout (writeData ivec tin (.done ()))
    else
      .ask (.lines (.encrypt (tin.1 ^^^ iv.1) tin.2 iv.2)) fun (tout : Data) =>
        writeData out tout (writeData ivec tout (.done ()))

def oneEcb (input out : Word) (encrypt : BitVec 32) : Text Empty Unit :=
  readData input fun d =>
    if encrypt = 0 then .ask (.bfDecrypt d) fun (d : Data) => writeData out d (.done ())
    else .ask (.bfEncrypt d) fun (d : Data) => writeData out d (.done ())

def oneCfb64 (input out ivec num : Word) (encrypt : BitVec 32) : Text Empty Unit :=
  feedback ivec num fun n key => .ask (.load input) fun (byte : BitVec 8) =>
    let fed := if encrypt = 0 then byte else byte ^^^ key
    .ask (.store out (byte ^^^ key)) fun _ =>
      .ask (.store (ivec + n.setWidth 64) fed) fun _ => .done ()

def oneOfb64 (input out ivec num : Word) : Text Empty Unit :=
  feedback ivec num fun _ key => .ask (.load input) fun (byte : BitVec 8) =>
    .ask (.store out (byte ^^^ key)) fun _ => .done ()

/-- The functions on one block or one byte of data, and a key schedule of one word. -/
def oneBlock : OpenSsl where
  offsetP := 0
  lengthP := 18
  offsetS := 72
  encryptBlock := rounds
  decryptBlock arrayP := rounds arrayP.reverse
  setKeyStart key _ data := oneWordKey key data
  setKeyRest p i block := writeLong (element p (i + 1)) block.2 (.done block)
  cbcEncrypt _ input out _ _ ivec encrypt := oneCbc input out ivec encrypt
  ecbEncrypt input out _ encrypt := oneEcb input out encrypt
  cfb64Encrypt input out _ _ ivec num encrypt := oneCfb64 input out ivec num encrypt
  ofb64Encrypt input out _ _ ivec num := oneOfb64 input out ivec num

section OneBlockBelow

variable {limit : Nat} (bound : limit ≤ 2 ^ 64) {key : Word} (object : key.toNat + 0x1048 ≤ limit)
include bound object

theorem oneBlock_block_below (compute : List BfLong → List BfLong → Data → Data) (data : Data) :
    Keeps (Below limit) (Original.bfBlock oneBlock compute data key) := by
  have arrayP : (key + 0).toNat + 4 * 18 ≤ limit := by bv_omega
  have arrayS : (key + 72).toNat + 4 * (4 * 256) ≤ limit := by bv_omega
  exact nearCall_below ((loadArray_below arrayP).bind fun p => (loadArray_below arrayS).bind fun s =>
    .pure (compute p s data))

section Texts

variable {Lines α : Type} {shown : Lines → Code Data} {address : Word}
  {next : Text Lines α}

abbrev Reads (limit : Nat) (key : Word) (shown : Lines → Code Data) (text : Text Lines α) : Prop :=
  Keeps (Below limit) (text.interpret (operate (Original.version oneBlock) key shown))

theorem encrypt_below (data : Data) {next : Data → Text Lines α}
    (tail : ∀ block, Reads limit key shown (next block)) :
    Reads limit key shown (.ask (.bfEncrypt data) next) := by
  have block : Keeps (Below limit)
      (operate (Original.version oneBlock) key shown (.bfEncrypt data)) :=
    oneBlock_block_below bound object oneBlock.encryptBlock data
  exact .ask block tail

theorem decrypt_below (data : Data) {next : Data → Text Lines α}
    (tail : ∀ block, Reads limit key shown (next block)) :
    Reads limit key shown (.ask (.bfDecrypt data) next) := by
  have block : Keeps (Below limit)
      (operate (Original.version oneBlock) key shown (.bfDecrypt data)) :=
    oneBlock_block_below bound object oneBlock.decryptBlock data
  exact .ask block tail

omit bound object in
theorem loadByte_below {next : BitVec 8 → Text Lines α} (fits : address.toNat + 1 ≤ limit)
    (tail : ∀ byte, Reads limit key shown (next byte)) :
    Reads limit key shown (.ask (.load address) next) := by
  have loaded : Keeps (Below limit)
      (operate (Original.version oneBlock) key shown (.load address)) :=
    (load_below fits).bind fun value => .pure (BitVec.ofNat 8 value)
  exact .ask loaded tail

omit bound object in
theorem storeByte_below {next : Unit → Text Lines α} (fits : address.toNat + 1 ≤ limit)
    (value : BitVec 8) (tail : Reads limit key shown (next ())) :
    Reads limit key shown (.ask (.store address value) next) :=
  .ask (store_below fits value.toNat) fun _ => tail

omit object in
theorem readLong_below {next : BfLong → Text Lines α} (fits : address.toNat + 4 ≤ limit)
    (tail : ∀ value, Reads limit key shown (next value)) :
    Reads limit key shown (readLong address next) :=
  loadByte_below (by omega) fun b0 => loadByte_below (by bv_omega) fun b1 =>
    loadByte_below (by bv_omega) fun b2 => loadByte_below (by bv_omega) fun b3 => tail _

omit object in
theorem writeLong_below (fits : address.toNat + 4 ≤ limit) (value : BfLong)
    (tail : Reads limit key shown next) :
    Reads limit key shown (writeLong address value next) :=
  storeByte_below (by omega) _ (storeByte_below (by bv_omega) _
    (storeByte_below (by bv_omega) _ (storeByte_below (by bv_omega) _ tail)))

omit object in
theorem readData_below {next : Data → Text Lines α} (fits : address.toNat + 8 ≤ limit)
    (tail : ∀ data, Reads limit key shown (next data)) :
    Reads limit key shown (readData address next) :=
  readLong_below bound (by omega) fun l => readLong_below bound (by bv_omega) fun r => tail (l, r)

omit object in
theorem writeData_below (fits : address.toNat + 8 ≤ limit) (data : Data)
    (tail : Reads limit key shown next) :
    Reads limit key shown (writeData address data next) :=
  writeLong_below bound (by omega) data.1 (writeLong_below bound (by bv_omega) data.2 tail)

end Texts

theorem oneBlock_setKey_below {data : Word} (fits : data.toNat + 8 ≤ limit) (len : BitVec 32) :
    Keeps (Below limit) (bfSetKey oneBlock (Original.version oneBlock) key len data) := by
  have start : Reads limit key Empty.elim (oneWordKey key data) := by
    apply readLong_below bound (by omega)
    intro ri
    apply readLong_below bound (by omega)
    intro p
    apply writeLong_below bound (by omega)
    apply encrypt_below bound object
    intro block
    exact writeData_below bound (by omega) block (.done block)
  have round : ∀ i ∈ (List.range (2 * 256)).map (2 * ·), ∀ block,
      Keeps (Below limit) (setKeyRound oneBlock (Original.version oneBlock) key
        (key + oneBlock.offsetS) block i) := by
    intro i member block
    obtain ⟨half, inside, rfl⟩ := List.mem_map.mp member
    have small := List.mem_range.mp inside
    have even : (element (key + oneBlock.offsetS) (2 * half)).toNat + 4 ≤ limit := by
      simp only [element, oneBlock]
      bv_omega
    have odd : (element (key + oneBlock.offsetS) (2 * half + 1)).toNat + 4 ≤ limit := by
      simp only [element, oneBlock]
      bv_omega
    exact (oneBlock_block_below bound object _ block).bind fun block =>
      (store_below even _).bind fun _ => writeLong_below bound odd block.2 (.done block)
  have passed : (Original.version oneBlock).setKeyObject key = pure key := rfl
  unfold bfSetKey
  apply nearCall_below
  apply start.bind
  intro block
  rw [passed, pure_bind]
  exact (Keeps.foldlM round block).bind fun _ => .pure ()

theorem oneEcb_below {input out : Word} (source : input.toNat + 8 ≤ limit)
    (target : out.toNat + 8 ≤ limit) (encrypt : BitVec 32) :
    Reads limit key Empty.elim (oneEcb input out encrypt) := by
  apply readData_below bound source
  intro d
  split
  · exact decrypt_below bound object d fun d => writeData_below bound target d (.done ())
  · exact encrypt_below bound object d fun d => writeData_below bound target d (.done ())

theorem cbcLines_below (file : CbcFile) (shown : CbcLines) :
    Keeps (Below limit) (cbcLines (Original.version oneBlock) file key shown) := by
  cases shown with
  | encrypt tin0 tin1 tout1 =>
      have passed : (Original.version oneBlock).cbcEncryptKey file key = pure key := rfl
      rw [cbcLines, passed, pure_bind]
      apply (oneBlock_block_below bound object oneBlock.encryptBlock (tin0, tin1 ^^^ tout1)).bind
      intro tin
      exact .pure (tin.1, tin.2)
  | decrypt tin0 tin1 xor0 xor1 =>
      have passed : (Original.version oneBlock).cbcDecryptKey file key = pure key := rfl
      rw [cbcLines, passed, pure_bind]
      apply (oneBlock_block_below bound object oneBlock.decryptBlock (tin0, tin1)).bind
      intro tin
      exact .pure (tin.1 ^^^ xor0, tin.2 ^^^ xor1)

theorem oneCbc_below {input out ivec : Word} (source : input.toNat + 8 ≤ limit)
    (target : out.toNat + 8 ≤ limit) (vector : ivec.toNat + 8 ≤ limit) (encrypt : BitVec 32)
    (file : CbcFile) :
    Reads limit key (cbcLines (Original.version oneBlock) file key)
      (oneCbc input out ivec encrypt) := by
  have lines : ∀ shown {next : Data → Text CbcLines Unit},
      (∀ tout, Reads limit key (cbcLines (Original.version oneBlock) file key) (next tout)) →
        Reads limit key (cbcLines (Original.version oneBlock) file key)
          (.ask (.lines shown) next) :=
    fun shown _ tail => .ask (cbcLines_below bound object file shown) tail
  apply readData_below bound vector
  intro iv
  apply readData_below bound source
  intro tin
  split
  · exact lines _ fun tout => writeData_below bound target tout
      (writeData_below bound vector tin (.done ()))
  · exact lines _ fun tout => writeData_below bound target tout
      (writeData_below bound vector tout (.done ()))

theorem feedback_below {shown : Empty → Code Data} {ivec num : Word}
    {next : BitVec 8 → BitVec 8 → Text Empty Unit} (vector : ivec.toNat + 256 ≤ limit)
    (counter : num.toNat + 1 ≤ limit) (tail : ∀ n byte, Reads limit key shown (next n byte)) :
    Reads limit key shown (feedback ivec num next) := by
  have fetched : ∀ n : BitVec 8, Reads limit key shown
      (.ask (.load (ivec + n.setWidth 64)) fun (byte : BitVec 8) =>
        .ask (.store num ((n + 1) &&& 7)) fun _ => next n byte) :=
    fun n => loadByte_below (by bv_omega) fun byte => storeByte_below counter _ (tail n byte)
  apply loadByte_below counter
  intro n
  split
  · exact readData_below bound (by omega) fun iv => encrypt_below bound object iv fun iv =>
      writeData_below bound (by omega) iv (fetched n)
  · exact fetched n

theorem oneCfb64_below {input out ivec num : Word} (source : input.toNat + 1 ≤ limit)
    (target : out.toNat + 1 ≤ limit) (vector : ivec.toNat + 256 ≤ limit)
    (counter : num.toNat + 1 ≤ limit) (encrypt : BitVec 32) :
    Reads limit key Empty.elim (oneCfb64 input out ivec num encrypt) := by
  apply feedback_below bound object vector counter
  intro n _
  exact loadByte_below source fun _ => storeByte_below target _
    (storeByte_below (by bv_omega) _ (.done ()))

theorem oneOfb64_below {input out ivec num : Word} (source : input.toNat + 1 ≤ limit)
    (target : out.toNat + 1 ≤ limit) (vector : ivec.toNat + 256 ≤ limit)
    (counter : num.toNat + 1 ≤ limit) :
    Reads limit key Empty.elim (oneOfb64 input out ivec num) := by
  apply feedback_below bound object vector counter
  intro _ _
  exact loadByte_below source fun _ => storeByte_below target _ (.done ())

end OneBlockBelow

def twoKeys : List BfCall :=
  [⟨0x1000, .setKey 4 0x6100⟩, ⟨0x3000, .setKey 4 0x6200⟩, ⟨0x1000, .encrypt 0x6000⟩,
    ⟨0x3000, .ecbEncrypt 0x6000 0x6010 1⟩, ⟨0x1000, .cbcEncrypt .bfCbc 0x6010 0x6020 8 0x6030 0⟩,
    ⟨0x3000, .cbcEncrypt .bfEnc 0x6020 0x6020 8 0x6030 1⟩,
    ⟨0x1000, .cfb64Encrypt 0x6000 0x6040 1 0x6030 0x6050 1⟩,
    ⟨0x3000, .ofb64Encrypt 0x6001 0x6041 1 0x6030 0x6050⟩, ⟨0x1000, .decrypt 0x6000⟩]

theorem twoKeys_below : Keeps (Below 0x8000) (originalCalls oneBlock twoKeys) := by
  have block : ∀ compute data, Keeps (Below 0x8000)
      (Original.bfBlock oneBlock compute data 0x1000) :=
    oneBlock_block_below (by decide) (by decide)
  have encrypted : Keeps (Below 0x8000)
      (onArray ((Original.version oneBlock).bfEncrypt · 0x1000) 0x6000) :=
    onArray_below (by decide) (by decide) (block oneBlock.encryptBlock)
  have decrypted : Keeps (Below 0x8000)
      (onArray ((Original.version oneBlock).bfDecrypt · 0x1000) 0x6000) :=
    onArray_below (by decide) (by decide) (block oneBlock.decryptBlock)
  apply Keeps.forM
  intro call member
  simp only [twoKeys, List.mem_cons, List.not_mem_nil, or_false] at member
  rcases member with rfl | rfl | rfl | rfl | rfl | rfl | rfl | rfl | rfl
  · exact oneBlock_setKey_below (by decide) (by decide) (by decide) 4
  · exact oneBlock_setKey_below (by decide) (by decide) (by decide) 4
  · exact encrypted
  · exact nearCall_below (oneEcb_below (by decide) (by decide) (by decide) (by decide) 1)
  · exact nearCall_below
      (oneCbc_below (by decide) (by decide) (by decide) (by decide) (by decide) 0 .bfCbc)
  · exact nearCall_below
      (oneCbc_below (by decide) (by decide) (by decide) (by decide) (by decide) 1 .bfEnc)
  · exact nearCall_below
      (oneCfb64_below (by decide) (by decide) (by decide) (by decide) (by decide) (by decide) 1)
  · exact nearCall_below
      (oneOfb64_below (by decide) (by decide) (by decide) (by decide) (by decide) (by decide))
  · exact decrypted

theorem twoKeys_clear (machine : Machine) :
    Clear (InSlots fun _ => 0x9000) ((originalCalls oneBlock twoKeys).run (start machine)).2 := by
  refine clear_of_below ?_
    (twoKeys_below (start machine) fun range member => absurd member List.not_mem_nil)
  rintro address ⟨_, slot⟩
  simp only [InSlot, Within] at slot
  bv_omega

theorem patched_blowfish_agrees_two_keys :
    Clear (InSlots fun _ => 0x9000) ((originalCalls oneBlock twoKeys).run
      (start (startedMachine capablePlatform 0x5000 blankMachine))).2 ∧
    (∀ address, ¬InSlots (fun _ => 0x9000) address →
      ((patchedCalls oneBlock (fun _ => 0x9000) twoKeys).run
          (start (startedMachine capablePlatform 0x5000 blankMachine))).2.machine.mem address =
        ((originalCalls oneBlock twoKeys).run
          (start (startedMachine capablePlatform 0x5000 blankMachine))).2.machine.mem address) := by
  have clear := twoKeys_clear (startedMachine capablePlatform 0x5000 blankMachine)
  exact ⟨clear, (patched_blowfish_agrees oneBlock (fun _ => 0x9000) twoKeys
    (startedMachine capablePlatform 0x5000 blankMachine)
    (startedMachine_enabled capablePlatform 0x5000 blankMachine) clear).1⟩

end Blowfish

end SimplexMpx
