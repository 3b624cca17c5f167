import SimplexMpx.BftestCore
import SimplexMpx.Blowfish

/-!
The patched test driver prints and returns what the original one does wherever MPX can be started,
whatever the two functions it chooses from do; elsewhere it says so and returns 0.
-/

namespace SimplexMpx

open ByteMemory Interaction

namespace Blowfish

variable {openSsl : OpenSsl} {hidden : Word → Prop} {rsp : Nat → Word} {key : Word}

/-! Operations -/

abbrev DriverAgrees {α : Type} (hidden : Word → Prop) (key : Word) (original patched : Driver α) :
    Prop :=
  Simulates (fun driver => Clear hidden driver.1) (Beside (KeyHeld hidden key))
    (Beside (KeyHeld hidden key)) original patched

theorem branch_agrees : DriverAgrees hidden key (beside nearBranch) (beside nearBranch) :=
  nearBranch_agrees.beside

theorem printf_agrees (text : String) : DriverAgrees hidden key (printf text) (printf text) := by
  have appended : DriverAgrees hidden key (modify fun driver => (driver.1, driver.2 ++ [text]))
      (modify fun driver => (driver.1, driver.2 ++ [text])) := by
    refine ⟨fun _ clear => clear, ?_⟩
    rintro original patched ⟨held, same⟩ _
    exact ⟨rfl, held, congrArg (· ++ [text]) same⟩
  exact branch_agrees.bind fun _ => appended.bind fun _ => branch_agrees

theorem operateDriver_agrees {Calls : Type} {call call' : Calls → Code Unit}
    (calls : ∀ function, Agrees hidden key (call function) (call' function))
    (operation : DriverOperation Calls) :
    DriverAgrees hidden key (operateDriver call operation) (operateDriver call' operation) := by
  cases operation with
  | load address =>
      exact (load_agrees address 1).beside.bind fun value => .pure (BitVec.ofNat 8 value)
  | store address value => exact (store_agrees address 1 value.toNat).beside
  | printf text => exact printf_agrees text
  | call function => exact (calls function).beside

/-! Functions -/

/-- Between the calls of `main` BND0 may hold anything. -/
abbrev DriverSame {α : Type} (hidden : Word → Prop) (original patched : Driver α) : Prop :=
  Simulates (fun driver => Clear hidden driver.1) (Beside (SameMemory hidden))
    (Beside (SameMemory hidden)) original patched

theorem same_of_agrees {α : Type} {original patched : Driver α}
    (agrees : ∀ key, DriverAgrees hidden key original patched) :
    DriverSame hidden original patched := by
  refine ⟨(agrees 0).inherits, ?_⟩
  rintro state state' ⟨memory, output⟩ clear
  have held : KeyHeld hidden (state'.1.machine.lower BND0) state.1 state'.1 := ⟨memory, rfl⟩
  obtain ⟨value, after, printed⟩ := (agrees _).agrees state state' ⟨held, output⟩ clear
  exact ⟨value, after.toSameMemory, printed⟩

theorem branch_same : DriverSame hidden (beside nearBranch) (beside nearBranch) :=
  same_of_agrees fun _ => branch_agrees

variable (program : Bftest)

theorem printTestData_same :
    DriverSame hidden (printTestData program) (printTestData program) := by
  apply same_of_agrees
  intro key
  apply branch_agrees.bind
  intro _
  apply (Simulates.interpret (operateDriver_agrees fun function => function.elim)
    program.printTestData).bind
  intro ret
  exact branch_agrees.bind fun _ => .pure ret

section Calls

variable (hides : ∀ address, InSlots rsp address → hidden address)
include hides

theorem test_same :
    DriverSame hidden (Original.test openSsl program) (Patched.test openSsl program rsp) := by
  have call : ∀ function, Agrees hidden program.key
      (perform openSsl (Original.version openSsl) ⟨program.key, function⟩)
      (qgetbndl rsp BND0 >>= fun key =>
        perform openSsl (Patched.version openSsl rsp) ⟨key, function⟩) :=
    fun function => fetch_agrees hides (perform_agrees hides function)
  have stored : ∀ original patched : DriverState, Beside (SameMemory hidden) original patched →
      ((beside (qsetbndl BND0 program.key)).run patched).1 = () ∧
        Beside (KeyHeld hidden program.key) original
          ((beside (qsetbndl BND0 program.key)).run patched).2 :=
    fun original patched same => ⟨rfl, qsetbndl_holds program.key same.1, same.2⟩
  apply branch_same.bind
  intro _
  apply Simulates.silent stored
  have body : DriverAgrees hidden program.key _ _ :=
    (Simulates.interpret (operateDriver_agrees call) program.test).bind fun ret =>
      branch_agrees.bind fun _ => .pure ret
  exact body.weaken (fun _ _ held => held) (fun _ _ held => ⟨held.1.toSameMemory, held.2⟩)

theorem testOrPrint_same (argc : Int) :
    DriverSame hidden (Original.main openSsl program argc)
      (Patched.testOrPrint openSsl program rsp argc) := by
  unfold Original.main Patched.testOrPrint
  split
  · exact printTestData_same program
  · exact test_same program hides

end Calls

/-! `main` -/

theorem callSwitch_of_call {body : Machine → Except Fault (Bool × Machine)} {driver : DriverState}
    {value : Bool} {next : Machine}
    (called : fallibleCall body driver.1.machine = .ok (.bool value, next)) :
    Patched.callSwitch body driver = .ok (value, ({ driver.1 with machine := next }, driver.2)) := by
  unfold fallibleCall at called
  obtain ⟨⟨value', machine⟩, switched, returned⟩ := RunRules.bind_ok_iff.mp called
  obtain ⟨same, rfl⟩ := Prod.mk.inj (Except.ok.inj returned)
  obtain rfl := Returned.bool.inj same
  simp only [Patched.callSwitch, switched]
  rfl

section Main

variable {platform : Platform} {buffer : Word} {driver : DriverState} {started : Machine}

theorem main_of_started {argc : Int} {ret : BitVec 32} {left : DriverState}
    (began : callStep platform (.processSpecificInit buffer) driver.1.machine =
      .ok (.bool true, started))
    (ran : (Patched.testOrPrint openSsl program rsp argc).run
      ({ driver.1 with machine := started }, driver.2) = (ret, left)) :
    ∃ stopped,
      callStep platform (.processSpecificFinish buffer) left.1.machine =
        .ok (.bool true, stopped) ∧
      Patched.main openSsl program rsp platform buffer argc driver =
        .ok (ret, ({ left.1 with machine := stopped }, left.2)) := by
  obtain ⟨found, on, csr⟩ := init_true began
  have ended := callStep_finish found on csr buffer left.1.machine
  have first := callSwitch_of_call began
  have last := callSwitch_of_call ended
  refine ⟨_, ended, ?_⟩
  simp only [Patched.main, first, bind, Except.bind, Bool.not_true, Bool.false_eq_true, if_false,
    ran, last]
  rfl

theorem main_of_missing (missing : ¬Detected platform) (argc : Int) :
    ∃ final, Patched.main openSsl program rsp platform buffer argc driver = .ok (0, final) ∧
      final.2 = driver.2 ++ ["Simplex failed to initialize\n"] ∧
      final.1.machine.mem = driver.1.machine.mem := by
  have called := callStep_init_undetected missing buffer driver.1.machine
  have refused := callSwitch_of_call called
  refine ⟨((printf "Simplex failed to initialize\n").run
    ({ driver.1 with machine := driver.1.machine.nearBranch.nearBranch }, driver.2)).2,
    ?_, rfl, ?_⟩
  · simp only [Patched.main, refused, bind, Except.bind, Bool.not_false, if_true]
    rfl
  · exact (Machine.nearBranch_mem _).trans ((Machine.nearBranch_mem _).trans
      ((Machine.nearBranch_mem _).trans (Machine.nearBranch_mem _)))

theorem main_of_unusable (found : Detected platform)
    (unusable : ¬(platform.osxsave = true ∧ platform.xcr0.getLsbD 4 = true)) (argc : Int) :
    ∃ fault, Patched.main openSsl program rsp platform buffer argc driver = .error fault := by
  obtain ⟨fault, failed⟩ := init_faults found unusable buffer driver.1.machine.nearBranch
  refine ⟨fault, ?_⟩
  simp only [Patched.main, Patched.callSwitch, failed, bind, Except.bind]

/-- What the patch adds to the memory written: the slots and the image of the two switches. -/
def SlotOrImage (rsp : Nat → Word) (buffer address : Word) : Prop :=
  InSlots rsp address ∨ Within buffer 4096 address

end Main

/-- One call of a block function, a message, and a byte of the result as the exit status. -/
def shortTest : Bftest where
  key := 0x1000
  test := .ask (.call (.encrypt 0x6000)) fun _ =>
    .ask (.printf "testing blowfish in raw ecb mode\n") fun _ =>
      .ask (.load 0x6000) fun (byte : BitVec 8) => .done (byte.setWidth 32)
  printTestData := .ask (.printf "ecb test data\n") fun _ => .done 0

end Blowfish

end SimplexMpx
