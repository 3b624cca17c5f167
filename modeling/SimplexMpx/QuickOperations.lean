import SimplexMpx.RegisterStore
import SimplexMpx.Visible

/-!
`qsetbndl` and `qgetbndl` in the place of `setbndl` and `getbndl`. The register files of the two
programs drift apart in their upper halves, which the client does not read.
-/

namespace SimplexMpx

open ByteMemory PairStore

/-- A call of a lower-half client, kept or replaced by its quick counterpart. -/
inductive QuickReplacement : Call → Call → Prop
  | getbndl (rsp : Word) (reg : BndregT) :
      QuickReplacement (.getbndl rsp reg) (.getbndl rsp reg)
  | qgetbndl (rsp : Word) (reg : BndregT) :
      QuickReplacement (.qgetbndl rsp reg) (.qgetbndl rsp reg)
  | setbndl (rsp : Word) (reg : BndregT) (val : Word) :
      QuickReplacement (.setbndl rsp reg val) (.setbndl rsp reg val)
  | setbndu (rsp : Word) (reg : BndregT) (val : Word) :
      QuickReplacement (.setbndu rsp reg val) (.setbndu rsp reg val)
  | setbnd (reg : BndregT) (val : BitVec 128) :
      QuickReplacement (.setbnd reg val) (.setbnd reg val)
  | qsetbndl (reg : BndregT) (val : Word) :
      QuickReplacement (.qsetbndl reg val) (.qsetbndl reg val)
  | quickGet (rsp rsp' : Word) (reg : BndregT) :
      QuickReplacement (.getbndl rsp reg) (.qgetbndl rsp' reg)
  | quickSet (rsp : Word) (reg : BndregT) (val : Word) :
      QuickReplacement (.setbndl rsp reg val) (.qsetbndl reg val)

theorem quickReplacement_operations {command command' : Call}
    (replaced : QuickReplacement command command') :
    ∃ operation operation', operationOf command = some operation ∧
      operationOf command' = some operation' ∧ LowerAlike operation operation' := by
  cases replaced with
  | getbndl rsp reg => exact ⟨_, _, rfl, rfl, .getLower _⟩
  | qgetbndl rsp reg => exact ⟨_, _, rfl, rfl, .getLower _⟩
  | setbndl rsp reg val => exact ⟨_, _, rfl, rfl, .setLower _ _⟩
  | setbndu rsp reg val => exact ⟨_, _, rfl, rfl, .setUpper _ _⟩
  | setbnd reg val => exact ⟨_, _, rfl, rfl, .setBoth _ _⟩
  | qsetbndl reg val => exact ⟨_, _, rfl, rfl, .setBoth _ _⟩
  | quickGet rsp rsp' reg => exact ⟨_, _, rfl, rfl, .getLower _⟩
  | quickSet rsp reg val => exact ⟨_, _, rfl, rfl, .overwrite _ { lower := val, upper := val }⟩

theorem quickReplacement_register (command command' : Call)
    (replaced : QuickReplacement command command') :
    command.isRegisterCall = true ∧ True := by
  cases replaced <;> exact ⟨rfl, trivial⟩

theorem not_reset_of_lowerAlike {operation operation' : Operation Bnd Word}
    (alike : LowerAlike operation operation') : operation ≠ .reset ∧ operation' ≠ .reset := by
  cases alike <;> exact ⟨nofun, nofun⟩

def SameLowerHalves (machine machine' : Machine) : Prop :=
  ∃ store store', Represents store machine ∧ Represents store' machine' ∧ SameLower store store'

theorem quick_lockStep (platform : Platform) :
    RunRules.LockStep (callStep platform) (callStep platform) (fun _ ghost => ghost)
      QuickReplacement Eq (fun (_ : Unit) machine machine' => SameLowerHalves machine machine') := by
  refine ⟨?_⟩
  intro command command' _ machine machine' replaced ⟨store, store', first, second, same⟩
  obtain ⟨operation, operation', stands, stands', alike⟩ := quickReplacement_operations replaced
  obtain ⟨notReset, notReset'⟩ := not_reset_of_lowerAlike alike
  obtain ⟨next, stepped, after⟩ := callStep_refines platform
    (fun reset => absurd (Option.some.inj (stands.symm.trans reset)) notReset) stands first
  obtain ⟨next', stepped', after'⟩ := callStep_refines platform
    (fun reset => absurd (Option.some.inj (stands'.symm.trans reset)) notReset') stands' second
  obtain ⟨replies, lowers⟩ := apply_sameLower alike same emptyPair
  rw [stepped, stepped']
  exact ⟨congrArg returnedOf replies, _, _, after, after', lowers⟩

/-- Replacing any of the calls of a lower-half client by their quick counterparts leaves every
returned value unchanged. -/
theorem quick_replacement_returns (platform : Platform) {machine : Machine}
    (enabled : machine.mpx.Enabled) {calls calls' : List Call}
    (replaced : List.Forall₂ QuickReplacement calls calls') :
    ∃ returned final final', runCalls platform calls machine = .ok (returned, final) ∧
      runCalls platform calls' machine = .ok (returned, final') := by
  have represented := storeOf_represents enabled
  have initial : SameLowerHalves machine machine :=
    ⟨_, _, represented, represented, fun _ => rfl⟩
  have agreed := (quick_lockStep platform).run replaced () initial
  have register := (List.forall₂_and_left _ _).mp (replaced.imp quickReplacement_register)
  obtain ⟨returned, final, ran⟩ := RunRules.run_ok
    (fun command member state => registerCall_ok platform (register.1 command member) state) machine
  rw [ran] at agreed
  obtain ⟨⟨returned', final'⟩, ran', values, _⟩ := agreed.ok_right
  rw [List.forall₂_eq_eq_eq] at values
  obtain rfl : returned = returned' := values
  exact ⟨returned, final, final', ran, ran'⟩

theorem quick_replacement_returns_mixed :
    ∃ returned final final',
      runCalls capablePlatform [.setbndl 0x7000 0 9, .setbndu 0x7000 0 4, .getbndl 0x7000 0]
          (startedMachine capablePlatform 0x5000 blankMachine) = .ok (returned, final) ∧
        runCalls capablePlatform [.qsetbndl 0 9, .setbndu 0x7000 0 4, .qgetbndl 0x7100 0]
          (startedMachine capablePlatform 0x5000 blankMachine) = .ok (returned, final') :=
  quick_replacement_returns capablePlatform
    (startedMachine_enabled capablePlatform 0x5000 blankMachine)
    (.cons (.quickSet _ _ _) (.cons (.setbndu _ _ _) (.cons (.quickGet _ _ _) .nil)))

end SimplexMpx
