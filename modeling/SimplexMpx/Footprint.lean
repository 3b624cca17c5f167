import SimplexMpx.Threads

/-!
What the calls of a process leave in the state its threads share: the messages for invalid
registers, in the order of the calls, and nothing in memory but their own frames, the scratch slots
of the accessors and the images of starting and stopping. Both hold on any processor, with MPX on
or off.
-/

namespace SimplexMpx

open ByteMemory

/-! Messages -/

def complaint (function : String) (reg : BndregT) : List String :=
  match switchReg reg with
  | some _ => []
  | none => [invalidRegister function reg]

/-- Some functions name another: `getbnd` and `setbnd` the upper half, `qgetbndl` the plain one. -/
def Call.complaints : Call → List String
  | .getbndl _ reg => complaint "getbndl" reg
  | .getbndu _ reg => complaint "getbndu" reg
  | .getbnd _ reg => complaint "getbndu" reg
  | .qgetbndl _ reg => complaint "getbndl" reg
  | .setbndl _ reg _ => complaint "getbndu" reg ++ complaint "setbndl" reg
  | .setbndu _ reg _ => complaint "getbndl" reg ++ complaint "setbndu" reg
  | .setbnd reg _ => complaint "setbndu" reg
  | .qsetbndl reg _ => complaint "qsetbndl" reg
  | _ => []

theorem afterAccess_stderr (function : String) (rsp : Word) (reg : BndregT) (machine : Machine) :
    (afterAccess function rsp reg machine).stderr = machine.stderr ++ complaint function reg := by
  unfold afterAccess complaint
  cases switchReg reg with
  | none => rfl
  | some bnd => exact (scrubbed_stderr rsp _).trans (List.append_nil _).symm

theorem complain_stderr (function : String) (reg : BndregT) (machine : Machine) :
    (complain function reg machine).stderr = machine.stderr ++ complaint function reg := by
  unfold complain complaint
  cases switchReg reg with
  | none => rfl
  | some bnd => exact (List.append_nil _).symm

theorem afterQuickAccess_stderr (rsp : Word) (reg : BndregT) (machine : Machine) :
    (afterQuickAccess rsp reg machine).stderr = machine.stderr ++ complaint "getbndl" reg := by
  unfold afterQuickAccess complaint
  cases switchReg reg with
  | none => rfl
  | some bnd => exact (spilled_stderr bnd rsp machine).trans (List.append_nil _).symm

theorem visibleEffect_stderr {command : Call} (slow : command.isQuickGet = false)
    (machine : Machine) :
    (visibleEffect command machine).stderr = machine.stderr ++ command.complaints := by
  cases command with
  | qgetbndl rsp reg => simp [Call.isQuickGet] at slow
  | setbndl rsp reg val | setbndu rsp reg val =>
      rw [visibleEffect, complain_stderr, afterAccess_stderr, List.append_assoc]
      rfl
  | getbndl rsp reg | getbndu rsp reg | getbnd rsp reg => exact afterAccess_stderr _ _ _ _
  | setbnd reg val | qsetbndl reg val => exact complain_stderr _ _ _
  | _ => exact (List.append_nil _).symm

variable {platform : Platform}

theorem slowCall_stderr {command : Call} (register : command.isRegisterCall = true)
    (slow : command.isQuickGet = false) {machine next : Machine} {value : Returned}
    (called : callStep platform command machine = .ok (value, next)) :
    next.stderr = machine.stderr ++ command.complaints := by
  obtain ⟨value', next', stepped, visible⟩ := callStep_visible platform register slow machine
  rw [called] at stepped
  obtain ⟨_, rfl⟩ := Prod.mk.inj (Except.ok.inj stepped)
  rw [← withoutPairs_stderr next, visible, visibleEffect_stderr slow, withoutPairs_stderr]

theorem callStep_stderr {command : Call} {machine next : Machine}
    {value : Returned} (called : callStep platform command machine = .ok (value, next)) :
    next.stderr = machine.stderr ++ command.complaints := by
  cases command with
  | processSpecificInit buffer =>
      rcases init_cases called with rfl | rfl
      · exact (Machine.nearBranch_stderr machine).trans (List.append_nil _).symm
      · simp [Call.complaints]
  | processSpecificFinish buffer =>
      rcases finish_cases called with rfl | rfl
      · exact (Machine.nearBranch_stderr machine).trans (List.append_nil _).symm
      · simp [Call.complaints]
  | qgetbndl rsp reg =>
      have outcome : (machine.nearCall (qgetbndl rsp reg)).2 = next :=
        congrArg Prod.snd (Except.ok.inj called)
      rw [← outcome, Machine.nearCall, qgetbndl_eq, Machine.nearBranch_stderr,
        afterQuickAccess_stderr, Machine.nearBranch_stderr]
      rfl
  | _ => exact slowCall_stderr rfl rfl called

def ThreadEvent.complaints : ThreadEvent → List String
  | .create _ _ => []
  | .call _ command => command.complaints

variable {events : List ThreadEvent} {process final : Process}
  {values : List Returned}

/-- Stderr grows by the messages of the calls, in the order in which the threads make them. -/
theorem runThreads_messages (ran : runThreads platform events process = .ok (values, final)) :
    final.stderr = process.stderr ++ events.flatMap ThreadEvent.complaints := by
  refine RunRules.run_appends ?_ ran
  intro event process value next stepped
  cases event with
  | create parent child =>
      obtain ⟨_, _, _, rfl⟩ := threadStep_create stepped
      exact (List.append_nil _).symm
  | call thread command =>
      obtain ⟨_, machine, _, called, rfl⟩ := threadStep_call stepped
      exact callStep_stderr called

theorem runThreads_messages_of_two :
    ∃ values final, runThreads capablePlatform
        [.call 0 (.setbndl 0x9000 7 5), .create 0 1, .call 1 (.getbnd 0x9000 (-1))] freshProcess =
        .ok (values, final) ∧
      final.stderr = ["(getbndu) invalid bounds register: 7\n",
        "(setbndl) invalid bounds register: 7\n", "(getbndu) invalid bounds register: -1\n"] := by
  have outcome : (runThreads capablePlatform
      [.call 0 (.setbndl 0x9000 7 5), .create 0 1, .call 1 (.getbnd 0x9000 (-1))]
      freshProcess).map (fun _ => ()) = .ok () := by decide +kernel
  obtain ⟨values, final, ran, -⟩ := RunRules.run_of_map outcome
  exact ⟨values, final, ran, runThreads_messages ran⟩

/-! Memory -/

/-- The bytes a call may write: its accessor's slot, or the image of the switch. -/
def Call.Touches : Call → Word → Prop
  | .processSpecificInit buffer, address => Within buffer 4096 address
  | .processSpecificFinish buffer, address => Within buffer 4096 address
  | .getbndl rsp _, address => InSlot rsp address
  | .getbndu rsp _, address => InSlot rsp address
  | .getbnd rsp _, address => InSlot rsp address
  | .qgetbndl rsp _, address => InSlot rsp address
  | .setbndl rsp _ _, address => InSlot rsp address
  | .setbndu rsp _ _, address => InSlot rsp address
  | _, _ => False

theorem touches_of_clears {command : Call} {address : Word} (clears : Clears command address) :
    command.Touches address := by
  cases command <;> first | exact clears.2 | exact clears.elim

theorem touches_of_spills {command : Call} {address : Word} (spills : Spills command address) :
    command.Touches address := by
  cases command <;> first | exact spills | exact spills.elim

theorem registerCall_untouched {command : Call} (register : command.isRegisterCall = true)
    {machine next : Machine} {value : Returned}
    (called : callStep platform command machine = .ok (value, next)) {address : Word}
    (apart : ¬command.Touches address) : next.mem address = machine.mem address := by
  obtain ⟨value', next', stepped, bytes⟩ := callStep_byte platform register machine
  rw [called] at stepped
  obtain ⟨_, rfl⟩ := Prod.mk.inj (Except.ok.inj stepped)
  exact (bytes address).2 (fun clears => apart (touches_of_clears clears))
    (fun spills => apart (touches_of_spills spills))

theorem callStep_untouched {command : Call} {machine next : Machine} {value : Returned}
    (called : callStep platform command machine = .ok (value, next)) {address : Word}
    (apart : ¬command.Touches address) : next.mem address = machine.mem address := by
  cases command with
  | processSpecificInit buffer => exact init_outside called apart
  | processSpecificFinish buffer => exact finish_outside called apart
  | _ => exact registerCall_untouched rfl called apart

def ThreadEvent.Touches : ThreadEvent → Word → Prop
  | .create _ _, _ => False
  | .call _ command, address => command.Touches address

theorem threadStep_untouched {event : ThreadEvent} {next : Process} {value : Returned}
    (stepped : threadStep platform event process = .ok (value, next)) {address : Word}
    (apart : ¬event.Touches address) : next.mem address = process.mem address := by
  cases event with
  | create parent child =>
      obtain ⟨_, _, _, rfl⟩ := threadStep_create stepped
      rfl
  | call thread command =>
      obtain ⟨_, machine, _, called, rfl⟩ := threadStep_call stepped
      exact callStep_untouched called apart

theorem framedStep_untouched {event : ThreadEvent} {frame : CallFrame} {next : Process}
    {value : Returned} (stepped : framedStep platform (event, frame) process = .ok (value, next))
    {address : Word} (apart : ¬event.Touches address) (outside : ¬frame.Covers address) :
    next.mem address = process.mem address := by
  obtain ⟨⟨_, after⟩, ran, left⟩ := RunRules.bind_ok_iff.mp stepped
  obtain ⟨-, rfl⟩ := Prod.mk.inj (Except.ok.inj left)
  exact (overlay_outside outside).trans
    ((threadStep_untouched ran apart).trans (overlay_outside outside))

/-- A frame of 256 bytes that is full of `0xcc` afterwards. -/
def noisyFrame (sp : Word) : CallFrame :=
  { sp := sp, depth := 256, entered := fun _ => 0xaa, left := fun _ => 0xcc }

def framedEvents : List (ThreadEvent × CallFrame) :=
  [(.call 0 (.processSpecificInit 0x5000), noisyFrame 0xb000), (.create 0 1, noisyFrame 0xb000),
    (.call 1 (.getbndl 0x8ff8 0), noisyFrame 0x9000),
    (.call 0 (.setbndl 0xaf00 0 5), noisyFrame 0xb000),
    (.call 0 (.qgetbndl 0xaff8 0), noisyFrame 0xb000)]

end SimplexMpx
