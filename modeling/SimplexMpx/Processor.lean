import SimplexMpx.ProcessorCore

/-! What each instruction of the processor model changes and leaves alone. -/

namespace SimplexMpx

open ByteMemory

/-- MPX is usable: instructions are interpreted and branches keep the registers. -/
def MpxState.Enabled (mpx : MpxState) : Prop := mpx.en = true ∧ mpx.bndpreserve = true

theorem enabled_of_bndcfgu_eq {first second : MpxState} (same : second.bndcfgu = first.bndcfgu)
    (enabled : first.Enabled) : second.Enabled := by
  simpa only [MpxState.Enabled, MpxState.en, MpxState.bndpreserve, same] using enabled

namespace Machine

@[simp] theorem store_mpx (address value : Word) (machine : Machine) :
    (machine.store address value).mpx = machine.mpx := rfl

theorem store_mem (address value : Word) (machine : Machine) :
    (machine.store address value).mem = store64 machine.mem address value := rfl

@[simp] theorem store_stderr (address value : Word) (machine : Machine) :
    (machine.store address value).stderr = machine.stderr := rfl

@[simp] theorem load_store_same (address value : Word) (machine : Machine) :
    (machine.store address value).load address = value :=
  load64_store64 machine.mem address value

theorem andqZero_eq (address : Word) (machine : Machine) :
    machine.andqZero address = machine.store address 0 := by
  simp [andqZero]

/-! Near branches -/

@[simp] theorem nearBranch_mem (machine : Machine) : machine.nearBranch.mem = machine.mem := by
  unfold nearBranch
  split <;> rfl

@[simp] theorem nearBranch_stderr (machine : Machine) :
    machine.nearBranch.stderr = machine.stderr := by
  unfold nearBranch
  split <;> rfl

@[simp] theorem nearBranch_bndcfgu (machine : Machine) :
    machine.nearBranch.mpx.bndcfgu = machine.mpx.bndcfgu := by
  unfold nearBranch
  split <;> rfl

@[simp] theorem nearBranch_bndstatus (machine : Machine) :
    machine.nearBranch.mpx.bndstatus = machine.mpx.bndstatus := by
  unfold nearBranch
  split <;> rfl

@[simp] theorem nearBranch_en (machine : Machine) :
    machine.nearBranch.mpx.en = machine.mpx.en := by
  simp [MpxState.en]

theorem nearBranch_of_preserve {machine : Machine}
    (preserve : machine.mpx.bndpreserve = true) : machine.nearBranch = machine := by
  simp [nearBranch, preserve]

theorem nearBranch_of_off {machine : Machine} (off : machine.mpx.en = false) :
    machine.nearBranch = machine := by
  simp [nearBranch, off]

theorem nearBranch_nearBranch (machine : Machine) :
    machine.nearBranch.nearBranch = machine.nearBranch := by
  by_cases resets : (machine.mpx.en && !machine.mpx.bndpreserve) = true
  · simp [nearBranch, resets]
  · simp [nearBranch, resets]

theorem nearBranch_of_enabled {machine : Machine} (enabled : machine.mpx.Enabled) :
    machine.nearBranch = machine :=
  nearBranch_of_preserve enabled.2

/-- Whether a branch resets the registers, and to what, is a matter of the MPX state alone. -/
theorem nearBranch_of_settled {first second : Machine} (settled : first.nearBranch = first)
    (same : second.mpx = first.mpx) : second.nearBranch = second := by
  have still : first.nearBranch.mpx = first.mpx := congrArg Machine.mpx settled
  by_cases resets : (first.mpx.en && !first.mpx.bndpreserve) = true
  · simp only [nearBranch, resets, if_true] at still
    simp only [nearBranch, same, resets, if_true, still]
    rw [← same]
  · simp only [nearBranch, same, resets, if_false, Bool.false_eq_true]

theorem nearCall_of_enabled {α : Type} {body : Machine → α × Machine} {machine : Machine}
    (enabled : machine.mpx.Enabled) (kept : (body machine).2.mpx.Enabled) :
    machine.nearCall body = body machine := by
  simp only [nearCall, nearBranch_of_enabled enabled, nearBranch_of_enabled kept]

/-! Bounds instructions -/

@[simp] theorem bndmk_mem (base index : Word) (bnd : Bnd) (machine : Machine) :
    (machine.bndmk base index bnd).mem = machine.mem := by
  unfold bndmk
  split <;> rfl

@[simp] theorem bndmk_stderr (base index : Word) (bnd : Bnd) (machine : Machine) :
    (machine.bndmk base index bnd).stderr = machine.stderr := by
  unfold bndmk
  split <;> rfl

@[simp] theorem bndmk_bndcfgu (base index : Word) (bnd : Bnd) (machine : Machine) :
    (machine.bndmk base index bnd).mpx.bndcfgu = machine.mpx.bndcfgu := by
  unfold bndmk
  split <;> rfl

@[simp] theorem bndmk_bndstatus (base index : Word) (bnd : Bnd) (machine : Machine) :
    (machine.bndmk base index bnd).mpx.bndstatus = machine.mpx.bndstatus := by
  unfold bndmk
  split <;> rfl

theorem bndmk_of_en {machine : Machine} (on : machine.mpx.en = true) (base index : Word)
    (bnd : Bnd) :
    machine.bndmk base index bnd = machine.setBnd bnd { lb := base, ub := ~~~(base + index) } := by
  simp [bndmk, on]

@[simp] theorem bndmov_mpx (bnd : Bnd) (address : Word) (machine : Machine) :
    (machine.bndmov bnd address).mpx = machine.mpx := by
  unfold bndmov
  split <;> rfl

@[simp] theorem bndmov_stderr (bnd : Bnd) (address : Word) (machine : Machine) :
    (machine.bndmov bnd address).stderr = machine.stderr := by
  unfold bndmov
  split <;> rfl

theorem load64_store64_next (memory : Memory 64) (address value : Word) :
    load64 (store64 memory (address + 8) value) address = load64 memory address := by
  apply load64_store64_of_apart <;> bv_omega

theorem bndmov_load_lower {machine : Machine} (on : machine.mpx.en = true) (bnd : Bnd)
    (address : Word) :
    (machine.bndmov bnd address).load address = (machine.mpx.bnd bnd).lb := by
  simp only [bndmov, on, if_true, load, store]
  rw [load64_store64_next, load64_store64]

theorem bndmov_load_upper {machine : Machine} (on : machine.mpx.en = true) (bnd : Bnd)
    (address : Word) :
    (machine.bndmov bnd address).load (address + 8) = (machine.mpx.bnd bnd).ub := by
  simp [bndmov, on]

theorem within_sixteen (base address : Word) :
    Within base 16 address ↔ Within base 8 address ∨ Within (base + 8) 8 address := by
  have bound : 8 + 8 ≤ 2 ^ 64 := by decide
  exact within_split base address bound

theorem bndmov_mem_outside {machine : Machine} {bnd : Bnd} {base address : Word}
    (outside : ¬Within base 16 address) :
    (machine.bndmov bnd base).mem address = machine.mem address := by
  rw [within_sixteen, not_or] at outside
  unfold bndmov
  split
  · simp only [store, store64_outside outside.1, store64_outside outside.2]
  · rfl

end Machine

end SimplexMpx
