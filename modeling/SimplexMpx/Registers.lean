import SimplexMpx.Processor
import SimplexMpx.RegisterCore

/-!
One equation for each function of `simplex.c`: what it returns, and the machine it leaves. On a
valid register an accessor leaves the 16 bytes from `rsp - 0x80` zero, whether MPX is on or off.
-/

namespace SimplexMpx

open ByteMemory

/-- The 16 scratch bytes an accessor at `rsp` spills a register to. -/
def InSlot (rsp address : Word) : Prop := Within (rsp - 0x80) 16 address

instance (rsp address : Word) : Decidable (InSlot rsp address) :=
  inferInstanceAs (Decidable (Within _ _ _))

theorem upperSlot_eq (rsp : Word) : rsp - 0x78 = rsp - 0x80 + 8 := by bv_omega

def Machine.scrubbed (rsp : Word) (machine : Machine) : Machine :=
  { machine with mem := fill machine.mem (rsp - 0x80) 16 0 }

def Machine.spilled (bnd : Bnd) (rsp : Word) (machine : Machine) : Machine :=
  machine.bndmov bnd (rsp - 0x80)

def spilledPair (bnd : Bnd) (rsp : Word) (machine : Machine) : BndPair :=
  { lb := (machine.spilled bnd rsp).load (rsp - 0x80)
    ub := (machine.spilled bnd rsp).load (rsp - 0x78) }

theorem spilledPair_of_en {machine : Machine} (on : machine.mpx.en = true) (bnd : Bnd)
    (rsp : Word) : spilledPair bnd rsp machine = machine.mpx.bnd bnd := by
  rw [spilledPair, upperSlot_eq, Machine.spilled, Machine.bndmov_load_lower on,
    Machine.bndmov_load_upper on]

theorem spilledPair_of_off {machine : Machine} (off : machine.mpx.en = false) (bnd : Bnd)
    (rsp : Word) :
    spilledPair bnd rsp machine =
      { lb := machine.load (rsp - 0x80), ub := machine.load (rsp - 0x78) } := by
  simp [spilledPair, Machine.spilled, Machine.bndmov, off]

@[simp] theorem scrubbed_mpx (rsp : Word) (machine : Machine) :
    (machine.scrubbed rsp).mpx = machine.mpx := rfl

@[simp] theorem scrubbed_stderr (rsp : Word) (machine : Machine) :
    (machine.scrubbed rsp).stderr = machine.stderr := rfl

@[simp] theorem spilled_mpx (bnd : Bnd) (rsp : Word) (machine : Machine) :
    (machine.spilled bnd rsp).mpx = machine.mpx := by
  simp [Machine.spilled]

@[simp] theorem spilled_stderr (bnd : Bnd) (rsp : Word) (machine : Machine) :
    (machine.spilled bnd rsp).stderr = machine.stderr := by
  simp [Machine.spilled]

theorem scrubbed_mem_inside {rsp address : Word} (inside : InSlot rsp address)
    (machine : Machine) : (machine.scrubbed rsp).mem address = 0 :=
  if_pos inside

theorem scrubbed_mem_outside {rsp address : Word} (outside : ¬InSlot rsp address)
    (machine : Machine) : (machine.scrubbed rsp).mem address = machine.mem address :=
  if_neg outside

theorem sanitize_eq (rsp : Word) (machine : Machine) :
    sanitize rsp machine = machine.scrubbed rsp := by
  have memory : (sanitize rsp machine).mem = (machine.scrubbed rsp).mem := by
    simp only [sanitize, Machine.andqZero_eq, Machine.store]
    rw [upperSlot_eq, store64_zero machine.mem, store64_zero_above _ _ (by decide)]
    rfl
  exact Machine.ext rfl memory rfl

theorem spilled_mem_outside {rsp address : Word} (outside : ¬InSlot rsp address) (bnd : Bnd)
    (machine : Machine) : (machine.spilled bnd rsp).mem address = machine.mem address :=
  Machine.bndmov_mem_outside outside

theorem scrubbed_spilled (bnd : Bnd) (rsp : Word) (machine : Machine) :
    (machine.spilled bnd rsp).scrubbed rsp = machine.scrubbed rsp := by
  have memory : ((machine.spilled bnd rsp).scrubbed rsp).mem = (machine.scrubbed rsp).mem := by
    funext address
    by_cases inside : InSlot rsp address
    · rw [scrubbed_mem_inside inside, scrubbed_mem_inside inside]
    · rw [scrubbed_mem_outside inside, scrubbed_mem_outside inside, spilled_mem_outside inside]
  exact Machine.ext (by simp) memory (by simp)

/-! Accessors -/

/-- What an accessor of `simplex.c` leaves: the slot scrubbed, or a message for an invalid
register. -/
def afterAccess (function : String) (rsp : Word) (reg : BndregT) (machine : Machine) : Machine :=
  match switchReg reg with
  | some _ => machine.scrubbed rsp
  | none => machine.fprintfStderr (invalidRegister function reg)

def accessed {α : Type} (invalid : α) (decode : BndPair → α) (rsp : Word) (reg : BndregT)
    (machine : Machine) : α :=
  match switchReg reg with
  | some bnd => decode (spilledPair bnd rsp machine)
  | none => invalid

def wideOf (pair : BndPair) : BitVec 128 :=
  pair.lb.setWidth 128 ||| (~~~pair.ub.setWidth 128) <<< 64

theorem getbndl_eq (rsp : Word) (reg : BndregT) (machine : Machine) :
    getbndl rsp reg machine =
      (accessed 0 BndPair.lb rsp reg machine, afterAccess "getbndl" rsp reg machine) := by
  unfold getbndl accessed afterAccess
  cases switchReg reg with
  | none => rfl
  | some bnd =>
      simp only [sanitize_eq]
      exact Prod.ext rfl (scrubbed_spilled bnd rsp machine)

theorem getbndu_eq (rsp : Word) (reg : BndregT) (machine : Machine) :
    getbndu rsp reg machine =
      (accessed 0 (fun pair => ~~~pair.ub) rsp reg machine,
        afterAccess "getbndu" rsp reg machine) := by
  unfold getbndu accessed afterAccess
  cases switchReg reg with
  | none => rfl
  | some bnd =>
      simp only [sanitize_eq]
      exact Prod.ext rfl (scrubbed_spilled bnd rsp machine)

theorem getbnd_eq (rsp : Word) (reg : BndregT) (machine : Machine) :
    getbnd rsp reg machine =
      (accessed 0 wideOf rsp reg machine, afterAccess "getbndu" rsp reg machine) := by
  unfold getbnd accessed afterAccess
  cases switchReg reg with
  | none => rfl
  | some bnd =>
      simp only [sanitize_eq]
      exact Prod.ext rfl (scrubbed_spilled bnd rsp machine)

def afterQuickAccess (rsp : Word) (reg : BndregT) (machine : Machine) : Machine :=
  match switchReg reg with
  | some bnd => machine.spilled bnd rsp
  | none => machine.fprintfStderr (invalidRegister "getbndl" reg)

theorem qgetbndl_eq (rsp : Word) (reg : BndregT) (machine : Machine) :
    qgetbndl rsp reg machine =
      (accessed 0 BndPair.lb rsp reg machine, afterQuickAccess rsp reg machine) := by
  unfold qgetbndl accessed afterQuickAccess
  cases switchReg reg <;> rfl

@[simp] theorem afterAccess_mpx (function : String) (rsp : Word) (reg : BndregT)
    (machine : Machine) : (afterAccess function rsp reg machine).mpx = machine.mpx := by
  unfold afterAccess
  split <;> rfl

@[simp] theorem afterQuickAccess_mpx (rsp : Word) (reg : BndregT) (machine : Machine) :
    (afterQuickAccess rsp reg machine).mpx = machine.mpx := by
  unfold afterQuickAccess
  split
  · simp
  · rfl

theorem afterQuickAccess_mem_outside {rsp address : Word} (apart : ¬InSlot rsp address)
    (reg : BndregT) (machine : Machine) :
    (afterQuickAccess rsp reg machine).mem address = machine.mem address := by
  unfold afterQuickAccess
  split
  · exact spilled_mem_outside apart _ machine
  · rfl

theorem accessed_of_en {α : Type} {machine : Machine} (on : machine.mpx.en = true) (invalid : α)
    (decode : BndPair → α) (rsp : Word) (reg : BndregT) :
    accessed invalid decode rsp reg machine =
      match switchReg reg with
      | some bnd => decode (machine.mpx.bnd bnd)
      | none => invalid := by
  unfold accessed
  cases switchReg reg with
  | none => rfl
  | some bnd => simp only [spilledPair_of_en on]

/-! Mutators -/

def writePair (function : String) (reg : BndregT) (lower displacement : Word)
    (machine : Machine) : Machine :=
  match switchReg reg with
  | some bnd => machine.bndmk lower displacement bnd
  | none => machine.fprintfStderr (invalidRegister function reg)

@[simp] theorem writePair_mem (function : String) (reg : BndregT) (lower displacement : Word)
    (machine : Machine) : (writePair function reg lower displacement machine).mem = machine.mem := by
  unfold writePair
  split
  · simp
  · rfl

@[simp] theorem writePair_bndcfgu (function : String) (reg : BndregT)
    (lower displacement : Word) (machine : Machine) :
    (writePair function reg lower displacement machine).mpx.bndcfgu = machine.mpx.bndcfgu := by
  unfold writePair
  split
  · simp
  · rfl

theorem writePair_bnd_of_en {machine : Machine} (on : machine.mpx.en = true) (function : String)
    (reg : BndregT) (lower displacement : Word) :
    (writePair function reg lower displacement machine).mpx.bnd =
      match switchReg reg with
      | some bnd => Function.update machine.mpx.bnd bnd
          { lb := lower, ub := ~~~(lower + displacement) }
      | none => machine.mpx.bnd := by
  unfold writePair
  cases switchReg reg with
  | none => rfl
  | some bnd => simp only [Machine.bndmk_of_en on, Machine.setBnd]

theorem setbndl_eq (rsp : Word) (reg : BndregT) (val : Word) (machine : Machine) :
    setbndl rsp reg val machine =
      writePair "setbndl" reg val ((machine.nearCall (getbndu rsp reg)).1 - val)
        (machine.nearCall (getbndu rsp reg)).2 := rfl

theorem setbndu_eq (rsp : Word) (reg : BndregT) (val : Word) (machine : Machine) :
    setbndu rsp reg val machine =
      writePair "setbndu" reg (machine.nearCall (getbndl rsp reg)).1
        (val - (machine.nearCall (getbndl rsp reg)).1)
        (machine.nearCall (getbndl rsp reg)).2 := rfl

def lowHalf (val : BitVec 128) : Word := val.setWidth 64

def highHalf (val : BitVec 128) : Word := (val >>> 64).setWidth 64

theorem setbnd_eq (reg : BndregT) (val : BitVec 128) (machine : Machine) :
    setbnd reg val machine =
      writePair "setbndu" reg (lowHalf val) (highHalf val - lowHalf val) machine := by
  have mask : LOWER.setWidth 128 = BitVec.ofNat 128 (2 ^ 64 - 1) := by decide
  have lower : (val &&& LOWER.setWidth 128).setWidth 64 = lowHalf val := by
    apply BitVec.eq_of_toNat_eq
    simp only [lowHalf, mask, BitVec.toNat_setWidth, BitVec.toNat_and, BitVec.toNat_ofNat]
    rw [Nat.mod_eq_of_lt (show 2 ^ 64 - 1 < 2 ^ 128 by decide), Nat.and_two_pow_sub_one_eq_mod,
      Nat.mod_mod]
  -- LOWER is a 64-bit constant, so the xor leaves the upper half of the value alone.
  have upper : ((val ^^^ LOWER.setWidth 128) >>> 64).setWidth 64 = highHalf val := by
    have cleared : LOWER.setWidth 128 >>> 64 = 0#128 := by decide
    rw [BitVec.ushiftRight_xor_distrib, cleared, BitVec.xor_zero, highHalf]
  unfold setbnd
  simp only [lower, upper]
  rfl

theorem qsetbndl_eq (reg : BndregT) (val : Word) (machine : Machine) :
    qsetbndl reg val machine = writePair "qsetbndl" reg val 0 machine := rfl

end SimplexMpx
