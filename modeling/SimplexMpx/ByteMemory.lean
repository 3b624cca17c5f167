import Mathlib.Data.BitVec
import Mathlib.Data.List.Lex

/-!
Byte-addressed memory over `BitVec w`. All address arithmetic is modulo `2 ^ w`, so a range of
bytes may wrap; words are stored little endian.
-/

namespace ByteMemory

abbrev Memory (w : Nat) := BitVec w → BitVec 8

abbrev Word := BitVec 64

variable {w : Nat}

/-- `address` is one of the `count` bytes from `base` on. -/
def Within (base : BitVec w) (count : Nat) (address : BitVec w) : Prop :=
  (address - base).toNat < count

instance (base : BitVec w) (count : Nat) (address : BitVec w) :
    Decidable (Within base count address) :=
  inferInstanceAs (Decidable (_ < _))

def fill (memory : Memory w) (base : BitVec w) (count : Nat) (value : BitVec 8) : Memory w :=
  fun address => if Within base count address then value else memory address

/-- The bytes of `region` as `written` has them, the others as they are. -/
def overlay (region : BitVec w → Prop) [DecidablePred region] (written memory : Memory w) :
    Memory w :=
  fun address => if region address then written address else memory address

def loadBytes (memory : Memory w) (base : BitVec w) : Nat → Nat
  | 0 => 0
  | size + 1 => (memory base).toNat + 256 * loadBytes memory (base + 1) size

def storeBytes (memory : Memory w) (base : BitVec w) (size value : Nat) : Memory w :=
  fun address =>
    if Within base size address then BitVec.ofNat 8 (value / 256 ^ (address - base).toNat)
    else memory address

def load64 (memory : Memory 64) (base : Word) : Word :=
  BitVec.ofNat 64 (loadBytes memory base 8)

def store64 (memory : Memory 64) (base value : Word) : Memory 64 :=
  storeBytes memory base 8 value.toNat

theorem add_ofNat_sub_toNat (base : BitVec w) {offset : Nat} (bound : offset < 2 ^ w) :
    (base + BitVec.ofNat w offset - base).toNat = offset := by
  rw [add_sub_cancel_left, BitVec.toNat_ofNat, Nat.mod_eq_of_lt bound]

theorem add_ofNat_succ (base : BitVec w) (offset : Nat) :
    base + BitVec.ofNat w (offset + 1) = base + BitVec.ofNat w offset + 1 := by
  rw [BitVec.ofNat_add, ← add_assoc]
  rfl

theorem offsets_tail (Property : BitVec w → Prop) {base : BitVec w} {count : Nat}
    (offsets : ∀ offset < count + 1, Property (base + BitVec.ofNat w offset)) :
    Property base ∧ ∀ offset < count, Property (base + 1 + BitVec.ofNat w offset) := by
  refine ⟨by simpa using offsets 0 (by omega), ?_⟩
  intro offset inside
  have next := offsets (offset + 1) (by omega)
  rwa [add_ofNat_succ, add_right_comm] at next

theorem offsets_down_tail (Property : BitVec w → Prop) {base : BitVec w} {count : Nat}
    (offsets : ∀ offset < count + 1, Property (base - BitVec.ofNat w offset)) :
    Property base ∧ ∀ offset < count, Property (base - 1 - BitVec.ofNat w offset) := by
  refine ⟨by simpa using offsets 0 (by omega), ?_⟩
  intro offset inside
  have next := offsets (offset + 1) (by omega)
  rwa [BitVec.ofNat_add, sub_add_eq_sub_sub_swap] at next

theorem within_add (base : BitVec w) {offset count : Nat} (inside : offset < count)
    (bound : count ≤ 2 ^ w) : Within base count (base + BitVec.ofNat w offset) := by
  rw [Within, add_ofNat_sub_toNat base (by omega)]
  exact inside

theorem Within.mono {base address : BitVec w} {count more : Nat} (inside : Within base count address)
    (covers : count ≤ more) : Within base more address :=
  lt_of_lt_of_le inside covers

/-- Two ranges meet only where one of them contains the first byte of the other. -/
theorem base_within_of_common {first second address : Word} {firstCount secondCount : Nat}
    (inFirst : Within first firstCount address) (inSecond : Within second secondCount address) :
    Within first firstCount second ∨ Within second secondCount first := by
  simp only [Within, BitVec.toNat_sub] at *
  omega

theorem loadBytes_congr_offsets {first second : Memory w} {base : BitVec w} {size : Nat}
    (agree : ∀ offset < size, first (base + BitVec.ofNat w offset) =
      second (base + BitVec.ofNat w offset)) :
    loadBytes first base size = loadBytes second base size := by
  induction size generalizing base with
  | zero => rfl
  | succ size ih =>
      obtain ⟨head, rest⟩ := offsets_tail (fun address => first address = second address) agree
      rw [loadBytes, loadBytes, head, ih rest]

theorem loadBytes_congr {first second : Memory w} {base : BitVec w} {size : Nat}
    (bound : size ≤ 2 ^ w)
    (agree : ∀ address, Within base size address → first address = second address) :
    loadBytes first base size = loadBytes second base size :=
  loadBytes_congr_offsets fun _ inside => agree _ (within_add base inside bound)

theorem loadBytes_storeBytes_from (memory : Memory w) (base : BitVec w) (size value : Nat)
    (bound : size ≤ 2 ^ w) (count offset : Nat) (inside : offset + count ≤ size) :
    loadBytes (storeBytes memory base size value) (base + BitVec.ofNat w offset) count =
      value / 256 ^ offset % 256 ^ count := by
  induction count generalizing offset with
  | zero => simp [loadBytes, Nat.mod_one]
  | succ count ih =>
      have head : storeBytes memory base size value (base + BitVec.ofNat w offset) =
          BitVec.ofNat 8 (value / 256 ^ offset) := by
        rw [storeBytes, if_pos (within_add base (by omega) bound),
          add_ofNat_sub_toNat base (by omega)]
      have tail := ih (offset + 1) (by omega)
      rw [add_ofNat_succ, pow_succ, ← Nat.div_div_eq_div_mul] at tail
      rw [loadBytes, head, tail, pow_succ', Nat.mod_mul]
      simp

theorem loadBytes_storeBytes (memory : Memory w) (base : BitVec w) (size value : Nat)
    (bound : size ≤ 2 ^ w) :
    loadBytes (storeBytes memory base size value) base size = value % 256 ^ size := by
  simpa using loadBytes_storeBytes_from memory base size value bound size 0 (by omega)

@[simp] theorem load64_store64 (memory : Memory 64) (base value : Word) :
    load64 (store64 memory base value) base = value := by
  rw [load64, store64, loadBytes_storeBytes memory base 8 value.toNat (by decide)]
  apply BitVec.eq_of_toNat_eq
  have bound := value.isLt
  simp only [BitVec.toNat_ofNat]
  omega

theorem load64_congr {first second : Memory 64} {base : Word}
    (agree : ∀ address, Within base 8 address → first address = second address) :
    load64 first base = load64 second base := by
  rw [load64, load64, loadBytes_congr (by decide) agree]

theorem store64_outside {memory : Memory 64} {base value address : Word}
    (outside : ¬Within base 8 address) : store64 memory base value address = memory address := by
  rw [store64, storeBytes, if_neg outside]

theorem load64_store64_of_apart {memory : Memory 64} {base other value : Word}
    (below : 8 ≤ (other - base).toNat) (above : 8 ≤ (base - other).toNat) :
    load64 (store64 memory base value) other = load64 memory other := by
  apply load64_congr
  intro address inside
  apply store64_outside
  intro stored
  rcases base_within_of_common stored inside with meets | meets <;>
    simp only [Within] at meets <;> omega

theorem load64_zero (base : Word) : load64 (fun _ => 0) base = 0 := by
  simp [load64, loadBytes]

theorem load64_fill_zero {memory : Memory 64} {base word : Word} {count : Nat}
    (inside : ∀ address, Within word 8 address → Within base count address) :
    load64 (fill memory base count 0) word = 0 := by
  have zeros : load64 (fill memory base count 0) word = load64 (fun _ => 0) word := by
    apply load64_congr
    intro address member
    rw [fill, if_pos (inside address member)]
  rw [zeros, load64_zero]

theorem store64_zero_inside {memory : Memory 64} {base address : Word}
    (inside : Within base 8 address) : store64 memory base 0 address = 0 := by
  simp [store64, storeBytes, inside]

/-! Filling -/

theorem within_split (base address : Word) {first second : Nat} (bound : first + second ≤ 2 ^ 64) :
    Within base (first + second) address ↔
      Within base first address ∨ Within (base + BitVec.ofNat 64 first) second address := by
  simp only [Within]
  constructor
  · intro inside
    by_cases low : (address - base).toNat < first
    · exact Or.inl low
    · refine Or.inr ?_
      bv_omega
  · rintro (low | high)
    · omega
    · bv_omega

theorem fill_outside {base address : BitVec w} {count : Nat}
    (outside : ¬Within base count address) (memory : Memory w) (value : BitVec 8) :
    fill memory base count value address = memory address :=
  if_neg outside

theorem overlay_outside {region : BitVec w → Prop} [DecidablePred region] {written memory : Memory w}
    {address : BitVec w} (outside : ¬region address) :
    overlay region written memory address = memory address :=
  if_neg outside

theorem fill_fill (memory : Memory w) (base : BitVec w) (count : Nat) (value : BitVec 8) :
    fill (fill memory base count value) base count value = fill memory base count value := by
  funext address
  by_cases inside : Within base count address
  · rw [fill, if_pos inside, fill, if_pos inside]
  · rw [fill, if_neg inside]

theorem fill_extend (memory : Memory 64) (base : Word) {first second : Nat}
    (bound : first + second ≤ 2 ^ 64) (value : BitVec 8) :
    fill (fill memory (base + BitVec.ofNat 64 first) second value) base first value =
      fill memory base (first + second) value := by
  funext address
  have split := within_split base address bound
  by_cases low : Within base first address
  · rw [fill, if_pos low, fill, if_pos (split.mpr (Or.inl low))]
  · by_cases high : Within (base + BitVec.ofNat 64 first) second address
    · rw [fill, if_neg low, fill, if_pos high, fill, if_pos (split.mpr (Or.inr high))]
    · have outside : ¬Within base (first + second) address := by
        rw [split, not_or]
        exact ⟨low, high⟩
      rw [fill, if_neg low, fill, if_neg high, fill, if_neg outside]

theorem store64_zero (memory : Memory 64) (base : Word) :
    store64 memory base 0 = fill memory base 8 0 := by
  funext address
  by_cases inside : Within base 8 address
  · rw [store64_zero_inside inside, fill, if_pos inside]
  · rw [store64_outside inside, fill, if_neg inside]

theorem store64_zero_above (memory : Memory 64) (base : Word) {count : Nat}
    (bound : 8 + count ≤ 2 ^ 64) :
    store64 (fill memory (base + 8) count 0) base 0 = fill memory base (8 + count) 0 := by
  rw [store64_zero]
  exact fill_extend memory base bound 0

theorem fill_congr {first second : Memory w} {base : BitVec w} {count : Nat}
    (agree : ∀ address, ¬Within base count address → first address = second address)
    (value : BitVec 8) : fill first base count value = fill second base count value := by
  funext address
  by_cases inside : Within base count address
  · rw [fill, if_pos inside, fill, if_pos inside]
  · rw [fill, if_neg inside, fill, if_neg inside, agree address inside]

/-! Copies byte by byte -/

def copyInOrder (memory : Memory w) : List (BitVec w × BitVec w) → Memory w
  | [] => memory
  | (source, target) :: rest =>
      copyInOrder (Function.update memory target (memory source)) rest

theorem copyInOrder_outside {pairs : List (BitVec w × BitVec w)} {memory : Memory w}
    {address : BitVec w} (outside : ∀ pair ∈ pairs, address ≠ pair.2) :
    copyInOrder memory pairs address = memory address := by
  induction pairs generalizing memory with
  | nil => rfl
  | cons pair rest ih =>
      obtain ⟨here, later⟩ := List.forall_mem_cons.mp outside
      rw [copyInOrder, ih later, Function.update_of_ne here]

/-- No pair reads or writes where an earlier one has written. -/
def Unspoilt (pairs : List (BitVec w × BitVec w)) : Prop :=
  pairs.Pairwise fun earlier later => later.1 ≠ earlier.2 ∧ later.2 ≠ earlier.2

theorem copyInOrder_copied {pairs : List (BitVec w × BitVec w)} {memory : Memory w}
    (unspoilt : Unspoilt pairs) :
    ∀ pair ∈ pairs, copyInOrder memory pairs pair.2 = memory pair.1 := by
  induction pairs generalizing memory with
  | nil => simp
  | cons first rest ih =>
      obtain ⟨apart, later⟩ := List.pairwise_cons.mp unspoilt
      intro pair member
      rw [copyInOrder]
      rcases List.mem_cons.mp member with rfl | inRest
      · rw [copyInOrder_outside (fun other inRest => ((apart other inRest).2).symm),
          Function.update_self]
      · rw [ih later pair inRest, Function.update_of_ne (apart pair inRest).1]

theorem add_ofNat_shift (base : BitVec w) (offset : Nat) :
    base + BitVec.ofNat w (offset + 1) = base + 1 + BitVec.ofNat w offset := by
  rw [add_ofNat_succ, add_right_comm]

theorem add_ofNat_zero (base : BitVec w) : base + BitVec.ofNat w 0 = base := add_zero base

theorem add_ofNat_eq_iff {first second : Word} {i j : Nat} (firstFits : first.toNat + i < 2 ^ 64)
    (secondFits : second.toNat + j < 2 ^ 64) :
    first + BitVec.ofNat 64 i = second + BitVec.ofNat 64 j ↔
      first.toNat + i = second.toNat + j := by
  bv_omega

def upwards (d s : Word) (count : Nat) : List (Word × Word) :=
  (List.range count).map fun offset => (s + BitVec.ofNat 64 offset, d + BitVec.ofNat 64 offset)

theorem unspoilt_of_offsets {d s : Word} {offsets : List Nat}
    (targetFits : ∀ offset ∈ offsets, d.toNat + offset < 2 ^ 64)
    (sourceFits : ∀ offset ∈ offsets, s.toNat + offset < 2 ^ 64)
    (order : offsets.Pairwise fun earlier later =>
      earlier ≠ later ∧ s.toNat + later ≠ d.toNat + earlier) :
    Unspoilt (offsets.map fun offset =>
      (s + BitVec.ofNat 64 offset, d + BitVec.ofNat 64 offset)) := by
  rw [Unspoilt, List.pairwise_map]
  refine order.imp_of_mem ?_
  intro earlier later earlierIn laterIn apart
  have target := targetFits earlier earlierIn
  have target' := targetFits later laterIn
  have source := sourceFits later laterIn
  constructor
  · intro same
    exact apart.2 ((add_ofNat_eq_iff source target).mp same)
  · intro same
    have together := (add_ofNat_eq_iff target' target).mp same
    omega

theorem unspoilt_upwards {d s : Word} {count : Nat} (below : d ≤ s)
    (targetFits : d.toNat + count ≤ 2 ^ 64) (sourceFits : s.toNat + count ≤ 2 ^ 64) :
    Unspoilt (upwards d s count) := by
  have order : d.toNat ≤ s.toNat := below
  apply unspoilt_of_offsets
  · intro offset member
    have inside := List.mem_range.mp member
    omega
  · intro offset member
    have inside := List.mem_range.mp member
    omega
  · refine List.pairwise_lt_range.imp ?_
    intro earlier later before
    omega

theorem unspoilt_downwards {d s : Word} {count : Nat} (above : s ≤ d)
    (targetFits : d.toNat + count ≤ 2 ^ 64) (sourceFits : s.toNat + count ≤ 2 ^ 64) :
    Unspoilt (upwards d s count).reverse := by
  have order : s.toNat ≤ d.toNat := above
  rw [upwards, ← List.map_reverse]
  apply unspoilt_of_offsets
  · intro offset member
    have inside := List.mem_range.mp (List.mem_reverse.mp member)
    omega
  · intro offset member
    have inside := List.mem_range.mp (List.mem_reverse.mp member)
    omega
  · rw [List.pairwise_reverse]
    refine List.pairwise_lt_range.imp ?_
    intro later earlier before
    omega

theorem within_iff_offset {base address : Word} {count : Nat} (bound : count ≤ 2 ^ 64) :
    Within base count address ↔ ∃ offset < count, address = base + BitVec.ofNat 64 offset := by
  constructor
  · intro inside
    refine ⟨(address - base).toNat, inside, ?_⟩
    rw [BitVec.ofNat_toNat, BitVec.setWidth_eq]
    exact (add_sub_cancel base address).symm
  · rintro ⟨offset, inside, rfl⟩
    exact within_add base inside bound

theorem within_succ (base address : Word) {count : Nat} (bound : count < 2 ^ 64) :
    Within base (count + 1) address ↔
      Within base count address ∨ address = base + BitVec.ofNat 64 count := by
  unfold Within
  bv_omega

/-- A copy between ranges that do not meet. -/
theorem unspoilt_of_disjoint {d s : Word} {count : Nat} (bound : count ≤ 2 ^ 64)
    (disjoint : ∀ address, Within d count address → ¬Within s count address) :
    Unspoilt (upwards d s count) := by
  rw [Unspoilt, upwards, List.pairwise_map]
  refine List.pairwise_lt_range.imp_of_mem ?_
  intro earlier later earlierIn laterIn before
  have first := List.mem_range.mp earlierIn
  have second := List.mem_range.mp laterIn
  constructor
  · intro same
    have inSource := within_add s second bound
    rw [show s + BitVec.ofNat 64 later = d + BitVec.ofNat 64 earlier from same] at inSource
    exact disjoint _ (within_add d first bound) inSource
  · intro same
    have offsets := congrArg (fun address => (address - d).toNat) same
    simp only [add_ofNat_sub_toNat d (show later < 2 ^ 64 by omega),
      add_ofNat_sub_toNat d (show earlier < 2 ^ 64 by omega)] at offsets
    omega

theorem copyInOrder_append (memory : Memory w) (first second : List (BitVec w × BitVec w)) :
    copyInOrder memory (first ++ second) = copyInOrder (copyInOrder memory first) second := by
  induction first generalizing memory with
  | nil => rfl
  | cons pair rest ih => exact ih _

/-- A copy upwards, wherever it goes: a target above its source repeats the bytes in between. -/
theorem copyInOrder_upwards {d s : Word} {count : Nat} (bound : count ≤ 2 ^ 64)
    (memory : Memory 64) (address : Word) :
    copyInOrder memory (upwards d s count) address =
      if Within d count address then
        memory (s + BitVec.ofNat 64 ((address - d).toNat % (d - s).toNat))
      else memory address := by
  induction count generalizing address with
  | zero => simp [upwards, copyInOrder, Within]
  | succ count ih =>
      have shape : upwards d s (count + 1) =
          upwards d s count ++ [(s + BitVec.ofNat 64 count, d + BitVec.ofNat 64 count)] := by
        simp [upwards, List.range_succ]
      have ih := @ih (by omega)
      rw [shape, copyInOrder_append, copyInOrder, copyInOrder]
      by_cases last : address = d + BitVec.ofNat 64 count
      · have inside : Within d (count + 1) address := last ▸ within_add d (by omega) bound
        rw [if_pos inside, last, Function.update_self, ih, add_ofNat_sub_toNat d (by omega)]
        by_cases again : Within d count (s + BitVec.ofNat 64 count)
        -- the byte to be copied has been written, one period before
        · have back : (s + BitVec.ofNat 64 count - d).toNat = count - (d - s).toNat ∧
              (d - s).toNat ≤ count := by
            unfold Within at again
            bv_omega
          rw [if_pos again, back.1, ← Nat.mod_eq_sub_mod back.2]
        · have ahead : (d - s).toNat = 0 ∨ count < (d - s).toNat := by
            unfold Within at again
            bv_omega
          rw [if_neg again]
          rcases ahead with same | beyond
          · rw [same, Nat.mod_zero]
          · rw [Nat.mod_eq_of_lt beyond]
      · have earlier : Within d (count + 1) address ↔ Within d count address := by
          rw [within_succ d address (by omega), or_iff_left last]
        rw [Function.update_of_ne last, ih]
        simp only [earlier]

/-! Logs of accesses, latest first -/

inductive ByteAccess (w : Nat)
  | read (address : BitVec w)
  | wrote (address : BitVec w)
deriving DecidableEq, Repr

/-- The log reads `address` without having written it: the byte found there is an input. -/
def ReadsInput : List (ByteAccess w) → BitVec w → Prop
  | [], _ => False
  | .read here :: earlier, address =>
      here = address ∧ .wrote address ∉ earlier ∨ ReadsInput earlier address
  | .wrote _ :: earlier, address => ReadsInput earlier address

theorem ReadsInput.read_mem {log : List (ByteAccess w)} {address : BitVec w}
    (input : ReadsInput log address) : .read address ∈ log := by
  induction log with
  | nil => exact input.elim
  | cons access earlier ih =>
      cases access with
      | read here =>
          rcases input with ⟨rfl, _⟩ | later
          · exact List.mem_cons_self
          · exact List.mem_cons_of_mem _ (ih later)
      | wrote here => exact List.mem_cons_of_mem _ (ih input)

/-! Comparing byte by byte -/

section Order

variable {α : Type} [LinearOrder α]

def orderSign (x y : α) : Int := if x < y then -1 else if y < x then 1 else 0

theorem orderSign_swap (x y : α) : orderSign y x = -orderSign x y := by
  unfold orderSign
  rcases lt_trichotomy x y with below | rfl | above
  · rw [if_pos below, if_neg (lt_asymm below), if_pos below, neg_neg]
  · rw [if_neg (lt_irrefl x), if_neg (lt_irrefl x), neg_zero]
  · rw [if_pos above, if_neg (lt_asymm above), if_pos above]

theorem orderSign_nonpos (x y : α) : orderSign x y ≤ 0 ↔ x ≤ y := by
  unfold orderSign
  rcases lt_trichotomy x y with below | rfl | above
  · rw [if_pos below]
    exact iff_of_true (by decide) (le_of_lt below)
  · rw [if_neg (lt_irrefl x), if_neg (lt_irrefl x)]
    exact iff_of_true (le_refl 0) (le_refl x)
  · rw [if_neg (lt_asymm above), if_pos above]
    exact iff_of_false (by decide) (not_le.mpr above)

theorem orderSign_self (x : α) : orderSign x x = 0 := by
  rw [orderSign, if_neg (lt_irrefl x), if_neg (lt_irrefl x)]

theorem orderSign_cons_of_ne {x y : α} (differ : x ≠ y) (xs ys : List α) :
    orderSign (x :: xs) (y :: ys) = if x < y then -1 else 1 := by
  unfold orderSign
  by_cases below : x < y
  · rw [if_pos below, if_pos (List.cons_lt_cons_iff.mpr (Or.inl below))]
  · have above : y < x := lt_of_le_of_ne (not_lt.mp below) (Ne.symm differ)
    have notLess : ¬x :: xs < y :: ys := by
      rw [List.cons_lt_cons_iff]
      rintro (less | ⟨same, -⟩)
      · exact below less
      · exact differ same
    rw [if_neg below, if_neg notLess, if_pos (List.cons_lt_cons_iff.mpr (Or.inl above))]

theorem orderSign_cons_self (x : α) (xs ys : List α) :
    orderSign (x :: xs) (x :: ys) = orderSign xs ys := by
  have tails : ∀ us vs : List α, x :: us < x :: vs ↔ us < vs := by
    intro us vs
    simp
  unfold orderSign
  by_cases below : xs < ys
  · rw [if_pos below, if_pos ((tails xs ys).mpr below)]
  · rw [if_neg below, if_neg (mt (tails xs ys).mp below)]
    by_cases above : ys < xs
    · rw [if_pos above, if_pos ((tails ys xs).mpr above)]
    · rw [if_neg above, if_neg (mt (tails ys xs).mp above)]

end Order

def bytesAt (memory : Memory 64) : Word → Nat → List Nat
  | _, 0 => []
  | base, count + 1 => (memory base).toNat :: bytesAt memory (base + 1) count

theorem bytesAt_congr {memory memory' : Memory 64} {base base' : Word} {count : Nat}
    (agree : ∀ offset < count, memory (base + BitVec.ofNat 64 offset) =
      memory' (base' + BitVec.ofNat 64 offset)) :
    bytesAt memory base count = bytesAt memory' base' count := by
  induction count generalizing base base' with
  | zero => rfl
  | succ count ih =>
      have head := agree 0 (by omega)
      rw [add_ofNat_zero, add_ofNat_zero] at head
      rw [bytesAt, bytesAt, head]
      congr 1
      apply ih
      intro offset inside
      have next := agree (offset + 1) (by omega)
      rwa [add_ofNat_shift, add_ofNat_shift] at next

/-! Stacks of words -/

def StackHolds (memory : Memory 64) : Word → List Word → Prop
  | _, [] => True
  | top, word :: words => load64 memory top = word ∧ StackHolds memory (top + 8) words

theorem stackHolds_congr {first second : Memory 64} {words : List Word} {top : Word}
    (bound : 8 * words.length ≤ 2 ^ 64)
    (agree : ∀ address, Within top (8 * words.length) address → first address = second address)
    (holds : StackHolds first top words) : StackHolds second top words := by
  induction words generalizing top with
  | nil => trivial
  | cons word words ih =>
      have length : 8 * (word :: words).length = 8 + 8 * words.length := by
        simp only [List.length_cons]
        omega
      rw [length] at bound agree
      have split := fun address => within_split top address bound
      refine ⟨?_, ih (by omega) ?_ holds.2⟩
      · rw [← holds.1]
        apply load64_congr
        intro address inside
        exact (agree address ((split address).mpr (Or.inl inside))).symm
      · intro address inside
        exact agree address ((split address).mpr (Or.inr inside))

theorem stackHolds_push {memory : Memory 64} {words : List Word} {top : Word}
    (room : 8 * words.length + 8 ≤ 2 ^ 64) (value : Word) (holds : StackHolds memory top words) :
    StackHolds (store64 memory (top - 8) value) (top - 8) (value :: words) := by
  refine ⟨load64_store64 memory (top - 8) value, ?_⟩
  rw [sub_add_cancel]
  refine stackHolds_congr (by omega) ?_ holds
  intro address inside
  symm
  apply store64_outside
  intro written
  simp only [Within] at inside written
  bv_omega

end ByteMemory
