import SimplexMpx.Kmod
import SimplexMpx.Pointers

/-!
When the kernel module is loaded. The loader keeps a module whose init function returns a value
that is not negative, and `enable_init` returns 1 where it has not enabled MPX.
-/

namespace SimplexMpx

open ByteMemory

namespace Simplexkm

/-- Both results are kept by the loader; the last line printed tells them apart. -/
theorem enableInit_printed {platform : Platform} {buffer : Word} {machine entered : Machine}
    {result : Int} {printed : List LogLine}
    (returned : enableInit platform buffer machine = .ok (result, entered, printed))
    (log : List LogLine) :
    0 ≤ result ∧ (enableMessages <:+ log ++ printed ↔ Detected platform) := by
  rw [← checkMpxSupport_iff]
  rcases noMpxSupport_cases platform with ⟨supported, told⟩ | ⟨text, unsupported, told⟩
  · simp only [enableInit, told, enableMpx] at returned
    obtain ⟨⟨enabled, messages⟩, ran, ended⟩ := RunRules.bind_ok_iff.mp returned
    obtain ⟨machine', -, shown⟩ := RunRules.bind_ok_iff.mp ran
    obtain ⟨rfl, rfl⟩ := Prod.mk.inj (Except.ok.inj shown)
    obtain ⟨rfl, pair⟩ := Prod.mk.inj (Except.ok.inj ended)
    obtain ⟨rfl, rfl⟩ := Prod.mk.inj pair
    rw [← List.append_assoc]
    exact ⟨Int.le_refl 0, iff_of_true (List.suffix_append _ _) supported⟩
  · simp only [enableInit, told, if_true] at returned
    obtain ⟨rfl, pair⟩ := Prod.mk.inj (Except.ok.inj returned)
    obtain ⟨rfl, rfl⟩ := Prod.mk.inj pair
    refine ⟨Int.one_nonneg, iff_of_false ?_ (by simp [unsupported])⟩
    rintro ⟨earlier, joined⟩
    have lastLine := congrArg List.getLast? joined
    simp [enableMessages, info, err] at lastLine

end Simplexkm

def System.EnabledLast (system : System) : Prop :=
  Simplexkm.enableMessages <:+ system.log

/-- The module is loaded only where its most recent load has enabled MPX: a load that finds no
support is refused, and what `enable_cleanup` ends is what `enable_mpx` began. -/
structure LoadedOnlyEnabled (platform : Platform) (events : List KernelEvent) (system : System) :
    Prop where
  enabledByLoad : ∀ before after values reached, events = before ++ after →
    runKernel platform before system = .ok (values, reached) →
    reached.loaded ≠ none → reached.EnabledLast
  refusedUnsupported : ∀ before processor buffer after values reached value next,
    events = before ++ .insmod processor buffer :: after →
    runKernel platform before system = .ok (values, reached) →
    kernelStep platform (.insmod processor buffer) reached = .ok (value, next) →
    ¬Detected platform → next.loaded = none
  cleanupMatched : ∀ before processor buffer after values reached next,
    events = before ++ .rmmod processor buffer :: after →
    runKernel platform before system = .ok (values, reached) →
    kernelStep platform (.rmmod processor buffer) reached = .ok (.cleanedUp, next) →
    reached.EnabledLast

/-! What one event does to the module -/

theorem loads_shape {event : KernelEvent} (loads : event.loads = true) :
    ∃ processor buffer, event = .insmod processor buffer := by
  cases event with
  | insmod processor buffer => exact ⟨processor, buffer, rfl⟩
  | _ => contradiction

theorem unloads_shape {event : KernelEvent} (unloads : event.unloads = true) :
    ∃ processor buffer, event = .rmmod processor buffer := by
  cases event with
  | rmmod processor buffer => exact ⟨processor, buffer, rfl⟩
  | _ => contradiction

section Steps

variable {platform : Platform} {system next : System} {value : KernelValue}

theorem otherEvent_module {event : KernelEvent} (idle : event.loads = false)
    (kept : event.unloads = false)
    (stepped : kernelStep platform event system = .ok (value, next)) :
    next.loaded = system.loaded ∧ next.log = system.log := by
  cases event with
  | insmod processor buffer => simp [KernelEvent.loads] at idle
  | rmmod processor buffer => simp [KernelEvent.unloads] at kept
  | create processor child =>
      obtain ⟨current, registers, _, _, rfl⟩ := create_ok stepped
      exact ⟨rfl, rfl⟩
  | contextSwitch processor other =>
      obtain ⟨current, registers, restored, _, _, rfl⟩ := contextSwitch_ok stepped
      exact ⟨rfl, rfl⟩
  | user processor instruction =>
      obtain ⟨current, registers, _, _, rfl⟩ := user_ok stepped
      exact ⟨rfl, rfl⟩

theorem insmod_loaded {processor : Nat} {buffer : Word}
    (stepped : kernelStep platform (.insmod processor buffer) system = .ok (value, next)) :
    next.loaded ≠ none := by
  rcases insmod_cases stepped with
    ⟨earlier, _, rfl⟩ | ⟨_, _, result, _, _, _, ran, _, rfl⟩
  · exact earlier
  · have positive := (Simplexkm.enableInit_printed ran []).1
    simp only [if_neg (show ¬result < 0 by omega)]
    exact Option.some_ne_none result

theorem enabledLast_step {event : KernelEvent}
    (decided : system.loaded ≠ none → (system.EnabledLast ↔ Detected platform))
    (stepped : kernelStep platform event system = .ok (value, next)) :
    next.loaded ≠ none → (next.EnabledLast ↔ Detected platform) := by
  intro held
  by_cases loads : event.loads = true
  · obtain ⟨processor, buffer, rfl⟩ := loads_shape loads
    rcases insmod_cases stepped with ⟨earlier, _, rfl⟩ | ⟨_, _, _, _, _, _, ran, _, rfl⟩
    · exact decided earlier
    · exact (Simplexkm.enableInit_printed ran system.log).2
  by_cases unloads : event.unloads = true
  · obtain ⟨processor, buffer, rfl⟩ := unloads_shape unloads
    rcases rmmod_cases stepped with ⟨_, _, rfl⟩ | ⟨_, _, _, _, _, _, _, rfl⟩
    · exact decided held
    · exact absurd rfl held
  · obtain ⟨same, quiet⟩ := otherEvent_module (Bool.not_eq_true _ ▸ loads)
      (Bool.not_eq_true _ ▸ unloads) stepped
    rw [System.EnabledLast, quiet]
    exact decided (same ▸ held)

theorem unloaded_step {event : KernelEvent} (idle : event.loads = false)
    (unloaded : system.loaded = none)
    (stepped : kernelStep platform event system = .ok (value, next)) : next.loaded = none := by
  by_cases unloads : event.unloads = true
  · obtain ⟨processor, buffer, rfl⟩ := unloads_shape unloads
    rcases rmmod_cases stepped with ⟨_, _, rfl⟩ | ⟨_, _, _, _, _, _, _, rfl⟩
    · exact unloaded
    · rfl
  · rw [(otherEvent_module idle (Bool.not_eq_true _ ▸ unloads) stepped).1, unloaded]

end Steps

/-! Whole runs -/

section Runs

variable {platform : Platform} {system reached : System} {events : List KernelEvent}
  {values : List KernelValue}

theorem enabledLast_run (unloaded : system.loaded = none)
    (ran : runKernel platform events system = .ok (values, reached)) :
    reached.loaded ≠ none → (reached.EnabledLast ↔ Detected platform) :=
  RunRules.run_invariant (fun _ _ _ _ _ decided stepped => enabledLast_step decided stepped)
    (RunRules.along_of_forall (fun _ _ _ => trivial) system)
    (fun held => absurd unloaded held) ran

theorem unloaded_run (idle : ∀ event ∈ events, event.loads = false)
    (unloaded : system.loaded = none)
    (ran : runKernel platform events system = .ok (values, reached)) : reached.loaded = none :=
  RunRules.run_invariant
    (fun _ _ _ _ quiet before stepped => unloaded_step quiet before stepped)
    (RunRules.along_of_forall (fun event member _ => idle event member) system) unloaded ran

theorem cleanedUp_loaded {processor : Nat} {buffer : Word} {next : System}
    (stepped : kernelStep platform (.rmmod processor buffer) system = .ok (.cleanedUp, next)) :
    system.loaded ≠ none := by
  rcases rmmod_cases stepped with ⟨_, refused, _⟩ | ⟨_, _, _, _, held, _⟩
  · contradiction
  · exact held

theorem loadedOnlyEnabled_of_detected (found : Detected platform) (unloaded : system.loaded = none)
    (events : List KernelEvent) : LoadedOnlyEnabled platform events system where
  enabledByLoad _ _ _ _ _ ran held := (enabledLast_run unloaded ran held).mpr found
  refusedUnsupported _ _ _ _ _ _ _ _ _ _ _ missing := absurd found missing
  cleanupMatched _ _ _ _ _ _ _ _ ran stepped :=
    (enabledLast_run unloaded ran (cleanedUp_loaded stepped)).mpr found

theorem loadedOnlyEnabled_of_idle (idle : ∀ event ∈ events, event.loads = false)
    (unloaded : system.loaded = none) : LoadedOnlyEnabled platform events system where
  enabledByLoad before after _ _ shape ran held :=
    absurd (unloaded_run (fun event member => idle event (by simp [shape, member])) unloaded ran) held
  refusedUnsupported before processor buffer after _ _ _ _ shape _ _ _ := by
    have quiet := idle (.insmod processor buffer) (by simp [shape])
    simp [KernelEvent.loads] at quiet
  cleanupMatched before processor buffer after _ _ _ shape ran stepped :=
    absurd (unloaded_run (fun event member => idle event (by simp [shape, member])) unloaded ran)
      (cleanedUp_loaded stepped)

theorem not_loadedOnlyEnabled (missing : ¬Detected platform) (unloaded : system.loaded = none)
    (before after : List KernelEvent) {processor : Nat} {buffer : Word}
    (ran : runKernel platform (before ++ .insmod processor buffer :: after) system =
      .ok (values, reached)) :
    ¬LoadedOnlyEnabled platform (before ++ .insmod processor buffer :: after) system := by
  intro only
  obtain ⟨_, _, _, _, _, ranBefore, stepped, _, _, _⟩ := RunRules.run_at ran
  have attempted := RunRules.run_snoc_ok_iff.mpr ⟨_, _, _, ranBefore, stepped, rfl⟩
  have held := insmod_loaded stepped
  exact missing ((enabledLast_run unloaded attempted held).mp
    (only.enabledByLoad (before ++ [.insmod processor buffer]) after _ _ (by simp) attempted held))

/-- An unsupported processor does not refuse the module: the positive value that reports it leaves
the module loaded. -/
theorem loadedOnlyEnabled_iff (unloaded : system.loaded = none)
    (ran : runKernel platform events system = .ok (values, reached)) :
    LoadedOnlyEnabled platform events system ↔
      Detected platform ∨ ∀ event ∈ events, event.loads = false := by
  constructor
  · intro only
    by_contra! ⟨missing, event, attempted, loads⟩
    obtain ⟨processor, buffer, rfl⟩ := loads_shape (by simpa using loads)
    obtain ⟨before, after, rfl⟩ := List.append_of_mem attempted
    exact not_loadedOnlyEnabled missing unloaded before after ran only
  · rintro (found | idle)
    · exact loadedOnlyEnabled_of_detected found unloaded events
    · exact loadedOnlyEnabled_of_idle idle unloaded

end Runs

theorem loadedOnlyEnabled_reloaded :
    LoadedOnlyEnabled capablePlatform [.insmod 0 0x5000, .rmmod 0 0x5000, .insmod 0 0x5000]
      soleTask := by
  have outcome : (runKernel capablePlatform
      [.insmod 0 0x5000, .rmmod 0 0x5000, .insmod 0 0x5000] soleTask).map Prod.fst =
      .ok [.initReturned 0, .cleanedUp, .initReturned 0] := by decide +kernel
  obtain ⟨values, reached, ran, _⟩ := RunRules.run_of_map outcome
  exact (loadedOnlyEnabled_iff rfl ran).mpr (Or.inl capablePlatform_capable.detected)

theorem platformWithoutMpx_undetected : ¬Detected platformWithoutMpx := by
  rw [← checkMpxSupport_iff]
  decide

theorem unsupported_loaded :
    ¬LoadedOnlyEnabled platformWithoutMpx [.insmod 0 0x5000, .rmmod 0 0x5000] soleTask := by
  have outcome : (runKernel platformWithoutMpx
      [.insmod 0 0x5000, .rmmod 0 0x5000] soleTask).map Prod.fst =
      .ok [.initReturned 1, .cleanedUp] := by decide +kernel
  obtain ⟨values, reached, ran, _⟩ := RunRules.run_of_map outcome
  exact not_loadedOnlyEnabled platformWithoutMpx_undetected rfl [] [.rmmod 0 0x5000] ran

end SimplexMpx
