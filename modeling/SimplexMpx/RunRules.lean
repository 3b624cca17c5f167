import Mathlib.Data.List.Forall2
import Mathlib.Data.List.Permutation

/-!
Runs of a deterministic system whose steps return a value or stop with a fault, with the rules
the developments over such systems use: splitting a run, carrying an invariant along it,
running two systems in lock step, running one component of a system alone, running a system
without its detail, and the orders that
exchanging neighbours leads to.
-/

namespace RunRules

universe u

variable {State State' Command Command' Value Value' Fault Fault' Ghost : Type*}

def run (step : Command → State → Except Fault (Value × State)) :
    List Command → State → Except Fault (List Value × State)
  | [], state => .ok ([], state)
  | command :: rest, state =>
      match step command state with
      | .error fault => .error fault
      | .ok (value, next) =>
          match run step rest next with
          | .error fault => .error fault
          | .ok (values, final) => .ok (value :: values, final)

theorem bind_ok_iff {Middle Result : Type u} {first : Except Fault Middle}
    {next : Middle → Except Fault Result} {result : Result} :
    (first >>= next) = .ok result ↔ ∃ middle, first = .ok middle ∧ next middle = .ok result := by
  cases first with
  | error fault => simp [bind, Except.bind]
  | ok middle => simp [bind, Except.bind]

section Splitting

variable {step : Command → State → Except Fault (Value × State)}

@[simp] theorem run_nil (state : State) : run step [] state = .ok ([], state) := rfl

theorem run_cons_ok {command : Command} {rest : List Command} {state next : State} {value : Value}
    (stepped : step command state = .ok (value, next)) :
    run step (command :: rest) state =
      (run step rest next).map fun final => (value :: final.1, final.2) := by
  simp only [run, stepped]
  cases run step rest next <;> rfl

theorem run_cons_ok_iff {command : Command} {rest : List Command} {state final : State}
    {values : List Value} :
    run step (command :: rest) state = .ok (values, final) ↔
      ∃ value next others, step command state = .ok (value, next) ∧
        run step rest next = .ok (others, final) ∧ values = value :: others := by
  constructor
  · intro ran
    simp only [run] at ran
    split at ran
    · simp at ran
    · rename_i value next stepped
      split at ran
      · simp at ran
      · rename_i others last continued
        simp only [Except.ok.injEq, Prod.mk.injEq] at ran
        obtain ⟨rfl, rfl⟩ := ran
        exact ⟨value, next, others, stepped, continued, rfl⟩
  · rintro ⟨value, next, others, stepped, continued, rfl⟩
    rw [run_cons_ok stepped, continued]
    rfl

theorem run_length {commands : List Command} {state final : State} {values : List Value}
    (ran : run step commands state = .ok (values, final)) : values.length = commands.length := by
  induction commands generalizing state values with
  | nil =>
      simp only [run_nil, Except.ok.injEq, Prod.mk.injEq] at ran
      rw [← ran.1]
      rfl
  | cons command rest ih =>
      obtain ⟨value, next, others, _, continued, rfl⟩ := run_cons_ok_iff.mp ran
      rw [List.length_cons, List.length_cons, ih continued]

theorem run_append_of_ok {first : List Command} {state middle : State} {before : List Value}
    (ran : run step first state = .ok (before, middle)) (second : List Command) :
    run step (first ++ second) state =
      (run step second middle).map fun final => (before ++ final.1, final.2) := by
  induction first generalizing state before with
  | nil =>
      simp only [run_nil, Except.ok.injEq, Prod.mk.injEq] at ran
      obtain ⟨rfl, rfl⟩ := ran
      rw [List.nil_append]
      cases run step second state <;> rfl
  | cons command rest ih =>
      obtain ⟨value, next, others, stepped, continued, rfl⟩ := run_cons_ok_iff.mp ran
      rw [List.cons_append, run_cons_ok stepped, ih continued]
      cases run step second middle <;> rfl

theorem run_ok {commands : List Command}
    (total : ∀ command ∈ commands, ∀ state, ∃ result, step command state = .ok result)
    (state : State) : ∃ values final, run step commands state = .ok (values, final) := by
  induction commands generalizing state with
  | nil => exact ⟨[], state, rfl⟩
  | cons command rest ih =>
      obtain ⟨⟨value, next⟩, stepped⟩ := total command (by simp) state
      obtain ⟨values, final, continued⟩ :=
        ih (fun other member => total other (List.mem_cons_of_mem _ member)) next
      exact ⟨value :: values, final,
        run_cons_ok_iff.mpr ⟨value, next, values, stepped, continued, rfl⟩⟩

/-- Commands whose completion does not depend on the state -/
theorem run_completes_iff {Completes : Command → Prop}
    (each : ∀ command state, (∃ result, step command state = .ok result) ↔ Completes command)
    {commands : List Command} {state : State} :
    (∃ result, run step commands state = .ok result) ↔
      ∀ command ∈ commands, Completes command := by
  constructor
  · rintro ⟨⟨values, final⟩, ran⟩
    induction commands generalizing state values with
    | nil => simp
    | cons command rest ih =>
        obtain ⟨value, next, others, stepped, continued, -⟩ := run_cons_ok_iff.mp ran
        exact List.forall_mem_cons.mpr ⟨(each command state).mp ⟨_, stepped⟩, ih others continued⟩
  · intro complete
    obtain ⟨values, final, ran⟩ :=
      run_ok (fun command member state => (each command state).mpr (complete command member)) state
    exact ⟨(values, final), ran⟩

theorem run_append_ok_iff {first second : List Command} {state final : State}
    {values : List Value} :
    run step (first ++ second) state = .ok (values, final) ↔
      ∃ before middle after, run step first state = .ok (before, middle) ∧
        run step second middle = .ok (after, final) ∧ values = before ++ after := by
  induction first generalizing state values with
  | nil => simp
  | cons command rest ih =>
      simp only [List.cons_append, run_cons_ok_iff, ih]
      constructor
      · rintro ⟨value, next, _, stepped, ⟨before, middle, after, front, back, rfl⟩, rfl⟩
        exact ⟨value :: before, middle, after, ⟨value, next, before, stepped, front, rfl⟩, back, rfl⟩
      · rintro ⟨_, middle, after, ⟨value, next, before, stepped, front, rfl⟩, back, rfl⟩
        exact ⟨value, next, before ++ after, stepped, ⟨before, middle, after, front, back, rfl⟩, rfl⟩

theorem run_snoc_ok_iff {first : List Command} {command : Command} {state final : State}
    {values : List Value} :
    run step (first ++ [command]) state = .ok (values, final) ↔
      ∃ before middle value, run step first state = .ok (before, middle) ∧
        step command middle = .ok (value, final) ∧ values = before ++ [value] := by
  rw [run_append_ok_iff]
  constructor
  · rintro ⟨before, middle, _, front, back, rfl⟩
    obtain ⟨value, next, _, stepped, ended, rfl⟩ := run_cons_ok_iff.mp back
    simp only [run_nil, Except.ok.injEq, Prod.mk.injEq] at ended
    obtain ⟨rfl, rfl⟩ := ended
    exact ⟨before, middle, value, front, stepped, rfl⟩
  · rintro ⟨before, middle, value, front, stepped, rfl⟩
    exact ⟨before, middle, [value], front,
      run_cons_ok_iff.mpr ⟨value, final, [], stepped, rfl, rfl⟩, rfl⟩

theorem run_at {before after : List Command} {command : Command} {state final : State}
    {values : List Value} (ran : run step (before ++ command :: after) state = .ok (values, final)) :
    ∃ front middle value next back, run step before state = .ok (front, middle) ∧
      step command middle = .ok (value, next) ∧ run step after next = .ok (back, final) ∧
      values = front ++ value :: back ∧ values[before.length]? = some value := by
  obtain ⟨front, middle, _, ranBefore, ranAfter, rfl⟩ := run_append_ok_iff.mp ran
  obtain ⟨value, next, back, stepped, continued, rfl⟩ := run_cons_ok_iff.mp ranAfter
  refine ⟨front, middle, value, next, back, ranBefore, stepped, continued, rfl, ?_⟩
  rw [← run_length ranBefore, List.getElem?_append_right (Nat.le_refl _), Nat.sub_self,
    List.getElem?_cons_zero]

theorem run_of_map {Outcome : Type*} {commands : List Command} {state : State}
    {view : List Value × State → Outcome} {outcome : Outcome}
    (mapped : (run step commands state).map view = .ok outcome) :
    ∃ values final, run step commands state = .ok (values, final) ∧
      view (values, final) = outcome := by
  cases ran : run step commands state with
  | error fault => simp [ran, Except.map] at mapped
  | ok result =>
      simp only [ran, Except.map, Except.ok.injEq] at mapped
      exact ⟨result.1, result.2, rfl, mapped⟩

end Splitting

section Invariants

variable {step : Command → State → Except Fault (Value × State)}

/-- Every command of the run meets `condition` in the state it is executed in. -/
def Along (step : Command → State → Except Fault (Value × State))
    (condition : Command → State → Prop) : List Command → State → Prop
  | [], _ => True
  | command :: rest, state => condition command state ∧
      ∀ value next, step command state = .ok (value, next) → Along step condition rest next

theorem along_append {condition : Command → State → Prop} {first second : List Command}
    {state middle : State} {before : List Value}
    (along : Along step condition (first ++ second) state)
    (ran : run step first state = .ok (before, middle)) :
    Along step condition first state ∧ Along step condition second middle := by
  induction first generalizing state before with
  | nil =>
      simp only [run_nil, Except.ok.injEq, Prod.mk.injEq] at ran
      obtain ⟨-, rfl⟩ := ran
      exact ⟨trivial, along⟩
  | cons command rest ih =>
      obtain ⟨value, next, others, stepped, continued, -⟩ := run_cons_ok_iff.mp ran
      have later := ih (along.2 value next stepped) continued
      refine ⟨⟨along.1, ?_⟩, later.2⟩
      intro value' next' stepped'
      rw [stepped] at stepped'
      obtain ⟨rfl, rfl⟩ := Prod.mk.inj (Except.ok.inj stepped')
      exact later.1

theorem run_invariant {condition : Command → State → Prop} {Invariant : State → Prop}
    (preserved : ∀ command state value next, condition command state → Invariant state →
      step command state = .ok (value, next) → Invariant next)
    {commands : List Command} {state final : State} {values : List Value}
    (along : Along step condition commands state) (initial : Invariant state)
    (ran : run step commands state = .ok (values, final)) : Invariant final := by
  induction commands generalizing state values with
  | nil =>
      simp only [run_nil, Except.ok.injEq, Prod.mk.injEq] at ran
      exact ran.2 ▸ initial
  | cons command rest ih =>
      obtain ⟨value, next, others, stepped, continued, -⟩ := run_cons_ok_iff.mp ran
      exact ih (along.2 value next stepped)
        (preserved command state value next along.1 initial stepped) continued

theorem along_of_forall {condition : Command → State → Prop} {commands : List Command}
    (holds : ∀ command ∈ commands, ∀ state, condition command state) (state : State) :
    Along step condition commands state := by
  induction commands generalizing state with
  | nil => trivial
  | cons command rest ih =>
      refine ⟨holds command (by simp) state, ?_⟩
      intro value next _
      exact ih (fun other member => holds other (List.mem_cons_of_mem _ member)) next

theorem run_appends {Item : Type*} {observe : State → List Item} {emitted : Command → List Item}
    (each : ∀ command state value next, step command state = .ok (value, next) →
      observe next = observe state ++ emitted command)
    {commands : List Command} {state final : State} {values : List Value}
    (ran : run step commands state = .ok (values, final)) :
    observe final = observe state ++ commands.flatMap emitted := by
  induction commands generalizing state values with
  | nil =>
      simp only [run_nil, Except.ok.injEq, Prod.mk.injEq] at ran
      rw [← ran.2, List.flatMap_nil, List.append_nil]
  | cons command rest ih =>
      obtain ⟨value, next, others, stepped, continued, -⟩ := run_cons_ok_iff.mp ran
      rw [ih continued, each command state value next stepped, List.flatMap_cons,
        List.append_assoc]

theorem run_meets {Invariant : State → Prop} {Meets : Value → Prop} {commands : List Command}
    (each : ∀ command ∈ commands, ∀ state, Invariant state →
      ∃ value next, step command state = .ok (value, next) ∧ Invariant next ∧ Meets value)
    {state : State} (initial : Invariant state) :
    ∃ values final, run step commands state = .ok (values, final) ∧ Invariant final ∧
      ∀ value ∈ values, Meets value := by
  induction commands generalizing state with
  | nil => exact ⟨[], state, rfl, initial, by simp⟩
  | cons command rest ih =>
      obtain ⟨here, later⟩ := List.forall_mem_cons.mp each
      obtain ⟨value, next, stepped, kept, meets⟩ := here state initial
      obtain ⟨values, final, continued, keptAll, meetsAll⟩ := ih later kept
      exact ⟨value :: values, final,
        run_cons_ok_iff.mpr ⟨value, next, values, stepped, continued, rfl⟩, keptAll,
        List.forall_mem_cons.mpr ⟨meets, meetsAll⟩⟩

/-- A summary of the state, kept up to date by each command and the value it returns. -/
theorem run_tracks {track : Ghost → Command × Value → Ghost} {Tracks : Ghost → State → Prop}
    (each : ∀ command ghost state value next, Tracks ghost state →
      step command state = .ok (value, next) → Tracks (track ghost (command, value)) next)
    {commands : List Command} {ghost : Ghost} {state final : State} {values : List Value}
    (initial : Tracks ghost state) (ran : run step commands state = .ok (values, final)) :
    Tracks ((commands.zip values).foldl track ghost) final := by
  induction commands generalizing ghost state values with
  | nil =>
      simp only [run_nil, Except.ok.injEq, Prod.mk.injEq] at ran
      exact ran.2 ▸ initial
  | cons command rest ih =>
      obtain ⟨value, next, others, stepped, continued, rfl⟩ := run_cons_ok_iff.mp ran
      exact ih (each command ghost state value next initial stepped) continued

end Invariants

section LockStep

def Alike {Result Result' : Type*} (Related : Result → Result' → Prop) :
    Except Fault Result → Except Fault' Result' → Prop
  | .ok result, .ok result' => Related result result'
  | .error _, .error _ => True
  | _, _ => False

variable {step : Command → State → Except Fault (Value × State)}
  {step' : Command' → State' → Except Fault' (Value' × State')}

/-- The relation between the two systems may depend on a ghost value that every command
advances; related commands keep the systems related and return related values. -/
structure LockStep (step : Command → State → Except Fault (Value × State))
    (step' : Command' → State' → Except Fault' (Value' × State'))
    (advance : Command → Ghost → Ghost) (Paired : Command → Command' → Prop)
    (Returns : Value → Value' → Prop) (Related : Ghost → State → State' → Prop) : Prop where
  agree : ∀ command command' ghost state state', Paired command command' →
    Related ghost state state' →
      Alike (fun result result' => Returns result.1 result'.1 ∧
        Related (advance command ghost) result.2 result'.2)
        (step command state) (step' command' state')

theorem LockStep.run {advance : Command → Ghost → Ghost} {Paired : Command → Command' → Prop}
    {Returns : Value → Value' → Prop} {Related : Ghost → State → State' → Prop}
    (lockStep : LockStep step step' advance Paired Returns Related)
    {commands : List Command} {commands' : List Command'}
    (paired : List.Forall₂ Paired commands commands')
    (ghost : Ghost) {state : State} {state' : State'} (related : Related ghost state state') :
    Alike (fun result result' => List.Forall₂ Returns result.1 result'.1 ∧
        Related (commands.foldl (fun now command => advance command now) ghost)
          result.2 result'.2)
      (RunRules.run step commands state) (RunRules.run step' commands' state') := by
  induction paired generalizing ghost state state' with
  | nil => exact ⟨.nil, related⟩
  | @cons command command' rest rest' first _ ih =>
      have agreed := lockStep.agree command command' ghost state state' first related
      simp only [RunRules.run, List.foldl_cons]
      cases stepped : step command state with
      | error fault =>
          cases stepped' : step' command' state' with
          | error fault' => trivial
          | ok result' => simp [stepped, stepped', Alike] at agreed
      | ok result =>
          cases stepped' : step' command' state' with
          | error fault' => simp [stepped, stepped', Alike] at agreed
          | ok result' =>
              obtain ⟨value, next⟩ := result
              obtain ⟨value', next'⟩ := result'
              rw [stepped, stepped'] at agreed
              have later := ih _ agreed.2
              cases continued : RunRules.run step rest next <;>
                cases continued' : RunRules.run step' rest' next' <;>
                simp only [continued, continued', Alike] at later ⊢
              exact ⟨.cons agreed.1 later.1, later.2⟩

theorem Alike.ok_left {Result Result' : Type*} {Related : Result → Result' → Prop}
    {outcome : Except Fault Result} {result' : Result'}
    (alike : Alike Related outcome (.ok result' : Except Fault' Result')) :
    ∃ result, outcome = .ok result ∧ Related result result' := by
  cases outcome with
  | error fault => exact alike.elim
  | ok result => exact ⟨result, rfl, alike⟩

theorem Alike.ok_right {Result Result' : Type*} {Related : Result → Result' → Prop}
    {result : Result} {outcome' : Except Fault' Result'}
    (alike : Alike Related (.ok result : Except Fault Result) outcome') :
    ∃ result', outcome' = .ok result' ∧ Related result result' := by
  cases outcome' with
  | error fault => exact alike.elim
  | ok result' => exact ⟨result', rfl, alike⟩

end LockStep

section Projection

def valuesOf (part : Command → Option Command') : List Command → List Value → List Value
  | command :: rest, value :: values =>
      if (part command).isSome then value :: valuesOf part rest values
      else valuesOf part rest values
  | _, _ => []

variable {step : Command → State → Except Fault (Value × State)}
  {step' : Command' → State' → Except Fault' (Value × State')}

/-- A component of a system: the commands `part` picks out do in it what they do where it is alone,
and the other commands leave it as it is. -/
structure Component (step : Command → State → Except Fault (Value × State))
    (step' : Command' → State' → Except Fault' (Value × State'))
    (allowed : Command → Prop) (part : Command → Option Command')
    (Seen : State → State' → Prop) : Prop where
  own : ∀ command command' state state' value next, allowed command →
    part command = some command' → Seen state state' → step command state = .ok (value, next) →
      ∃ next', step' command' state' = .ok (value, next') ∧ Seen next next'
  other : ∀ command state state' value next, allowed command → part command = none →
    Seen state state' → step command state = .ok (value, next) → Seen next state'

theorem Component.run {allowed : Command → Prop} {part : Command → Option Command'}
    {Seen : State → State' → Prop} (component : Component step step' allowed part Seen)
    {commands : List Command} (allowedAll : ∀ command ∈ commands, allowed command)
    {state final : State} {state' : State'} (seen : Seen state state') {values : List Value}
    (ran : RunRules.run step commands state = .ok (values, final)) :
    ∃ final', RunRules.run step' (commands.filterMap part) state' =
        .ok (valuesOf part commands values, final') ∧ Seen final final' := by
  induction commands generalizing state state' values with
  | nil =>
      simp only [run_nil, Except.ok.injEq, Prod.mk.injEq] at ran
      obtain ⟨rfl, rfl⟩ := ran
      exact ⟨state', rfl, seen⟩
  | cons command rest ih =>
      obtain ⟨value, next, others, stepped, continued, rfl⟩ := run_cons_ok_iff.mp ran
      obtain ⟨here, later⟩ := List.forall_mem_cons.mp allowedAll
      cases picked : part command with
      | none =>
          obtain ⟨final', ran', seen'⟩ :=
            ih later (component.other _ _ _ _ _ here picked seen stepped) continued
          refine ⟨final', ?_, seen'⟩
          rw [List.filterMap_cons_none picked, ran', valuesOf, picked]
          rfl
      | some command' =>
          obtain ⟨next', stepped', seenNext⟩ :=
            component.own _ _ _ _ _ _ here picked seen stepped
          obtain ⟨final', ran', seen'⟩ := ih later seenNext continued
          refine ⟨final', ?_, seen'⟩
          rw [List.filterMap_cons_some picked, valuesOf, picked]
          exact run_cons_ok_iff.mpr ⟨value, next', _, stepped', ran', rfl⟩

end Projection

/-! Abstraction -/

section Abstraction

variable {step : Command → State → Except Fault (Value × State)}
  {step' : Command' → State' → Except Fault' (Value × State')}

/-- The commands of a system without the detail that a run stands for, with their values. -/
def labelled (step : Command → State → Except Fault (Value × State))
    (label : State → Command → Option Command') :
    List Command → State → List Command' × List Value
  | [], _ => ([], [])
  | command :: rest, state =>
      match step command state with
      | .error _ => ([], [])
      | .ok (value, next) =>
          let later := labelled step label rest next
          match label state command with
          | none => later
          | some command' => (command' :: later.1, value :: later.2)

/-- What a command stands for may depend on the state; one that stands for nothing is not seen. -/
structure Abstracts (step : Command → State → Except Fault (Value × State))
    (step' : Command' → State' → Except Fault' (Value × State'))
    (label : State → Command → Option Command') (Seen : State → State' → Prop) : Prop where
  own : ∀ command command' state state' value next, label state command = some command' →
    Seen state state' → step command state = .ok (value, next) →
      ∃ next', step' command' state' = .ok (value, next') ∧ Seen next next'
  silent : ∀ command state state' value next, label state command = none → Seen state state' →
    step command state = .ok (value, next) → Seen next state'

theorem Abstracts.run {label : State → Command → Option Command'} {Seen : State → State' → Prop}
    (abstracts : Abstracts step step' label Seen) {commands : List Command} {state final : State}
    {state' : State'} {values : List Value} (seen : Seen state state')
    (ran : run step commands state = .ok (values, final)) :
    ∃ final', RunRules.run step' (labelled step label commands state).1 state' =
        .ok ((labelled step label commands state).2, final') ∧ Seen final final' := by
  induction commands generalizing state state' values with
  | nil =>
      simp only [run_nil, Except.ok.injEq, Prod.mk.injEq] at ran
      obtain ⟨rfl, rfl⟩ := ran
      exact ⟨state', rfl, seen⟩
  | cons command rest ih =>
      obtain ⟨value, next, others, stepped, continued, rfl⟩ := run_cons_ok_iff.mp ran
      simp only [labelled, stepped]
      cases labels : label state command with
      | none => exact ih (abstracts.silent _ _ _ _ _ labels seen stepped) continued
      | some command' =>
          obtain ⟨next', stepped', seenNext⟩ := abstracts.own _ _ _ _ _ _ labels seen stepped
          obtain ⟨final', ran', seen'⟩ := ih seenNext continued
          exact ⟨final', run_cons_ok_iff.mpr ⟨value, next', _, stepped', ran', rfl⟩, seen'⟩

end Abstraction

/-! Orders -/

/-- The orders reached by exchanging neighbours that may be exchanged. -/
inductive Reordering (exchange : Command → Command → Prop) : List Command → List Command → Prop
  | refl (commands) : Reordering exchange commands commands
  | swap (before after) {first second} : exchange first second →
      Reordering exchange (before ++ first :: second :: after) (before ++ second :: first :: after)
  | trans {source middle target} : Reordering exchange source middle →
      Reordering exchange middle target → Reordering exchange source target

theorem Reordering.perm {exchange : Command → Command → Prop} {source target : List Command}
    (reordering : Reordering exchange source target) : source.Perm target := by
  induction reordering with
  | refl commands => exact .refl commands
  | swap before after _ => exact (List.Perm.swap _ _ after).append_left before
  | trans _ _ ihFirst ihSecond => exact ihFirst.trans ihSecond

theorem reordering_pair (exchange : Command → Command → Prop) {first second : Command}
    (allowed : exchange first second) {order : List Command} :
    Reordering exchange [first, second] order ↔
      order = [first, second] ∨ order = [second, first] := by
  constructor
  · intro reordering
    exact List.pair_perm.mp reordering.perm
  · rintro (rfl | rfl)
    · exact .refl _
    · exact .swap [] [] allowed

end RunRules
