import Mathlib.Logic.Function.Basic

/-!
Code as a tree of operations, each continued with its answer, and rules for running two pieces of
code on related states. The first of the two may lose `Good` but never gains it, so what is good in
the end was good all along; the second may do more than the first.
-/

namespace Interaction

variable {Op : Type} {Answer : Op → Type} {α β Item State State' : Type}

inductive Tree (Op : Type) (Answer : Op → Type) (α : Type) : Type
  | done (value : α)
  | ask (op : Op) (next : Answer op → Tree Op Answer α)

def Tree.interpret {m : Type → Type} [Monad m] (handle : (op : Op) → m (Answer op)) :
    Tree Op Answer α → m α
  | .done value => pure value
  | .ask op next => do
      let answer ← handle op
      (next answer).interpret handle

theorem run_pure (value : α) (state : State) :
    (pure value : StateM State α).run state = (value, state) := rfl

theorem run_bind (first : StateM State α) (rest : α → StateM State β) (state : State) :
    (first >>= rest).run state = (rest (first.run state).1).run (first.run state).2 := rfl

def Keeps (Invariant : State → Prop) (code : StateM State α) : Prop :=
  ∀ state, Invariant state → Invariant (code.run state).2

namespace Keeps

variable {Invariant : State → Prop} {handle : (op : Op) → StateM State (Answer op)}

theorem pure (value : α) : Keeps Invariant (Pure.pure value : StateM State α) :=
  fun _ holds => holds

theorem bind {first : StateM State α} {rest : α → StateM State β} (head : Keeps Invariant first)
    (tail : ∀ value, Keeps Invariant (rest value)) : Keeps Invariant (first >>= rest) := by
  intro state holds
  rw [run_bind]
  exact tail _ _ (head state holds)

theorem done (value : α) :
    Keeps Invariant ((Tree.done value : Tree Op Answer α).interpret handle) :=
  .pure value

theorem ask {op : Op} {next : Answer op → Tree Op Answer α} (head : Keeps Invariant (handle op))
    (tail : ∀ answer, Keeps Invariant ((next answer).interpret handle)) :
    Keeps Invariant ((Tree.ask op next).interpret handle) :=
  head.bind tail

theorem foldlM {step : β → Item → StateM State β} {items : List Item}
    (each : ∀ item ∈ items, ∀ value, Keeps Invariant (step value item)) (value : β) :
    Keeps Invariant (items.foldlM step value) := by
  induction items generalizing value with
  | nil => exact .pure value
  | cons item rest ih =>
      rw [List.foldlM_cons]
      exact (each item List.mem_cons_self value).bind
        (ih fun later member => each later (List.mem_cons_of_mem _ member))

theorem forM {step : Item → StateM State PUnit} {items : List Item}
    (each : ∀ item ∈ items, Keeps Invariant (step item)) : Keeps Invariant (items.forM step) := by
  induction items with
  | nil => exact .pure PUnit.unit
  | cons item rest ih =>
      exact (each item List.mem_cons_self).bind fun _ =>
        ih fun later member => each later (List.mem_cons_of_mem _ member)

end Keeps

/-- While the first ends in a good state, both return one value and lead from `Before` to
`After`. -/
structure Simulates (Good : State → Prop) (Before After : State → State' → Prop)
    (first : StateM State α) (second : StateM State' α) : Prop where
  inherits : ∀ state, Good (first.run state).2 → Good state
  agrees : ∀ state state', Before state state' → Good (first.run state).2 →
    (first.run state).1 = (second.run state').1 ∧
      After (first.run state).2 (second.run state').2

namespace Simulates

variable {Good : State → Prop} {Before Middle After : State → State' → Prop}
  {Related : State → State' → Prop} {first : StateM State α} {second : StateM State' α}

theorem pure (value : α) : Simulates Good Related Related
    (Pure.pure value : StateM State α) (Pure.pure value : StateM State' α) :=
  ⟨fun _ good => good, fun _ _ related _ => ⟨rfl, related⟩⟩

theorem bind {rest : α → StateM State β} {rest' : α → StateM State' β}
    (head : Simulates Good Before Middle first second)
    (tail : ∀ value, Simulates Good Middle After (rest value) (rest' value)) :
    Simulates Good Before After (first >>= rest) (second >>= rest') := by
  constructor
  · intro state good
    exact head.inherits state ((tail _).inherits _ good)
  · intro state state' before good
    obtain ⟨same, middle⟩ := head.agrees state state' before ((tail _).inherits _ good)
    have continued : (second >>= rest').run state' =
        (rest' (first.run state).1).run (second.run state').2 := by
      rw [run_bind, same]
    rw [continued]
    exact (tail _).agrees _ _ middle good

/-- A step of the second alone, whose value is known. -/
theorem silent {extra : StateM State' β} {rest : β → StateM State' α} {value : β}
    (quiet : ∀ state state', Before state state' →
      (extra.run state').1 = value ∧ Middle state (extra.run state').2)
    (tail : Simulates Good Middle After first (rest value)) :
    Simulates Good Before After first (extra >>= rest) := by
  refine ⟨tail.inherits, ?_⟩
  intro state state' before good
  obtain ⟨known, middle⟩ := quiet state state' before
  have agreed := tail.agrees _ _ middle good
  rw [← known] at agreed
  exact agreed

theorem weaken {Before' After' : State → State' → Prop}
    (simulates : Simulates Good Before After first second)
    (stronger : ∀ state state', Before' state state' → Before state state')
    (weaker : ∀ state state', After state state' → After' state state') :
    Simulates Good Before' After' first second := by
  refine ⟨simulates.inherits, ?_⟩
  intro state state' before good
  obtain ⟨same, after⟩ := simulates.agrees state state' (stronger _ _ before) good
  exact ⟨same, weaker _ _ after⟩

theorem interpret {handle : (op : Op) → StateM State (Answer op)}
    {handle' : (op : Op) → StateM State' (Answer op)}
    (each : ∀ op, Simulates Good Related Related (handle op) (handle' op))
    (tree : Tree Op Answer α) :
    Simulates Good Related Related (tree.interpret handle) (tree.interpret handle') := by
  induction tree with
  | done value => exact .pure value
  | ask op next ih => exact (each op).bind ih

theorem foldlM {step : β → Item → StateM State β} {step' : β → Item → StateM State' β}
    (each : ∀ value item, Simulates Good Related Related (step value item) (step' value item))
    (items : List Item) (value : β) :
    Simulates Good Related Related (items.foldlM step value) (items.foldlM step' value) := by
  induction items generalizing value with
  | nil => exact .pure value
  | cons item rest ih =>
      rw [List.foldlM_cons, List.foldlM_cons]
      exact (each value item).bind ih

theorem forM {step : Item → StateM State PUnit} {step' : Item → StateM State' PUnit}
    (each : ∀ item, Simulates Good Related Related (step item) (step' item)) (items : List Item) :
    Simulates Good Related Related (items.forM step) (items.forM step') := by
  induction items with
  | nil => exact .pure PUnit.unit
  | cons item rest ih => exact (each item).bind fun _ => ih

end Simulates

/-! Code on a part of a state -/

variable {Rest : Type}

def beside (code : StateM State α) : StateM (State × Rest) α := fun whole =>
  ((code.run whole.1).1, ((code.run whole.1).2, whole.2))

def Beside (Related : State → State' → Prop) (whole : State × Rest) (whole' : State' × Rest) :
    Prop :=
  Related whole.1 whole'.1 ∧ whole.2 = whole'.2

theorem Simulates.beside {Good : State → Prop} {Before After : State → State' → Prop}
    {first : StateM State α} {second : StateM State' α}
    (simulates : Simulates Good Before After first second) :
    Simulates (fun whole : State × Rest => Good whole.1) (Beside Before) (Beside After)
      (beside first) (beside second) := by
  refine ⟨fun whole good => simulates.inherits whole.1 good, ?_⟩
  rintro whole whole' ⟨before, same⟩ good
  obtain ⟨value, after⟩ := simulates.agrees whole.1 whole'.1 before good
  exact ⟨value, after, same⟩

end Interaction
