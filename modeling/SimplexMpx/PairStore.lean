import Mathlib.Logic.Function.Basic
import SimplexMpx.RunRules

/-!
A store of pairs whose two halves are read and written apart or together. Keys are looked up
first, so an operation may name no key at all: it then finds nothing and writes nothing.
-/

namespace PairStore

variable {Key Half : Type*}

@[ext] structure Pair (Half : Type*) where
  lower : Half
  upper : Half

abbrev Store (Key Half : Type*) := Key → Pair Half

inductive Operation (Key Half : Type*)
  | reset
  | idle
  | getLower (key : Option Key)
  | getUpper (key : Option Key)
  | getBoth (key : Option Key)
  | setLower (key : Option Key) (value : Half)
  | setUpper (key : Option Key) (value : Half)
  | setBoth (key : Option Key) (pair : Pair Half)

inductive Reply (Half : Type*)
  | started
  | done
  | half (value : Option Half)
  | both (pair : Option (Pair Half))

def modify [DecidableEq Key] (key : Option Key) (change : Pair Half → Pair Half)
    (store : Store Key Half) : Store Key Half :=
  match key with
  | some key => Function.update store key (change (store key))
  | none => store

def apply [DecidableEq Key] (empty : Pair Half) (store : Store Key Half) :
    Operation Key Half → Reply Half × Store Key Half
  | .reset => (.started, fun _ => empty)
  | .idle => (.done, store)
  | .getLower key => (.half (key.map fun key => (store key).lower), store)
  | .getUpper key => (.half (key.map fun key => (store key).upper), store)
  | .getBoth key => (.both (key.map store), store)
  | .setLower key value => (.done, modify key (fun pair => { pair with lower := value }) store)
  | .setUpper key value => (.done, modify key (fun pair => { pair with upper := value }) store)
  | .setBoth key pair => (.done, modify key (fun _ => pair) store)

def step [DecidableEq Key] (empty : Pair Half) (operation : Operation Key Half)
    (store : Store Key Half) : Except Empty (Reply Half × Store Key Half) :=
  .ok (apply empty store operation)

def perform [DecidableEq Key] (empty : Pair Half) :
    List (Operation Key Half) → Store Key Half → List (Reply Half) × Store Key Half
  | [], store => ([], store)
  | operation :: rest, store =>
      let (reply, next) := apply empty store operation
      let (replies, final) := perform empty rest next
      (reply :: replies, final)

variable [DecidableEq Key]

theorem run_step (empty : Pair Half) (operations : List (Operation Key Half))
    (store : Store Key Half) :
    RunRules.run (step empty) operations store = .ok (perform empty operations store) := by
  induction operations generalizing store with
  | nil => rfl
  | cons operation rest ih =>
      rw [RunRules.run_cons_ok (show step empty operation store = .ok (_, _) from rfl), ih]
      rfl

theorem encode_modify {Code : Type*} (encode : Pair Half → Code) (key : Key)
    (change : Pair Half → Pair Half) (store : Store Key Half) (other : Key) :
    encode (modify (some key) change store other) =
      Function.update (fun key => encode (store key)) key (encode (change (store key))) other := by
  by_cases same : other = key
  · subst other
    simp [modify]
  · simp [modify, same]

def Operation.isRead : Operation Key Half → Bool
  | .idle | .getLower _ | .getUpper _ | .getBoth _ => true
  | _ => false

theorem apply_read {operation : Operation Key Half} (read : operation.isRead = true)
    (empty : Pair Half) (store : Store Key Half) : (apply empty store operation).2 = store := by
  cases operation <;> first | rfl | simp [Operation.isRead] at read

@[simp] theorem modify_self (key : Key) (change : Pair Half → Pair Half) (store : Store Key Half) :
    modify (some key) change store key = change (store key) := by
  simp [modify]

/-! Histories -/

/-- What an operation writes to the two halves at `key`. -/
def Operation.writeAt (empty : Pair Half) (key : Key) :
    Operation Key Half → Option Half × Option Half
  | .reset => (some empty.lower, some empty.upper)
  | .setLower other value => if other = some key then (some value, none) else (none, none)
  | .setUpper other value => if other = some key then (none, some value) else (none, none)
  | .setBoth other pair =>
      if other = some key then (some pair.lower, some pair.upper) else (none, none)
  | _ => (none, none)

theorem modify_at (other : Option Key) (change : Pair Half → Pair Half) (store : Store Key Half)
    (key : Key) :
    modify other change store key = if other = some key then change (store key) else store key := by
  cases other with
  | none => rfl
  | some other =>
      by_cases same : other = key
      · subst same
        rw [modify_self, if_pos rfl]
      · rw [if_neg (fun equal => same (Option.some.inj equal)), modify,
          Function.update_of_ne (Ne.symm same)]

theorem apply_at (empty : Pair Half) (operation : Operation Key Half) (store : Store Key Half)
    (key : Key) :
    (apply empty store operation).2 key =
      { lower := (operation.writeAt empty key).1.getD (store key).lower
        upper := (operation.writeAt empty key).2.getD (store key).upper } := by
  cases operation <;> simp only [apply, modify_at, Operation.writeAt] <;>
    first
      | rfl
      | (split <;> rfl)

/-- After any operations a half holds what was last written to it. -/
theorem perform_at (empty : Pair Half) (operations : List (Operation Key Half))
    (store : Store Key Half) (key : Key) :
    (perform empty operations store).2 key =
      { lower := (operations.filterMap fun operation =>
          (operation.writeAt empty key).1).getLast?.getD (store key).lower
        upper := (operations.filterMap fun operation =>
          (operation.writeAt empty key).2).getLast?.getD (store key).upper } := by
  induction operations generalizing store with
  | nil => rfl
  | cons operation rest ih =>
      have performed : (perform empty (operation :: rest) store).2 =
          (perform empty rest (apply empty store operation).2).2 := rfl
      rw [performed, ih, apply_at, List.filterMap_cons, List.filterMap_cons]
      rcases operation.writeAt empty key with ⟨_ | lower, _ | upper⟩ <;>
        simp only [Option.getD_none, Option.getD_some, List.getLast?_cons]

/-! One key -/

def Operation.concerns (key : Key) : Operation Key Half → Bool
  | .reset => true
  | .idle => false
  | .getLower other | .getUpper other | .getBoth other => other = some key
  | .setLower other _ | .setUpper other _ | .setBoth other _ => other = some key

theorem apply_unconcerned {operation : Operation Key Half} {key : Key}
    (unconcerned : operation.concerns key = false) (empty : Pair Half) (store : Store Key Half) :
    (apply empty store operation).2 key = store key := by
  cases operation <;> simp_all [Operation.concerns, apply, modify_at]

/-- An operation sees of the store only the keys it concerns. -/
theorem apply_concerned {operation : Operation Key Half} {key : Key}
    (concerned : operation.concerns key = true) (empty : Pair Half) {store store' : Store Key Half}
    (same : store key = store' key) :
    (apply empty store operation).1 = (apply empty store' operation).1 ∧
      (apply empty store operation).2 key = (apply empty store' operation).2 key := by
  refine ⟨?_, by rw [apply_at, apply_at, same]⟩
  cases operation <;> simp_all [Operation.concerns, apply]

/-! Clients that read lower halves only -/

def SameLower (store store' : Store Key Half) : Prop :=
  ∀ key, (store key).lower = (store' key).lower

/-- Pairs of operations between which such a client cannot tell. -/
inductive LowerAlike : Operation Key Half → Operation Key Half → Prop
  | getLower (key : Option Key) : LowerAlike (.getLower key) (.getLower key)
  | setLower (key : Option Key) (value : Half) :
      LowerAlike (.setLower key value) (.setLower key value)
  | setUpper (key : Option Key) (value : Half) :
      LowerAlike (.setUpper key value) (.setUpper key value)
  | setBoth (key : Option Key) (pair : Pair Half) :
      LowerAlike (.setBoth key pair) (.setBoth key pair)
  | overwrite (key : Option Key) (pair : Pair Half) :
      LowerAlike (.setLower key pair.lower) (.setBoth key pair)

theorem modify_sameLower {store store' : Store Key Half} (same : SameLower store store')
    {change change' : Pair Half → Pair Half}
    (changed : ∀ key, (change (store key)).lower = (change' (store' key)).lower)
    (key : Option Key) : SameLower (modify key change store) (modify key change' store') := by
  intro other
  cases key with
  | none => exact same other
  | some key =>
      by_cases hit : other = key
      · subst other
        simp only [modify, Function.update_self]
        exact changed key
      · simp only [modify, Function.update_of_ne hit]
        exact same other

theorem apply_sameLower {operation operation' : Operation Key Half}
    (alike : LowerAlike operation operation') {store store' : Store Key Half}
    (same : SameLower store store') (empty : Pair Half) :
    (apply empty store operation).1 = (apply empty store' operation').1 ∧
      SameLower (apply empty store operation).2 (apply empty store' operation').2 := by
  cases alike with
  | getLower key =>
      have lowers : (key.map fun key => (store key).lower) =
          key.map fun key => (store' key).lower :=
        congrArg (Option.map · key) (funext same)
      exact ⟨congrArg Reply.half lowers, same⟩
  | setLower key value => exact ⟨rfl, modify_sameLower same (fun _ => rfl) key⟩
  | setUpper key value => exact ⟨rfl, modify_sameLower same (fun key => same key) key⟩
  | setBoth key pair => exact ⟨rfl, modify_sameLower same (fun _ => rfl) key⟩
  | overwrite key pair => exact ⟨rfl, modify_sameLower same (fun _ => rfl) key⟩

end PairStore
