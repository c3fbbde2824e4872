import UiDoc.Proofs.Script.Acts

/-!
# Steps that have been taken before

An evaluation looks at the number of its steps only to see whether there are too many.  So an
evaluation that gives something gives the same behind more steps, unless these are too many with its
own.
-/

namespace UiDoc.Script

/-- The same state with more steps taken. -/
def Machine.later (machine : Machine) (count : Nat) : Machine :=
  { machine with steps := machine.steps + count }

@[simp] theorem Machine.locals_later (machine : Machine) (count : Nat) :
    (machine.later count).locals = machine.locals := rfl

@[simp] theorem Machine.steps_later (machine : Machine) (count : Nat) :
    (machine.later count).steps = machine.steps + count := rfl

/-- The state without the parameters that have come on top of `count` others. -/
def Machine.dropped (machine : Machine) (count : Nat) : Machine :=
  { machine with locals := machine.locals.drop (machine.locals.length - count) }

namespace Run

variable {α β : Type} {machine after : Machine}

theorem run_bind_eq_ok {x : Run α} {f : α → Run β} {b : β} :
    (x >>= f).run.run machine = (.ok b, after) ↔
      ∃ a mid, x.run.run machine = (.ok a, mid) ∧ (f a).run.run mid = (.ok b, after) := by
  rw [ExceptT.run_bind, StateT.run_bind]
  cases run : x.run.run machine with
  | mk outcome next =>
      cases outcome with
      | error fault => exact ⟨nofun, fun ⟨_, _, same, _⟩ => nomatch same⟩
      | ok a =>
          refine ⟨fun ran => ⟨a, next, rfl, ran⟩, ?_⟩
          rintro ⟨_, _, same, ran⟩
          cases same
          exact ran

/-- Behind more steps a run does what it does without them, or there are too many. -/
structure Shifted (x : Run α) (machine : Machine) (a : α) (after : Machine) : Prop where
  forward : machine.steps ≤ after.steps
  within : ∀ count, after.steps + count ≤ maxSteps →
    x.run.run (machine.later count) = (.ok a, after.later count)
  beyond : ∀ count, machine.steps + count ≤ maxSteps → maxSteps < after.steps + count →
    (x.run.run (machine.later count)).1 = .error .overBudget

/-- Whatever a run gives has a property, and the run gives it behind more steps as well. -/
def Counts (x : Run α) (post : α → Prop) : Prop :=
  ∀ machine a after, x.run.run machine = (.ok a, after) → post a ∧ Shifted x machine a after

theorem Shifted.bind {x : Run α} {f : α → Run β} {a : α} {b : β} {mid : Machine}
    (first : Shifted x machine a mid) (second : Shifted (f a) mid b after) :
    Shifted (x >>= f) machine b after where
  forward := Nat.le_trans first.forward second.forward
  within := by
    intro count room
    have roomFirst : mid.steps + count ≤ maxSteps :=
      Nat.le_trans (Nat.add_le_add_right second.forward count) room
    rw [ExceptT.run_bind, StateT.run_bind, first.within count roomFirst]
    exact second.within count room
  beyond := by
    intro count room spent
    rw [ExceptT.run_bind, StateT.run_bind]
    by_cases roomFirst : mid.steps + count ≤ maxSteps
    · rw [first.within count roomFirst]
      exact second.beyond count roomFirst spent
    · have fault := first.beyond count room (Nat.lt_of_not_le roomFirst)
      cases run : x.run.run (machine.later count) with
      | mk outcome next =>
          rw [run] at fault
          cases fault
          rfl

theorem shifted_pure (a : α) (machine : Machine) : Shifted (pure a) machine a machine where
  forward := Nat.le_refl _
  within _ _ := rfl
  beyond _ room spent := absurd room (Nat.not_le.2 spent)

theorem shifted_charge (count : Nat) (machine : Machine) :
    Shifted (charge count) machine () (machine.later count) where
  forward := Nat.le_add_right _ _
  within more room := by
    simp only [Machine.steps_later] at room
    rw [run_charge, Machine.steps_later, if_neg (by omega)]
    simp only [Machine.later, Nat.add_right_comm]
  beyond more room spent := by
    simp only [Machine.steps_later] at spent
    rw [run_charge, Machine.steps_later, if_pos (by omega)]

/-- To look up a name takes no steps. -/
theorem run_nameValue (scope : Scope) (name : String) (machine : Machine) :
    (nameValue scope name).run.run machine =
      (match machine.locals.lookup name with
        | some v => .ok v
        | none => match scopeValue? scope name with
          | some v => .ok (some v)
          | none => .error .unknownName, machine) := by
  have looks : (nameValue scope name).run.run machine =
      (match machine.locals.lookup name with
        | some v => pure v
        | none => match scopeValue? scope name with
          | some v => pure (some v)
          | none => throw .unknownName : Run Value).run.run machine := rfl
  rw [looks]
  cases machine.locals.lookup name with
  | some v => rfl
  | none => cases scopeValue? scope name <;> rfl

theorem run_withLocals (parameters : List String) (body : Run Value) (values : List Value)
    (machine : Machine) :
    (withLocals parameters body values).run.run machine =
      let inside := body.run.run
        { machine with locals := Run.bind parameters values machine.locals }
      (inside.1, inside.2.dropped machine.locals.length) := rfl

/-- The parameters of a function make no difference for the steps. -/
theorem Shifted.withLocals {parameters : List String} {body : Run Value} {values : List Value}
    {v : Value} {next : Machine}
    (inside : Shifted body { machine with locals := Run.bind parameters values machine.locals } v
      next) :
    Shifted (Run.withLocals parameters body values) machine v
      (next.dropped machine.locals.length) where
  forward := inside.forward
  within count room := by
    have ran := inside.within count room
    simp only [Machine.later] at ran
    rw [run_withLocals]
    simp only [Machine.later, ran]
    rfl
  beyond count room spent := inside.beyond count room spent

theorem counts_compositional : Compositional fun _ x post => Counts x post where
  pure := by
    intro α a post satisfied machine b after ran
    cases ran
    exact ⟨satisfied, shifted_pure a machine⟩
  throw := by
    intro α fault post machine b after ran
    cases ran
  bind := by
    intro α β x f middle post first second machine b after ran
    obtain ⟨a, mid, ranFirst, ranSecond⟩ := run_bind_eq_ok.1 ran
    obtain ⟨satisfied, shifted⟩ := first machine a mid ranFirst
    obtain ⟨satisfiedToo, shiftedToo⟩ := second a satisfied mid b after ranSecond
    exact ⟨satisfiedToo, shifted.bind shiftedToo⟩
  charge := by
    intro count machine a after ran
    rw [run_charge, Prod.mk.injEq] at ran
    obtain ⟨-, rfl⟩ := ran
    exact ⟨trivial, shifted_charge count machine⟩
  name := by
    intro scope name machine v after ran
    rw [run_nameValue, Prod.mk.injEq] at ran
    obtain ⟨found, rfl⟩ := ran
    refine ⟨trivial, Nat.le_refl _, fun count _ => ?_, fun count room spent => ?_⟩
    · rw [run_nameValue, Machine.locals_later, found]
    · exact absurd room (Nat.not_le.2 spent)
  withLocals := by
    intro parameters body values counts machine v after ran
    rw [run_withLocals, Prod.mk.injEq] at ran
    obtain ⟨gives, rfl⟩ := ran
    exact ⟨trivial, Shifted.withLocals (counts _ v _ (Prod.ext gives rfl)).2⟩

/-- What a term gives it gives behind more steps, if there are not too many then. -/
theorem shifted_eval {scope : Scope} {term : Term} {v : Value}
    (gives : (eval scope term).run.run machine = (.ok v, after)) :
    Shifted (eval scope term) machine v after :=
  (counts_compositional.eval scope term machine v after gives).2

end Run

end UiDoc.Script
