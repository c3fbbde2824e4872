import UiDoc.Script.Evaluation

/-!
# What evaluations ensure

A property of the parameters that are in scope is kept by an evaluation if it is kept by each of its
acts, and what the evaluation gives then has a property as well.  Nothing is said of the result of
an evaluation that is abandoned, but the parameters are left in order by that one, too.
-/

namespace UiDoc.Script

/-- The parameters of running functions, the latest first. -/
abbrev Locals := List (String × Value)

namespace Run

/-- From parameters with a property the run leads to parameters with this property, and what it
gives has another one. -/
def Ensures (holds : Locals → Prop) {α : Type} (x : Run α) (post : α → Prop) : Prop :=
  ∀ machine : Machine, holds machine.locals →
    holds (x.run.run machine).2.locals ∧ ∀ a, (x.run.run machine).1 = .ok a → post a

variable {holds : Locals → Prop} {α β : Type}

theorem ensures_pure {post : α → Prop} {a : α} (satisfied : post a) :
    Ensures holds (pure a) post := by
  intro machine has
  refine ⟨has, fun b same => ?_⟩
  cases same
  exact satisfied

theorem ensures_throw (fault : Fault) (post : α → Prop) :
    Ensures holds (throw fault : Run α) post := by
  intro machine has
  exact ⟨has, nofun⟩

theorem Ensures.bind {x : Run α} {f : α → Run β} {middle : α → Prop} {post : β → Prop}
    (first : Ensures holds x middle) (second : ∀ a, middle a → Ensures holds (f a) post) :
    Ensures holds (x >>= f) post := by
  intro machine has
  obtain ⟨hasNext, satisfied⟩ := first machine has
  rw [ExceptT.run_bind, StateT.run_bind]
  cases run : x.run.run machine with
  | mk outcome next =>
      rw [run] at hasNext satisfied
      cases outcome with
      | error fault => exact ⟨hasNext, nofun⟩
      | ok a => exact second a (satisfied a rfl) next hasNext

/-- What holds after an act that says nothing of its result. -/
theorem Ensures.andThen {x : Run α} {f : α → Run β} {post : β → Prop}
    (first : Ensures holds x fun _ => True) (second : ∀ a, Ensures holds (f a) post) :
    Ensures holds (x >>= f) post :=
  first.bind fun a _ => second a

theorem Ensures.mono {x : Run α} {post weaker : α → Prop} (ensures : Ensures holds x post)
    (follows : ∀ a, post a → weaker a) : Ensures holds x weaker := by
  intro machine has
  obtain ⟨hasNext, satisfied⟩ := ensures machine has
  exact ⟨hasNext, fun a same => follows a (satisfied a same)⟩

/-- Whatever an act looks at has the property. -/
theorem ensures_get : Ensures holds get fun machine => holds machine.locals := by
  intro machine has
  refine ⟨has, fun seen same => ?_⟩
  cases same
  exact has

theorem ensures_ofExcept {outcome : Except Fault α} {post : α → Prop}
    (satisfied : ∀ a, outcome = .ok a → post a) : Ensures holds (ofExcept outcome) post := by
  cases outcome with
  | error fault => exact ensures_throw fault post
  | ok a => exact ensures_pure (satisfied a rfl)

theorem run_charge (count : Nat) (machine : Machine) :
    (charge count).run.run machine =
      (if maxSteps < machine.steps + count then .error .overBudget else .ok (),
        { machine with steps := machine.steps + count }) := by
  have counts : (charge count).run.run machine =
      (if maxSteps < machine.steps + count then throw .overBudget else pure () : Run Unit).run.run
        { machine with steps := machine.steps + count } := rfl
  rw [counts]
  split <;> rfl

/-- To take steps leaves the parameters alone. -/
theorem ensures_charge (count : Nat) : Ensures holds (charge count) fun _ => True := by
  intro machine has
  rw [run_charge]
  exact ⟨has, fun _ _ => trivial⟩

theorem Ensures.charged {x : Run α} {post : α → Prop} (ensures : Ensures holds x post)
    (count : Nat) : Ensures holds (charge count >>= fun _ => x) post :=
  (ensures_charge count).andThen fun _ => ensures

theorem ensures_bounded {v : Value} {post : Value → Prop}
    (satisfied : withinBounds v = true → post v) :
    Ensures holds (ofExcept (bounded v)) post := by
  apply ensures_ofExcept
  intro w passes
  simp only [bounded] at passes
  split at passes
  · cases passes
    exact satisfied ‹_›
  · cases passes

theorem ensures_built {v : Value} {post : Value → Prop}
    (satisfied : withinBounds v = true → post v) : Ensures holds (built v) post := by
  simp only [built]
  split
  · exact (ensures_charge _).andThen fun _ => ensures_bounded satisfied
  · exact (ensures_charge _).andThen fun _ => ensures_bounded satisfied
  · exact ensures_bounded satisfied

/-- A function has parameters of its own for as long as it runs. -/
theorem ensures_withLocals {parameters : List String} {body : Run Value} {values : List Value}
    {post : Value → Prop} (ensures : Ensures holds body post)
    (named : ∀ locals, holds locals → holds (bind parameters values locals))
    (dropped : ∀ locals count, holds locals → holds (locals.drop count)) :
    Ensures holds (withLocals parameters body values) post := by
  intro machine has
  obtain ⟨hasNext, satisfied⟩ :=
    ensures { machine with locals := bind parameters values machine.locals } (named _ has)
  exact ⟨dropped _ _ hasNext, satisfied⟩

end Run

end UiDoc.Script
