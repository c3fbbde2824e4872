import UiDoc.Proofs.Script.Pairs
import UiDoc.Script.Program

/-!
# Scopes that say more

If a scope has all the values that another scope gives to the names of a term, then whatever the
term gives in the other scope it gives in this one, in as many steps.  Functions that are given to
methods are compared by what they give for the same values.
-/

namespace UiDoc.Script

namespace Run

variable {α β γ δ : Type}

/-- Whatever the first run gives from a state, the second run gives something related to it and
leaves the same state. -/
def Refines (related : α → β → Prop) (x : Run α) (y : Run β) : Prop :=
  ∀ machine a after, x.run.run machine = (.ok a, after) →
    ∃ b, y.run.run machine = (.ok b, after) ∧ related a b

theorem refines_pure {related : α → β → Prop} {a : α} {b : β} (similar : related a b) :
    Refines related (pure a) (pure b) := by
  intro machine a' after ran
  cases ran
  exact ⟨b, rfl, similar⟩

theorem refines_throw (related : α → β → Prop) (fault : Fault) (y : Run β) :
    Refines related (throw fault) y := by
  intro machine a after ran
  cases ran

theorem refines_refl (x : Run α) : Refines Eq x x :=
  fun _ a _ ran => ⟨a, ran, rfl⟩

theorem Refines.bind {related : α → β → Prop} {similar : γ → δ → Prop} {x : Run α} {y : Run β}
    {f : α → Run γ} {g : β → Run δ} (first : Refines related x y)
    (second : ∀ a b, related a b → Refines similar (f a) (g b)) :
    Refines similar (x >>= f) (y >>= g) := by
  intro machine c after ran
  rw [ExceptT.run_bind, StateT.run_bind] at ran ⊢
  cases run : x.run.run machine with
  | mk outcome next =>
      rw [run] at ran
      cases outcome with
      | error fault => cases ran
      | ok a =>
          obtain ⟨b, gives, alike⟩ := first machine a next run
          rw [gives]
          exact second a b alike next c after ran

/-- Runs that give the same are followed by one that depends on what they give. -/
theorem Refines.andThen {similar : γ → δ → Prop} {x y : Run α} {f : α → Run γ} {g : α → Run δ}
    (first : Refines Eq x y) (second : ∀ a, Refines similar (f a) (g a)) :
    Refines similar (x >>= f) (y >>= g) := by
  apply first.bind
  rintro a _ rfl
  exact second a

/-- The same act comes first. -/
theorem refines_after (x : Run α) {similar : γ → δ → Prop} {f : α → Run γ} {g : α → Run δ}
    (second : ∀ a, Refines similar (f a) (g a)) : Refines similar (x >>= f) (x >>= g) :=
  (refines_refl x).andThen second

/-- A body with parameters gives what a body gives that says more. -/
theorem Refines.withLocals {x y : Run Value} (body : Refines Eq x y) (parameters : List String)
    (values : List Value) :
    Refines Eq (withLocals parameters x values) (withLocals parameters y values) := by
  intro machine v after ran
  cases run : x { machine with locals := Run.bind parameters values machine.locals } with
  | mk outcome next =>
      have outcomes : (outcome, { next with
          locals := next.locals.drop (next.locals.length - machine.locals.length) }) =
          ((.ok v : Except Fault Value), after) := by
        simpa only [Run.withLocals, ExceptT.run, StateT.run, run] using ran
      obtain ⟨rfl, left⟩ := Prod.mk.inj outcomes
      obtain ⟨_, gives, rfl⟩ := body _ v next run
      refine ⟨v, ?_, rfl⟩
      have ran : y { machine with locals := Run.bind parameters values machine.locals } =
          (.ok v, next) := gives
      simp only [Run.withLocals, ExceptT.run, StateT.run, ran, ← left]

end Run

open Run (Refines)

/-- To refine is kept by whatever is done with arguments. -/
theorem Run.refines_pairing : Run.Pairing Refines where
  pure := refines_pure
  throw related fault := refines_throw related fault _
  bind := Refines.bind
  charge _ := refines_refl _

/-- The arguments of one call say no more than those of another one: their values are the same, and
the functions among them give what the others give. -/
abbrev ArgsRefine : List Arg → List Arg → Prop :=
  ArgsPair Refines

/-! ## Terms -/

namespace Term

mutual

/-- The names in a term, those of parameters as well. -/
def names : Term → List String
  | .literal _ | .undefined => []
  | .name n => [n]
  | .member target _ _ => names target
  | .index target key _ => names target ++ names key
  | .unary _ operand => names operand
  | .binary _ left right => names left ++ names right
  | .logical _ left right => names left ++ names right
  | .conditional test yes no => names test ++ (names yes ++ names no)
  | .template _ parts => namesOfAll parts
  | .array items => namesOfItems items
  | .object entries => namesOfEntries entries
  | .builtin _ arguments => namesOfAll arguments
  | .method receiver _ _ arguments => names receiver ++ namesOfAll arguments
  | .function _ body => names body
termination_by structural t => t

/-- The names in terms. -/
def namesOfAll : List Term → List String
  | [] => []
  | term :: rest => names term ++ namesOfAll rest
termination_by structural t => t

/-- The names in the parts of an array. -/
def namesOfItems : List (Element Term) → List String
  | [] => []
  | .item term :: rest => names term ++ namesOfItems rest
  | .spread term :: rest => names term ++ namesOfItems rest
termination_by structural t => t

/-- The names in the parts of an object. -/
def namesOfEntries : List (Option String × Term) → List String
  | [] => []
  | (_, term) :: rest => names term ++ namesOfEntries rest
termination_by structural t => t

end

end Term

/-- One scope has a value for a name only if the other scope has the same one. -/
def SaysLess (left right : Scope) (name : String) : Prop :=
  ∀ v, scopeValue? left name = some v → scopeValue? right name = some v

section Eval

variable {left right : Scope}

theorem refines_nameValue {name : String} (less : SaysLess left right name) :
    Refines Eq (nameValue left name) (nameValue right name) := by
  apply Run.refines_after
  intro machine
  split
  · exact Run.refines_refl _
  · cases found : scopeValue? left name with
    | none => exact Run.refines_throw _ _ _
    | some v =>
        rw [less v found]
        exact Run.refines_refl _

mutual

/-- What a term gives in a scope it gives in every scope that says more about the names in it. -/
theorem refines_eval : (term : Term) → (∀ name ∈ term.names, SaysLess left right name) →
    Refines Eq (eval left term) (eval right term)
  | .literal _, _ => Run.refines_refl _
  | .undefined, _ => Run.refines_refl _
  | .name name, less =>
      Run.refines_after _ fun _ => refines_nameValue (less name (List.mem_cons_self ..))
  | .member target name optional, less =>
      Run.refines_after _ fun _ => (refines_eval target less).andThen fun _ => Run.refines_refl _
  | .index target key optional, less => by
      obtain ⟨lessTarget, lessKey⟩ := List.forall_mem_append.1 less
      apply Run.refines_after
      intro _
      apply (refines_eval target lessTarget).andThen
      intro v
      exact (refines_eval key lessKey).andThen fun _ => Run.refines_refl _
  | .unary op operand, less =>
      Run.refines_after _ fun _ => (refines_eval operand less).andThen fun _ => Run.refines_refl _
  | .binary op first second, less => by
      obtain ⟨lessFirst, lessSecond⟩ := List.forall_mem_append.1 less
      apply Run.refines_after
      intro _
      apply (refines_eval first lessFirst).andThen
      intro l
      exact (refines_eval second lessSecond).andThen fun _ => Run.refines_refl _
  | .logical op first second, less => by
      obtain ⟨lessFirst, lessSecond⟩ := List.forall_mem_append.1 less
      apply Run.refines_after
      intro _
      apply (refines_eval first lessFirst).andThen
      intro l
      split
      · exact Run.refines_refl _
      · exact refines_eval second lessSecond
  | .conditional test yes no, less => by
      obtain ⟨lessTest, lessBranches⟩ := List.forall_mem_append.1 less
      obtain ⟨lessYes, lessNo⟩ := List.forall_mem_append.1 lessBranches
      apply Run.refines_after
      intro _
      apply (refines_eval test lessTest).andThen
      intro t
      split
      · exact refines_eval yes lessYes
      · exact refines_eval no lessNo
  | .template texts parts, less =>
      Run.refines_after _ fun _ => refines_evalTemplate texts parts "" less
  | .array items, less =>
      Run.refines_after _ fun _ => (refines_evalItems items less).andThen fun _ =>
        Run.refines_refl _
  | .object entries, less =>
      Run.refines_after _ fun _ => (refines_evalEntries entries [] less).andThen fun _ =>
        Run.refines_refl _
  | .builtin function arguments, less => by
      apply Run.refines_after
      intro _
      apply (refines_evalArguments arguments less).bind
      intro args others refine
      rw [Builtin.apply_congr (ArgsPair.values_eq refine)]
      exact Run.refines_refl _
  | .method receiver method optional arguments, less => by
      obtain ⟨lessReceiver, lessArguments⟩ := List.forall_mem_append.1 less
      apply Run.refines_after
      intro _
      apply (refines_eval receiver lessReceiver).andThen
      intro v
      split
      · exact Run.refines_refl _
      · apply (refines_evalArguments arguments lessArguments).bind
        intro args others refine
        exact (Run.refines_pairing.callMethod refine v method).andThen fun _ => Run.refines_refl _
  | .function _ _, _ => Run.refines_refl _
termination_by structural term => term

theorem refines_evalTemplate (texts : List String) : (parts : List Term) → (sofar : String) →
    (∀ name ∈ Term.namesOfAll parts, SaysLess left right name) →
    Refines Eq (evalTemplate left texts parts sofar) (evalTemplate right texts parts sofar)
  | [], _, _ => Run.refines_refl _
  | part :: parts, sofar, less => by
      obtain ⟨lessPart, lessRest⟩ := List.forall_mem_append.1 less
      apply (refines_eval part lessPart).andThen
      intro v
      apply Run.refines_after
      intro _
      exact refines_evalTemplate texts.tail parts _ lessRest
termination_by structural parts => parts

theorem refines_evalItems : (items : List (Element Term)) →
    (∀ name ∈ Term.namesOfItems items, SaysLess left right name) →
    Refines Eq (evalItems left items) (evalItems right items)
  | [], _ => Run.refines_refl _
  | .item term :: rest, less => by
      obtain ⟨lessTerm, lessRest⟩ := List.forall_mem_append.1 less
      apply (refines_eval term lessTerm).andThen
      intro v
      exact (refines_evalItems rest lessRest).andThen fun _ => Run.refines_refl _
  | .spread term :: rest, less => by
      obtain ⟨lessTerm, lessRest⟩ := List.forall_mem_append.1 less
      apply (refines_eval term lessTerm).andThen
      intro v
      apply Run.refines_after
      intro front
      exact (refines_evalItems rest lessRest).andThen fun _ => Run.refines_refl _
termination_by structural items => items

theorem refines_evalEntries : (entries : List (Option String × Term)) → (fields : Record Json) →
    (∀ name ∈ Term.namesOfEntries entries, SaysLess left right name) →
    Refines Eq (evalEntries left entries fields) (evalEntries right entries fields)
  | [], _, _ => Run.refines_refl _
  | (some name, term) :: rest, fields, less => by
      obtain ⟨lessTerm, lessRest⟩ := List.forall_mem_append.1 less
      apply (refines_eval term lessTerm).andThen
      intro v
      exact refines_evalEntries rest _ lessRest
  | (none, term) :: rest, fields, less => by
      obtain ⟨lessTerm, lessRest⟩ := List.forall_mem_append.1 less
      apply (refines_eval term lessTerm).andThen
      intro v
      apply Run.refines_after
      intro more
      exact refines_evalEntries rest _ lessRest
termination_by structural entries => entries

/-- The functions among the arguments give what their bodies give. -/
theorem refines_evalArguments : (arguments : List Term) →
    (∀ name ∈ Term.namesOfAll arguments, SaysLess left right name) →
    Refines ArgsRefine (evalArguments left arguments) (evalArguments right arguments)
  | [], _ => Run.refines_pure .nil
  | term :: rest, less => by
      obtain ⟨lessTerm, lessRest⟩ := List.forall_mem_append.1 less
      have others := refines_evalArguments rest lessRest
      have value := refines_eval term lessTerm
      cases term with
      | function parameters body =>
          have gives : ArgPair Refines (.callback (Run.withLocals parameters (eval left body)))
              (.callback (Run.withLocals parameters (eval right body))) :=
            (refines_eval body lessTerm).withLocals parameters
          apply others.bind
          exact fun args more refine => Run.refines_pure (.cons gives refine)
      | _ =>
          apply value.andThen
          intro v
          apply others.bind
          exact fun args more refine => Run.refines_pure (.cons rfl refine)
termination_by structural arguments => arguments

end

/-- What a program gives in a scope it gives in every scope that says more about its names. -/
theorem refines_body (program : Term) (less : ∀ name ∈ program.names, SaysLess left right name)
    (args : List Value) :
    Refines Eq (Program.body left args program) (Program.body right args program) := by
  have evaluated := refines_eval program less
  cases program with
  | function parameters body => exact (refines_eval body less).withLocals parameters args
  | _ => exact evaluated

end Eval

end UiDoc.Script
