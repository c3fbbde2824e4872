import UiDoc.Proofs.Script.Refinement
import UiDoc.Proofs.Script.Steps

/-!
# Parameters by their place in the text

While a script runs, the parameters of all running functions lie on one stack, and a name stands for
the latest one that has it, whichever function that belongs to.  This module has a second evaluation
without a stack, in which each function sees the parameters of the functions around it in the text,
and its own.  The two do the same, since a function is never a value that could be called elsewhere,
and since the stack is left as it was by whatever is evaluated, also where that is abandoned.
-/

namespace UiDoc.Script

/-- The parameters that can be seen at a place of a script, by their names. -/
abbrev Visible := String → Option Value

namespace Visible

/-- No function stands around the whole script. -/
def nothing : Visible :=
  fun _ => none

/-- The value of a name among the parameters of a call.  Of parameters with one name the last counts,
and a parameter without an argument is undefined. -/
def given (name : String) : (parameters : List String) → (values : List Value) → Option Value
  | [], _ => none
  | parameter :: parameters, values =>
      (given name parameters values.tail).or
        (if parameter = name then some values.head?.join else none)

/-- The parameters of a call hide those of the same names around the function. -/
def extend (visible : Visible) (parameters : List String) (values : List Value) : Visible :=
  fun name => (given name parameters values).or (visible name)

theorem given_of_not_mem {name : String} {parameters : List String} (other : name ∉ parameters)
    (values : List Value) : given name parameters values = none := by
  induction parameters generalizing values with
  | nil => rfl
  | cons parameter rest ih =>
      obtain ⟨differs, others⟩ := not_or.1 (mt List.mem_cons.2 other)
      rw [given, ih others, if_neg (Ne.symm differs)]
      rfl

theorem extend_of_not_mem (visible : Visible) {name : String} {parameters : List String}
    {values : List Value} (other : name ∉ parameters) :
    visible.extend parameters values name = visible name := by
  rw [extend, given_of_not_mem other, Option.none_or]

/-- The last parameter of a name is seen, with the argument at its place. -/
theorem extend_of_last (visible : Visible) {name : String} (front : List String)
    {back : List String} (last : name ∉ back) (values : List Value) :
    visible.extend (front ++ name :: back) values name = some values[front.length]?.join := by
  have found : given name (front ++ name :: back) values = some values[front.length]?.join := by
    induction front generalizing values with
    | nil =>
        rw [List.nil_append, given, given_of_not_mem last, if_pos rfl]
        cases values <;> rfl
    | cons parameter rest ih =>
        rw [List.cons_append, given, ih, Option.some_or]
        cases values <;> rfl
  rw [extend, found, Option.some_or]

end Visible

/-! ## Evaluation without a stack -/

namespace Lexical

/-- The value of a name where these parameters can be seen. -/
def nameValue (scope : Scope) (visible : Visible) (name : String) : Run Value :=
  match visible name with
  | some v => pure v
  | none =>
      match scopeValue? scope name with
      | some v => pure (some v)
      | none => throw .unknownName

mutual

/-- The value of a term where these parameters can be seen. -/
def eval (scope : Scope) : Term → Visible → Run Value
  | .literal v, _ => do
      Run.charge 1
      pure (some v)
  | .undefined, _ => do
      Run.charge 1
      pure none
  | .name name, visible => do
      Run.charge 1
      nameValue scope visible name
  | .member target name optional, visible => do
      Run.charge 1
      let v ← eval scope target visible
      Run.ofExcept (access v name optional)
  | .index target key optional, visible => do
      Run.charge 1
      let v ← eval scope target visible
      let k ← eval scope key visible
      Run.ofExcept (access v (Value.text k) optional)
  | .unary op operand, visible => do
      Run.charge 1
      let v ← eval scope operand visible
      pure (op.apply v)
  | .binary op left right, visible => do
      Run.charge 1
      let l ← eval scope left visible
      let r ← eval scope right visible
      Run.ofExcept (op.apply l r)
  | .logical op left right, visible => do
      Run.charge 1
      let l ← eval scope left visible
      if op.decides l then pure l else eval scope right visible
  | .conditional test yes no, visible => do
      Run.charge 1
      let t ← eval scope test visible
      if Value.truthy t then eval scope yes visible else eval scope no visible
  | .template texts parts, visible => do
      Run.charge 1
      evalTemplate scope texts parts "" visible
  | .array items, visible => do
      Run.charge 1
      let items ← evalItems scope items visible
      Run.ofExcept (bounded (some (.arr items)))
  | .object entries, visible => do
      Run.charge 1
      let fields ← evalEntries scope entries [] visible
      Run.ofExcept (bounded (some (.obj fields)))
  | .builtin function arguments, visible => do
      Run.charge 1
      let args ← evalArguments scope arguments visible
      Run.ofExcept (bounded (function.apply args))
  | .method receiver method optional arguments, visible => do
      Run.charge 1
      let v ← eval scope receiver visible
      if Value.nullish v then
        if optional then pure none else throw .mistyped
      else
        let args ← evalArguments scope arguments visible
        let result ← callMethod v method args
        Run.built result
  | .function _ _, _ => do
      Run.charge 1
      throw .mistyped
termination_by structural t => t

/-- The text of a template behind `sofar`. -/
def evalTemplate (scope : Scope) (texts : List String) :
    List Term → String → Visible → Run Value
  | [], sofar, _ => Run.ofExcept (bounded (some (.str (sofar ++ texts.headD ""))))
  | part :: parts, sofar, visible => do
      let v ← eval scope part visible
      let text := sofar ++ (texts.headD "" ++ Value.text v)
      let _ ← Run.ofExcept (bounded (some (.str text)))
      evalTemplate scope texts.tail parts text visible
termination_by structural t => t

/-- The items of an array. -/
def evalItems (scope : Scope) : List (Element Term) → Visible → Run (List Json)
  | [], _ => pure []
  | .item term :: rest, visible => do
      let v ← eval scope term visible
      let items ← evalItems scope rest visible
      pure (v.getD .null :: items)
  | .spread term :: rest, visible => do
      let v ← eval scope term visible
      let front ← spreadItems v
      let items ← evalItems scope rest visible
      pure (front ++ items)
termination_by structural t => t

/-- The fields of an object on top of others. -/
def evalEntries (scope : Scope) :
    List (Option String × Term) → Record Json → Visible → Run (Record Json)
  | [], fields, _ => pure fields
  | (some name, term) :: rest, fields, visible => do
      let v ← eval scope term visible
      evalEntries scope rest (setField fields name v) visible
  | (none, term) :: rest, fields, visible => do
      let v ← eval scope term visible
      let more ← spreadFields v
      evalEntries scope rest (fields.extend more) visible
termination_by structural t => t

/-- The arguments of a call.  A function keeps what can be seen where it is written. -/
def evalArguments (scope : Scope) : List Term → Visible → Run (List Arg)
  | [], _ => pure []
  | .function parameters body :: rest, visible => do
      let args ← evalArguments scope rest visible
      pure (.callback (fun values => eval scope body (visible.extend parameters values)) :: args)
  | term :: rest, visible => do
      let v ← eval scope term visible
      let args ← evalArguments scope rest visible
      pure (.value v :: args)
termination_by structural t => t

end

/-- The computation of a script: a function is called with arguments. -/
def body (scope : Scope) (args : List Value) : Term → Run Value
  | .function parameters body => eval scope body (Visible.nothing.extend parameters args)
  | term => eval scope term .nothing

/-- Runs a script without a stack; `none` if a name is unknown or the script is abandoned. -/
def run? (program : Program) (scope : Scope) (args : List Value) : Option Value :=
  if program.free.all (Program.isKnown scope) then
    match (body scope args program.root).run.run {} with
    | (.ok v, _) => some v
    | (.error _, _) => none
  else none

end Lexical

/-! ## With and without a stack -/

namespace Run

variable {α β γ δ : Type} {related : α → β → Prop}

/-- Two runs give related things, or are abandoned for the same reason. -/
inductive Ends (related : α → β → Prop) : Except Fault α → Except Fault β → Prop where
  | ok {a : α} {b : β} : related a b → Ends related (.ok a) (.ok b)
  | error (fault : Fault) : Ends related (.error fault) (.error fault)

theorem Ends.eq {outcome other : Except Fault α} (ends : Ends Eq outcome other) :
    outcome = other := by
  cases ends with
  | ok same => rw [same]
  | error fault => rfl

/-- Where the stack holds the parameters that can be seen, the first run does with it what the second
run does without it, from any stack and in as many steps.  Both leave the stack as it was. -/
def Matches (visible : Visible) (related : α → β → Prop) (x : Run α) (y : Run β) : Prop :=
  ∀ locals others : Locals, (fun name => locals.lookup name) = visible → ∀ steps,
    ∃ outcome other after, x.run.run ⟨locals, steps⟩ = (outcome, ⟨locals, after⟩) ∧
      y.run.run ⟨others, steps⟩ = (other, ⟨others, after⟩) ∧ Ends related outcome other

variable {visible : Visible}

theorem matches_of_ends {outcome : Except Fault α} {other : Except Fault β}
    (ends : Ends related outcome other) :
    Matches visible related (ofExcept outcome) (ofExcept other) := by
  intro locals others _ steps
  refine ⟨outcome, other, steps, ?_, ?_, ends⟩
  · cases outcome <;> rfl
  · cases other <;> rfl

theorem Matches.bind {similar : γ → δ → Prop} {x : Run α} {y : Run β} {f : α → Run γ}
    {g : β → Run δ} (first : Matches visible related x y)
    (second : ∀ a b, related a b → Matches visible similar (f a) (g b)) :
    Matches visible similar (x >>= f) (y >>= g) := by
  intro locals others sees steps
  obtain ⟨outcome, other, after, ran, ranOther, ends⟩ := first locals others sees steps
  rw [ExceptT.run_bind, StateT.run_bind, ran, ExceptT.run_bind, StateT.run_bind, ranOther]
  cases ends with
  | error fault => exact ⟨.error fault, .error fault, after, rfl, rfl, .error fault⟩
  | ok alike => exact second _ _ alike locals others sees after

theorem matches_charge (count : Nat) : Matches visible Eq (charge count) (charge count) := by
  intro locals others _ steps
  rw [run_charge, run_charge]
  refine ⟨_, _, steps + count, rfl, rfl, ?_⟩
  split
  · exact .error .overBudget
  · exact .ok rfl

/-- To match is kept by whatever is done with arguments. -/
theorem matches_pairing (visible : Visible) : Pairing (Matches visible) where
  pure alike := matches_of_ends (.ok alike)
  throw _ fault := matches_of_ends (.error fault)
  bind := Matches.bind
  charge := matches_charge

theorem Matches.andThen {similar : γ → δ → Prop} {x y : Run α} {f : α → Run γ} {g : α → Run δ}
    (first : Matches visible Eq x y) (second : ∀ a, Matches visible similar (f a) (g a)) :
    Matches visible similar (x >>= f) (y >>= g) :=
  (matches_pairing visible).andThen first second

theorem Matches.charged {similar : γ → δ → Prop} {x : Run γ} {y : Run δ} (count : Nat)
    (rest : Matches visible similar x y) :
    Matches visible similar (charge count >>= fun _ => x) (charge count >>= fun _ => y) :=
  (matches_pairing visible).charged count rest

theorem matches_checked (outcome : Except Fault α) :
    Matches visible Eq (ofExcept outcome) (ofExcept outcome) :=
  (matches_pairing visible).checked outcome

theorem matches_same (a : α) : Matches visible Eq (pure a) (pure a) :=
  (matches_pairing visible).same a

/-! ## Parameters on the stack -/

/-- What stands on top of the stack is seen. -/
theorem lookup_bind (name : String) (parameters : List String) (values : List Value)
    (locals : Locals) :
    (Run.bind parameters values locals).lookup name =
      (Visible.given name parameters values).or (locals.lookup name) := by
  induction parameters generalizing values locals with
  | nil => rfl
  | cons parameter rest ih =>
      rw [Run.bind, ih, Visible.given, Option.or_assoc]
      congr 1
      by_cases same : parameter = name
      · rw [if_pos same, same, List.lookup_cons_self, Option.some_or]
      · have differs : (name == parameter) = false := beq_eq_false_iff_ne.2 (Ne.symm same)
        rw [if_neg same, List.lookup_cons, differs, Option.none_or]

/-- Behind the parameters of a call the stack is as before. -/
theorem drop_bind (parameters : List String) (values : List Value) (locals : Locals) :
    (Run.bind parameters values locals).drop
      ((Run.bind parameters values locals).length - locals.length) = locals := by
  have front : ∃ top, Run.bind parameters values locals = top ++ locals := by
    induction parameters generalizing values locals with
    | nil => exact ⟨[], rfl⟩
    | cons parameter rest ih =>
        obtain ⟨top, pushed⟩ := ih values.tail ((parameter, values.head?.join) :: locals)
        exact ⟨top ++ [(parameter, values.head?.join)], by rw [Run.bind, pushed]; simp⟩
  obtain ⟨top, pushed⟩ := front
  rw [pushed, List.length_append, Nat.add_sub_cancel, List.drop_left]

/-- A call of a function puts its parameters on the stack and takes them away again. -/
theorem Matches.withLocals {parameters : List String} {values : List Value} {x y : Run Value}
    (inside : Matches (visible.extend parameters values) Eq x y) :
    Matches visible Eq (withLocals parameters x values) y := by
  intro locals others sees steps
  have seesInside : (fun name => (Run.bind parameters values locals).lookup name) =
      visible.extend parameters values := by
    funext name
    rw [lookup_bind, ← sees]
    rfl
  obtain ⟨outcome, other, after, ran, ranOther, ends⟩ := inside _ others seesInside steps
  refine ⟨outcome, other, after, ?_, ranOther, ends⟩
  rw [run_withLocals, ran]
  simp only [Machine.dropped, drop_bind]

end Run

open Run (Matches matches_pairing matches_checked matches_same)

/-! ## Terms -/

section Eval

variable {scope : Scope} {visible : Visible}

theorem matches_nameValue (name : String) :
    Matches visible Eq (nameValue scope name) (Lexical.nameValue scope visible name) := by
  intro locals others sees steps
  have found : locals.lookup name = visible name := congrFun sees name
  rw [Run.run_nameValue, found, Lexical.nameValue]
  cases visible name with
  | some v => exact ⟨_, _, steps, rfl, rfl, .ok rfl⟩
  | none =>
      cases scopeValue? scope name with
      | some v => exact ⟨_, _, steps, rfl, rfl, .ok rfl⟩
      | none => exact ⟨_, _, steps, rfl, rfl, .error .unknownName⟩

mutual

/-- The evaluation with a stack does what the one without a stack does. -/
theorem matches_eval : (term : Term) → (visible : Visible) →
    Matches visible Eq (eval scope term) (Lexical.eval scope term visible)
  | .literal _, _ | .undefined, _ => .charged 1 (matches_same _)
  | .name name, _ => .charged 1 (matches_nameValue name)
  | .member target _ _, visible => by
      apply Matches.charged
      exact (matches_eval target visible).andThen fun _ => matches_checked _
  | .index target key _, visible => by
      apply Matches.charged
      apply (matches_eval target visible).andThen
      intro v
      exact (matches_eval key visible).andThen fun _ => matches_checked _
  | .unary _ operand, visible => by
      apply Matches.charged
      exact (matches_eval operand visible).andThen fun _ => matches_same _
  | .binary _ left right, visible => by
      apply Matches.charged
      apply (matches_eval left visible).andThen
      intro l
      exact (matches_eval right visible).andThen fun _ => matches_checked _
  | .logical _ left right, visible => by
      apply Matches.charged
      apply (matches_eval left visible).andThen
      intro l
      split
      · exact matches_same _
      · exact matches_eval right visible
  | .conditional test yes no, visible => by
      apply Matches.charged
      apply (matches_eval test visible).andThen
      intro t
      split
      · exact matches_eval yes visible
      · exact matches_eval no visible
  | .template texts parts, visible => .charged 1 (matches_evalTemplate texts parts "" visible)
  | .array items, visible => by
      apply Matches.charged
      exact (matches_evalItems items visible).andThen fun _ => matches_checked _
  | .object entries, visible => by
      apply Matches.charged
      exact (matches_evalEntries entries [] visible).andThen fun _ => matches_checked _
  | .builtin function arguments, visible => by
      apply Matches.charged
      apply (matches_evalArguments arguments visible).bind
      intro args others pairs
      rw [Builtin.apply_congr (ArgsPair.values_eq pairs)]
      exact matches_checked _
  | .method receiver method _ arguments, visible => by
      have pairing := matches_pairing visible
      apply Matches.charged
      apply (matches_eval receiver visible).andThen
      intro v
      split
      · split
        · exact matches_same _
        · exact pairing.throw _ _
      · apply (matches_evalArguments arguments visible).bind
        intro args others pairs
        exact (pairing.callMethod pairs v method).andThen fun _ => pairing.built _
  | .function _ _, visible => .charged 1 ((matches_pairing visible).throw _ _)
termination_by structural term => term

theorem matches_evalTemplate (texts : List String) : (parts : List Term) → (sofar : String) →
    (visible : Visible) → Matches visible Eq (evalTemplate scope texts parts sofar)
      (Lexical.evalTemplate scope texts parts sofar visible)
  | [], _, _ => matches_checked _
  | part :: parts, _, visible => by
      apply (matches_eval part visible).andThen
      intro v
      apply (matches_checked _).andThen
      intro _
      exact matches_evalTemplate texts.tail parts _ visible
termination_by structural parts => parts

theorem matches_evalItems : (items : List (Element Term)) → (visible : Visible) →
    Matches visible Eq (evalItems scope items) (Lexical.evalItems scope items visible)
  | [], _ => matches_same _
  | .item term :: rest, visible => by
      apply (matches_eval term visible).andThen
      intro v
      exact (matches_evalItems rest visible).andThen fun _ => matches_same _
  | .spread term :: rest, visible => by
      apply (matches_eval term visible).andThen
      intro v
      apply ((matches_pairing visible).spreadItems v).andThen
      intro front
      exact (matches_evalItems rest visible).andThen fun _ => matches_same _
termination_by structural items => items

theorem matches_evalEntries : (entries : List (Option String × Term)) → (fields : Record Json) →
    (visible : Visible) → Matches visible Eq (evalEntries scope entries fields)
      (Lexical.evalEntries scope entries fields visible)
  | [], _, _ => matches_same _
  | (some _, term) :: rest, _, visible =>
      (matches_eval term visible).andThen fun _ => matches_evalEntries rest _ visible
  | (none, term) :: rest, _, visible => by
      apply (matches_eval term visible).andThen
      intro v
      apply ((matches_pairing visible).spreadFields v).andThen
      exact fun _ => matches_evalEntries rest _ visible
termination_by structural entries => entries

/-- A function is only called while the stack is as it was where the function is written, so it sees
there what it keeps. -/
theorem matches_evalArguments : (arguments : List Term) → (visible : Visible) →
    Matches visible (ArgsPair (Matches visible)) (evalArguments scope arguments)
      (Lexical.evalArguments scope arguments visible)
  | [], visible => (matches_pairing visible).pure .nil
  | term :: rest, visible => by
      have pairing := matches_pairing visible
      have others := matches_evalArguments rest visible
      have value := matches_eval term visible
      cases term with
      | function parameters body =>
          have gives : ArgPair (Matches visible)
              (.callback (Run.withLocals parameters (eval scope body)))
              (.callback fun values =>
                Lexical.eval scope body (visible.extend parameters values)) :=
            fun values => (matches_eval body _).withLocals
          apply others.bind
          exact fun args more pairs => pairing.pure (.cons gives pairs)
      | _ =>
          apply value.andThen
          intro v
          apply others.bind
          exact fun args more pairs => pairing.pure (.cons rfl pairs)
termination_by structural arguments => arguments

end

/-- A script does what it does without a stack. -/
theorem matches_body (args : List Value) (root : Term) :
    Matches .nothing Eq (Program.body scope args root) (Lexical.body scope args root) := by
  cases root with
  | function parameters body => exact (matches_eval body _).withLocals
  | _ => exact matches_eval _ .nothing

end Eval

/-- Whatever runs with the parameters of its place on the stack has one outcome, with and without the
stack, and leaves the stack as it was. -/
theorem Run.Matches.outcome {visible : Visible} {x y : Run Value} (alike : Matches visible Eq x y)
    {locals : Locals} (sees : (fun name => locals.lookup name) = visible) (others : Locals)
    (steps : Nat) :
    ∃ outcome after, x.run.run ⟨locals, steps⟩ = (outcome, ⟨locals, after⟩) ∧
      y.run.run ⟨others, steps⟩ = (outcome, ⟨others, after⟩) := by
  obtain ⟨outcome, other, after, ran, ranOther, ends⟩ := alike locals others sees steps
  cases ends.eq
  exact ⟨outcome, after, ran, ranOther⟩

/-- A script gives what it gives without a stack.  Whatever stands on the stack, a term and a call of
a function have the outcome, after as many steps, that they have without a stack where the same
parameters can be seen, and they leave the stack as it was.  The parameters of a call hide all others
of their names: the last of one name counts, and one without an argument is undefined. -/
theorem Program.run?_lexical (scope : Scope) :
    (∀ (program : Program) (args : List Value),
      program.run? scope args = Lexical.run? program scope args) ∧
    (∀ (term : Term) (locals others : Locals) (steps : Nat), ∃ outcome after,
      (eval scope term).run.run ⟨locals, steps⟩ = (outcome, ⟨locals, after⟩) ∧
        (Lexical.eval scope term fun name => locals.lookup name).run.run ⟨others, steps⟩ =
          (outcome, ⟨others, after⟩)) ∧
    (∀ (parameters : List String) (body : Term) (values : List Value) (locals others : Locals)
      (steps : Nat), ∃ outcome after,
      (Run.withLocals parameters (eval scope body) values).run.run ⟨locals, steps⟩ =
          (outcome, ⟨locals, after⟩) ∧
        (Lexical.eval scope body
          (Visible.extend (fun name => locals.lookup name) parameters values)).run.run
            ⟨others, steps⟩ = (outcome, ⟨others, after⟩)) ∧
    ∀ (visible : Visible) (parameters : List String) (values : List Value) (name : String),
      (name ∉ parameters → visible.extend parameters values name = visible name) ∧
        ∀ front back, parameters = front ++ name :: back → name ∉ back →
          visible.extend parameters values name = some values[front.length]?.join := by
  refine ⟨fun program args => ?_, fun term locals others steps => ?_,
    fun parameters body values locals others steps => ?_,
    fun visible parameters values name => ⟨visible.extend_of_not_mem, ?_⟩⟩
  · have alike : Matches .nothing Eq (body scope args program.root)
        (Lexical.body scope args program.root) := matches_body args program.root
    have empty : (fun name => ([] : Locals).lookup name) = Visible.nothing := rfl
    obtain ⟨outcome, after, ran, ranOther⟩ := alike.outcome empty [] 0
    cases outcome <;> simp only [run?, Lexical.run?, ran, ranOther]
  · exact (matches_eval term _).outcome rfl others steps
  · exact (matches_eval body _).withLocals.outcome rfl others steps
  · rintro front back rfl last
    exact visible.extend_of_last front last values

end UiDoc.Script
