import UiDoc.Proofs.Script.Runs

/-!
# What holds of every evaluation

An evaluation is put together from a few acts: it takes steps, looks up a name, gives a result, is
abandoned, or runs a function with its parameters.  A property of runs that holds of each of these
acts, and of two runs one after the other, holds of the evaluation of every term.
-/

namespace UiDoc.Script

namespace Run

/-- A property of runs, and of what they give, that holds of all acts and of all runs that are put
together from runs with this property. -/
structure Compositional (P : (α : Type) → Run α → (α → Prop) → Prop) : Prop where
  pure : ∀ {α : Type} {a : α} {post : α → Prop}, post a → P α (pure a) post
  throw : ∀ {α : Type} (fault : Fault) (post : α → Prop), P α (throw fault) post
  bind : ∀ {α β : Type} {x : Run α} {f : α → Run β} {middle : α → Prop} {post : β → Prop},
    P α x middle → (∀ a, middle a → P β (f a) post) → P β (x >>= f) post
  charge : ∀ count, P Unit (charge count) fun _ => True
  name : ∀ scope name, P Value (nameValue scope name) fun _ => True
  withLocals : ∀ {parameters body values}, P Value body (fun _ => True) →
    P Value (withLocals parameters body values) fun _ => True

end Run

/-- What a callback among arguments does has a property. -/
def ArgHas (P : (α : Type) → Run α → (α → Prop) → Prop) : Arg → Prop
  | .value _ => True
  | .callback f => ∀ values, P Value (f values) fun _ => True

namespace Run.Compositional

variable {P : (α : Type) → Run α → (α → Prop) → Prop} (composes : Compositional P)
include composes

section Acts

variable {α β : Type} {x : Run α} {f : α → Run β}

theorem andThen {post : β → Prop} (first : P α x fun _ => True) (second : ∀ a, P β (f a) post) :
    P β (x >>= f) post :=
  composes.bind first fun a _ => second a

theorem done (a : α) : P α (Pure.pure a) fun _ => True :=
  composes.pure trivial

theorem charged {post : α → Prop} (count : Nat) (has : P α x post) :
    P α (Run.charge count >>= fun _ => x) post :=
  composes.andThen (composes.charge count) fun _ => has

theorem ofExcept_of {outcome : Except Fault α} {post : α → Prop}
    (satisfied : ∀ a, outcome = .ok a → post a) : P α (ofExcept outcome) post := by
  cases outcome with
  | error fault => exact composes.throw fault post
  | ok a => exact composes.pure (satisfied a rfl)

theorem checked (outcome : Except Fault α) : P α (ofExcept outcome) fun _ => True :=
  composes.ofExcept_of fun _ _ => trivial

theorem built_of (v : Value) : P Value (built v) fun _ => True := by
  unfold built
  split
  · exact composes.andThen (composes.charge _) fun _ => composes.checked _
  · exact composes.andThen (composes.charge _) fun _ => composes.checked _
  · exact composes.checked _

end Acts

/-! ## Callbacks -/

section Items

variable {f : Callback} (has : ∀ values, P Value (f values) fun _ => True)
include has

theorem mapItems (i : Nat) (items : List Json) :
    P _ (mapItems f i items) fun _ => True := by
  induction items generalizing i with
  | nil => exact composes.done _
  | cons item rest ih =>
      apply composes.andThen (has _)
      intro v
      exact composes.andThen (ih (i + 1)) fun _ => composes.done _

theorem filterItems (i : Nat) (items : List Json) :
    P _ (filterItems f i items) fun _ => True := by
  induction items generalizing i with
  | nil => exact composes.done _
  | cons item rest ih =>
      apply composes.andThen (has _)
      intro v
      exact composes.andThen (ih (i + 1)) fun _ => composes.done _

theorem findItem (wanted : Bool) (i : Nat) (items : List Json) :
    P _ (findItem f wanted i items) fun _ => True := by
  induction items generalizing i with
  | nil => exact composes.done _
  | cons item rest ih =>
      apply composes.andThen (has _)
      intro v
      split
      · exact composes.done _
      · exact ih (i + 1)

theorem reduceItems (v : Value) (i : Nat) (items : List Json) :
    P _ (reduceItems f v i items) fun _ => True := by
  induction items generalizing v i with
  | nil => exact composes.done _
  | cons item rest ih => exact composes.andThen (has _) fun v => ih v (i + 1)

end Items

/-! ## Methods -/

section Methods

variable {args : List Arg} (has : ∀ arg ∈ args, ArgHas P arg)
include has

theorem applyToArray (items : List Json) (method : Method) :
    P _ (method.applyToArray items args) fun _ => True := by
  have callback : P _ (ofExcept (callbackArgument args)) fun f => ArgHas P (.callback f) := by
    apply composes.ofExcept_of
    intro f found
    match args, has with
    | .callback g :: rest, has =>
        cases found
        exact has _ (List.mem_cons_self ..)
    | [], _ | .value _ :: _, _ => cases found
  cases method with
  | map =>
      exact composes.bind callback fun f gives =>
        composes.andThen (composes.mapItems gives 0 items) fun _ => composes.done _
  | filter =>
      exact composes.bind callback fun f gives =>
        composes.andThen (composes.filterItems gives 0 items) fun _ => composes.done _
  | find | findIndex | any | every =>
      exact composes.bind callback fun f gives =>
        composes.andThen (composes.findItem gives _ 0 items) fun _ => composes.done _
  | reduce =>
      exact composes.bind callback fun f gives =>
        composes.andThen (composes.checked _) fun (start, i, rest) =>
          composes.reduceItems gives start i rest
  | join => exact composes.checked _
  | concat => exact composes.andThen (composes.checked _) fun _ => composes.done _
  | includes | indexOf | slice | reverse | toString => exact composes.done _
  | toUpperCase | toLowerCase | trim | trimStart | trimEnd | startsWith | endsWith | charAt
  | substring | split | replace | replaceAll | padStart | padEnd | repeated | toFixed =>
      exact composes.throw _ _

theorem callMethod (receiver : Value) (method : Method) :
    P _ (callMethod receiver method args) fun _ => True := by
  have shown (v : Value) :
      P Value (if method = .toString then Pure.pure (some (.str (Value.text v)))
        else MonadExcept.throw .mistyped) fun _ => True := by
    split
    · exact composes.done _
    · exact composes.throw _ _
  match receiver with
  | some (.arr items) => exact composes.applyToArray has items method
  | some (.str s) => exact composes.checked _
  | some (.num n) => exact composes.checked _
  | none | some .null | some (.bool _) | some (.obj _) => exact shown _

end Methods

/-! ## Terms -/

theorem spreadItems (v : Value) : P _ (spreadItems v) fun _ => True := by
  match v with
  | some (.arr items) => exact composes.charged _ (composes.done _)
  | some (.str s) => exact composes.charged _ (composes.done _)
  | none | some .null | some (.bool _) | some (.num _) | some (.obj _) => exact composes.throw _ _

theorem spreadFields (v : Value) : P _ (spreadFields v) fun _ => True := by
  match v with
  | some (.obj fields) => exact composes.charged _ (composes.done _)
  | none | some .null | some (.bool _) | some (.num _) | some (.str _) | some (.arr _) =>
      exact composes.done _

mutual

/-- The evaluation of a term has the property. -/
theorem eval (scope : Scope) : (term : Term) → P _ (eval scope term) fun _ => True
  | .literal _ => composes.charged 1 (composes.done _)
  | .undefined => composes.charged 1 (composes.done _)
  | .name name => composes.charged 1 (composes.name scope name)
  | .member target _ _ => by
      apply composes.charged
      exact composes.andThen (eval scope target) fun _ => composes.checked _
  | .index target key _ => by
      apply composes.charged
      apply composes.andThen (eval scope target)
      intro v
      exact composes.andThen (eval scope key) fun _ => composes.checked _
  | .unary _ operand => by
      apply composes.charged
      exact composes.andThen (eval scope operand) fun _ => composes.done _
  | .binary _ left right => by
      apply composes.charged
      apply composes.andThen (eval scope left)
      intro l
      exact composes.andThen (eval scope right) fun _ => composes.checked _
  | .logical _ left right => by
      apply composes.charged
      apply composes.andThen (eval scope left)
      intro l
      split
      · exact composes.done _
      · exact eval scope right
  | .conditional test yes no => by
      apply composes.charged
      apply composes.andThen (eval scope test)
      intro t
      split
      · exact eval scope yes
      · exact eval scope no
  | .template texts parts => composes.charged 1 (evalTemplate scope texts parts "")
  | .array items => by
      apply composes.charged
      exact composes.andThen (evalItems scope items) fun _ => composes.checked _
  | .object entries => by
      apply composes.charged
      exact composes.andThen (evalEntries scope entries []) fun _ => composes.checked _
  | .builtin _ arguments => by
      apply composes.charged
      exact composes.bind (evalArguments scope arguments) fun _ _ => composes.checked _
  | .method receiver method _ arguments => by
      apply composes.charged
      apply composes.andThen (eval scope receiver)
      intro v
      split
      · split
        · exact composes.done _
        · exact composes.throw _ _
      · apply composes.bind (evalArguments scope arguments)
        intro args has
        exact composes.andThen (composes.callMethod has v method) fun _ => composes.built_of _
  | .function _ _ => composes.charged 1 (composes.throw _ _)
termination_by structural term => term

theorem evalTemplate (scope : Scope) (texts : List String) : (parts : List Term) →
    (sofar : String) → P _ (evalTemplate scope texts parts sofar) fun _ => True
  | [], _ => composes.checked _
  | part :: parts, sofar => by
      apply composes.andThen (eval scope part)
      intro v
      apply composes.andThen (composes.checked _)
      intro _
      exact evalTemplate scope texts.tail parts _
termination_by structural parts => parts

theorem evalItems (scope : Scope) : (items : List (Element Term)) →
    P _ (evalItems scope items) fun _ => True
  | [] => composes.done _
  | .item term :: rest => by
      apply composes.andThen (eval scope term)
      intro v
      exact composes.andThen (evalItems scope rest) fun _ => composes.done _
  | .spread term :: rest => by
      apply composes.andThen (eval scope term)
      intro v
      apply composes.andThen (composes.spreadItems v)
      intro front
      exact composes.andThen (evalItems scope rest) fun _ => composes.done _
termination_by structural items => items

theorem evalEntries (scope : Scope) : (entries : List (Option String × Term)) →
    (fields : Record Json) → P _ (evalEntries scope entries fields) fun _ => True
  | [], _ => composes.done _
  | (some _, term) :: rest, fields =>
      composes.andThen (eval scope term) fun _ => evalEntries scope rest _
  | (none, term) :: rest, fields => by
      apply composes.andThen (eval scope term)
      intro v
      exact composes.andThen (composes.spreadFields v) fun _ => evalEntries scope rest _
termination_by structural entries => entries

/-- What the functions among the arguments do has the property as well. -/
theorem evalArguments (scope : Scope) : (arguments : List Term) →
    P _ (evalArguments scope arguments) fun args => ∀ arg ∈ args, ArgHas P arg
  | [] => composes.pure nofun
  | term :: rest => by
      have others := evalArguments scope rest
      have value := eval scope term
      cases term with
      | function parameters body =>
          have has : ArgHas P (.callback (Run.withLocals parameters (Script.eval scope body))) :=
            fun _ => composes.withLocals (eval scope body)
          apply composes.bind others
          exact fun args more => composes.pure (List.forall_mem_cons.2 ⟨has, more⟩)
      | _ =>
          apply composes.andThen value
          intro v
          apply composes.bind others
          exact fun args more => composes.pure (List.forall_mem_cons.2 ⟨trivial, more⟩)
termination_by structural arguments => arguments

end

end Run.Compositional

end UiDoc.Script
