import Mathlib.Data.List.Forall2
import UiDoc.Proofs.Script.Acts

/-!
# Relations between two runs

A relation between runs, and between what they give, that is kept by runs one after the other is
kept by whatever is done with the arguments of a call.  Functions that are given to methods are
related if they are for the same values.
-/

namespace UiDoc.Script

namespace Run

/-- A relation between runs, and between what they give, that holds of the same acts and of runs
that are put together from related ones. -/
structure Pairing (R : {α β : Type} → (α → β → Prop) → Run α → Run β → Prop) : Prop where
  pure : ∀ {α β : Type} {related : α → β → Prop} {a : α} {b : β},
    related a b → R related (pure a) (pure b)
  throw : ∀ {α β : Type} (related : α → β → Prop) (fault : Fault),
    R related (throw fault) (throw fault)
  bind : ∀ {α β γ δ : Type} {related : α → β → Prop} {similar : γ → δ → Prop} {x : Run α}
    {y : Run β} {f : α → Run γ} {g : β → Run δ},
    R related x y → (∀ a b, related a b → R similar (f a) (g b)) → R similar (x >>= f) (y >>= g)
  charge : ∀ count, R Eq (charge count) (charge count)

end Run

variable {R : {α β : Type} → (α → β → Prop) → Run α → Run β → Prop}

/-- The values of two arguments are the same, or they are functions that are related for all
values. -/
def ArgPair (R : {α β : Type} → (α → β → Prop) → Run α → Run β → Prop) : Arg → Arg → Prop
  | .value v, .value w => v = w
  | .callback f, .callback g => ∀ values, R Eq (f values) (g values)
  | _, _ => False

/-- The arguments of two calls are related one by one. -/
abbrev ArgsPair (R : {α β : Type} → (α → β → Prop) → Run α → Run β → Prop) :
    List Arg → List Arg → Prop :=
  List.Forall₂ (ArgPair R)

variable {args others : List Arg}

theorem ArgPair.toValue_eq {arg other : Arg} (pair : ArgPair R arg other) :
    arg.toValue = other.toValue := by
  cases arg <;> cases other <;> first | exact pair | cases pair | rfl

/-- The values of related arguments are the same. -/
theorem ArgsPair.values_eq (pairs : ArgsPair R args others) :
    args.map Arg.toValue = others.map Arg.toValue := by
  induction pairs with
  | nil => rfl
  | cons first _ ih => rw [List.map_cons, List.map_cons, first.toValue_eq, ih]

section Values

variable (values : args.map Arg.toValue = others.map Arg.toValue)
include values

/-- Functions see only the values of their arguments. -/
theorem argument_congr : argument args = argument others := by
  have valueAt (args : List Arg) (i : Nat) :
      argument args i = ((args.map Arg.toValue)[i]?).join := by
    rw [argument, List.getElem?_map]
    cases args[i]? <;> rfl
  funext i
  rw [valueAt, valueAt, values]

/-- What is made of the values of arguments is the same. -/
theorem map_toValue_congr {α : Type} (make : Value → α) :
    (args.map fun arg => make arg.toValue) = others.map fun arg => make arg.toValue := by
  have made := congrArg (List.map make) values
  rwa [List.map_map, List.map_map] at made

theorem numberArgument?_congr : numberArgument? args = numberArgument? others := by
  unfold numberArgument?
  rw [argument_congr values]

theorem Builtin.apply_congr (function : Builtin) : function.apply args = function.apply others := by
  have vacant : args.isEmpty = others.isEmpty := by
    simpa only [List.isEmpty_map] using congrArg List.isEmpty values
  unfold apply
  rw [argument_congr values, map_toValue_congr values, vacant]

theorem Method.applyToText_congr (cs : List Char) (method : Method) :
    method.applyToText cs args = method.applyToText cs others := by
  unfold applyToText Script.substring Script.repeated replaced padded sliceBounds textArgument
    numberArgument textArgument?
  rw [argument_congr values, numberArgument?_congr values,
    map_toValue_congr values fun v => (Value.text v).toList]

theorem Method.applyToNumber_congr (x : Float) (method : Method) :
    method.applyToNumber x args = method.applyToNumber x others := by
  unfold applyToNumber numberArgument
  rw [numberArgument?_congr values]

theorem concatItems_congr (items : List Json) :
    concatItems items args = concatItems items others := by
  induction args generalizing others items with
  | nil =>
      cases others with
      | nil => rfl
      | cons other rest => cases values
  | cons arg args ih =>
      cases others with
      | nil => cases values
      | cons other rest =>
          obtain ⟨first, values⟩ := List.cons.inj values
          simp only [concatItems, first, ih values]

end Values

namespace Run.Pairing

variable (pairing : Pairing R)
include pairing

section Acts

variable {α γ δ : Type} {similar : γ → δ → Prop}

theorem same (a : α) : R Eq (Pure.pure a) (Pure.pure a) :=
  pairing.pure rfl

/-- Runs that give the same are followed by related ones. -/
theorem andThen {x y : Run α} {f : α → Run γ} {g : α → Run δ} (first : R Eq x y)
    (second : ∀ a, R similar (f a) (g a)) : R similar (x >>= f) (y >>= g) := by
  apply pairing.bind first
  rintro a _ rfl
  exact second a

theorem charged {x : Run γ} {y : Run δ} (count : Nat) (rest : R similar x y) :
    R similar (Run.charge count >>= fun _ => x) (Run.charge count >>= fun _ => y) :=
  pairing.andThen (pairing.charge count) fun _ => rest

theorem checked (outcome : Except Fault α) : R Eq (ofExcept outcome) (ofExcept outcome) := by
  cases outcome with
  | error fault => exact pairing.throw Eq fault
  | ok a => exact pairing.same a

theorem built (v : Value) : R Eq (Run.built v) (Run.built v) := by
  unfold Run.built
  split
  · exact pairing.charged _ (pairing.checked _)
  · exact pairing.charged _ (pairing.checked _)
  · exact pairing.checked _

theorem spreadItems (v : Value) : R Eq (spreadItems v) (Script.spreadItems v) := by
  match v with
  | some (.arr items) => exact pairing.charged _ (pairing.same _)
  | some (.str s) => exact pairing.charged _ (pairing.same _)
  | none | some .null | some (.bool _) | some (.num _) | some (.obj _) => exact pairing.throw _ _

theorem spreadFields (v : Value) : R Eq (spreadFields v) (Script.spreadFields v) := by
  match v with
  | some (.obj fields) => exact pairing.charged _ (pairing.same _)
  | none | some .null | some (.bool _) | some (.num _) | some (.str _) | some (.arr _) =>
      exact pairing.same _

end Acts

/-! ## Callbacks -/

section Callbacks

variable {f g : Callback} (gives : ∀ values, R Eq (f values) (g values))
include gives

theorem mapItems (i : Nat) (items : List Json) :
    R Eq (mapItems f i items) (Script.mapItems g i items) := by
  induction items generalizing i with
  | nil => exact pairing.same _
  | cons item rest ih =>
      apply pairing.andThen (gives _)
      intro v
      exact pairing.andThen (ih (i + 1)) fun _ => pairing.same _

theorem filterItems (i : Nat) (items : List Json) :
    R Eq (filterItems f i items) (Script.filterItems g i items) := by
  induction items generalizing i with
  | nil => exact pairing.same _
  | cons item rest ih =>
      apply pairing.andThen (gives _)
      intro v
      exact pairing.andThen (ih (i + 1)) fun _ => pairing.same _

theorem findItem (wanted : Bool) (i : Nat) (items : List Json) :
    R Eq (findItem f wanted i items) (Script.findItem g wanted i items) := by
  induction items generalizing i with
  | nil => exact pairing.same _
  | cons item rest ih =>
      apply pairing.andThen (gives _)
      intro v
      split
      · exact pairing.same _
      · exact ih (i + 1)

theorem reduceItems (v : Value) (i : Nat) (items : List Json) :
    R Eq (reduceItems f v i items) (Script.reduceItems g v i items) := by
  induction items generalizing v i with
  | nil => exact pairing.same _
  | cons item rest ih => exact pairing.andThen (gives _) fun v => ih v (i + 1)

end Callbacks

/-! ## Methods -/

section Methods

variable (pairs : ArgsPair R args others)
include pairs

/-- The callbacks of a method are related. -/
theorem callbackArgument :
    R (fun f g => ∀ values, R Eq (f values) (g values))
      (ofExcept (callbackArgument args)) (ofExcept (Script.callbackArgument others)) := by
  cases pairs with
  | nil => exact pairing.throw _ _
  | @cons arg other _ _ first _ =>
      cases arg with
      | value v =>
          cases other with
          | value w => exact pairing.throw _ _
          | callback g => cases first
      | callback f =>
          cases other with
          | value w => cases first
          | callback g => exact pairing.pure first

omit pairing in
/-- A reduction starts from a value, never from a function. -/
theorem reduceStart_congr (items : List Json) :
    reduceStart args items = reduceStart others items := by
  match pairs with
  | .nil | .cons _ .nil => rfl
  | .cons _ (.cons (a := .value v) (b := .value w) same _) => exact same ▸ rfl
  | .cons _ (.cons (a := .callback f) (b := .callback g) _ _) => cases items <;> rfl

theorem applyToArray (items : List Json) (method : Method) :
    R Eq (method.applyToArray items args) (method.applyToArray items others) := by
  have callback := pairing.callbackArgument pairs
  have values := ArgsPair.values_eq pairs
  cases method with
  | map =>
      exact pairing.bind callback fun f g gives =>
        pairing.andThen (pairing.mapItems gives 0 items) fun _ => pairing.same _
  | filter =>
      exact pairing.bind callback fun f g gives =>
        pairing.andThen (pairing.filterItems gives 0 items) fun _ => pairing.same _
  | find | findIndex | any | every =>
      exact pairing.bind callback fun f g gives =>
        pairing.andThen (pairing.findItem gives _ 0 items) fun _ => pairing.same _
  | reduce =>
      apply pairing.bind callback
      intro f g gives
      rw [reduceStart_congr pairs]
      apply pairing.andThen (pairing.checked _)
      rintro ⟨start, i, rest⟩
      exact pairing.reduceItems gives start i rest
  | concat =>
      unfold Method.applyToArray
      rw [concatItems_congr values]
      exact pairing.andThen (pairing.checked _) fun _ => pairing.same _
  | join =>
      unfold Method.applyToArray
      rw [argument_congr values]
      exact pairing.checked _
  | includes | indexOf =>
      unfold Method.applyToArray
      rw [argument_congr values]
      exact pairing.same _
  | slice =>
      unfold Method.applyToArray sliceBounds
      rw [numberArgument?_congr values]
      exact pairing.same _
  | reverse | toString => exact pairing.same _
  | toUpperCase | toLowerCase | trim | trimStart | trimEnd | startsWith | endsWith | charAt
  | substring | split | replace | replaceAll | padStart | padEnd | repeated | toFixed =>
      exact pairing.throw _ _

theorem callMethod (receiver : Value) (method : Method) :
    R Eq (callMethod receiver method args) (Script.callMethod receiver method others) := by
  have values := ArgsPair.values_eq pairs
  have shown (v : Value) :
      R Eq (if method = .toString then Pure.pure (some (.str (Value.text v)))
          else MonadExcept.throw .mistyped : Run Value)
        (if method = .toString then Pure.pure (some (.str (Value.text v)))
          else MonadExcept.throw .mistyped) := by
    split
    · exact pairing.same _
    · exact pairing.throw _ _
  match receiver with
  | some (.arr items) => exact pairing.applyToArray pairs items method
  | some (.str s) =>
      dsimp only [Script.callMethod]
      rw [method.applyToText_congr values]
      exact pairing.checked _
  | some (.num n) =>
      dsimp only [Script.callMethod]
      rw [method.applyToNumber_congr values]
      exact pairing.checked _
  | none | some .null | some (.bool _) | some (.obj _) => exact shown _

end Methods

end Run.Pairing

end UiDoc.Script
