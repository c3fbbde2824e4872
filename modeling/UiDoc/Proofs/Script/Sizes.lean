import UiDoc.Proofs.Journal
import UiDoc.Proofs.Script.Footprints
import UiDoc.Proofs.Script.Runs

/-!
# How large the values of a script become

A script is given values of any size, and may hand on whatever it finds in them.  What it builds
itself stays small: each act that builds a value either checks how large that is, or builds no more
than a number, a truth value or a short text.
-/

namespace UiDoc

/-- The values in a scope: its layers, the variables as one object, and the merged root. -/
def Scope.layers (scope : Scope) : List Json :=
  scope.data :: .obj scope.context :: .obj scope.merged ::
    (scope.state.toList ++ scope.bindings.toList)

namespace Script

variable {given : List Json} {scope : Scope}

/-! ## Parameters and callbacks -/

/-- All parameters fit. -/
def LocalsFit (given : List Json) (locals : Locals) : Prop :=
  ∀ parameter ∈ locals, Fits given parameter.2

theorem LocalsFit.drop {locals : Locals} (fit : LocalsFit given locals) (count : Nat) :
    LocalsFit given (locals.drop count) :=
  fun parameter member => fit parameter (List.mem_of_mem_drop member)

/-- Values that fit are given to parameters. -/
theorem LocalsFit.bind {locals : Locals} (fit : LocalsFit given locals) (parameters : List String)
    {values : List Value} (fits : ∀ v ∈ values, Fits given v) :
    LocalsFit given (Run.bind parameters values locals) := by
  induction parameters generalizing values locals with
  | nil => exact fit
  | cons name names ih =>
      apply ih
      · intro parameter member
        rcases List.mem_cons.1 member with rfl | earlier
        · cases values with
          | nil => exact fits_none
          | cons v rest => exact fits v (List.mem_cons_self ..)
        · exact fit parameter earlier
      · exact fun v member => fits v (List.mem_of_mem_tail member)

/-- An evaluation handles nothing but values that fit, and gives such a value. -/
abbrev Yields (given : List Json) (x : Run Value) : Prop :=
  x.Ensures (LocalsFit given) (Fits given)

/-- An argument fits if its value does; a function has to give values that fit for such values. -/
def ArgFits (given : List Json) : Arg → Prop
  | .value v => Fits given v
  | .callback f => ∀ values, (∀ v ∈ values, Fits given v) → Yields given (f values)

/-- The callback of a method gives values that fit. -/
theorem callback_of_args {args : List Arg} (fit : ∀ arg ∈ args, ArgFits given arg) {f : Callback}
    (found : callbackArgument args = .ok f) : ArgFits given (.callback f) := by
  match args with
  | .callback g :: rest =>
      cases found
      exact fit _ (List.mem_cons_self ..)
  | [] | .value _ :: _ => cases found

section Items

variable {f : Callback} {items : List Json}

theorem ensures_callOn (gives : ArgFits given (.callback f)) {item : Json}
    (fits : Fits given (some item)) (i : Nat) : Yields given (callOn f item i) := by
  apply gives
  intro v member
  rcases List.mem_cons.1 member with rfl | next
  · exact fits
  · exact List.eq_of_mem_singleton next ▸ fits_of_withinBounds rfl

theorem ensures_mapItems (gives : ArgFits given (.callback f))
    (fit : ∀ item ∈ items, Fits given (some item)) (i : Nat) :
    (mapItems f i items).Ensures (LocalsFit given) fun _ => True := by
  induction items generalizing i with
  | nil => exact Run.ensures_pure trivial
  | cons item rest ih =>
      obtain ⟨first, others⟩ := List.forall_mem_cons.1 fit
      apply (ensures_callOn gives first i).bind
      intro v _
      apply (ih others (i + 1)).bind
      exact fun _ _ => Run.ensures_pure trivial

theorem ensures_filterItems (gives : ArgFits given (.callback f))
    (fit : ∀ item ∈ items, Fits given (some item)) (i : Nat) :
    (filterItems f i items).Ensures (LocalsFit given) fun _ => True := by
  induction items generalizing i with
  | nil => exact Run.ensures_pure trivial
  | cons item rest ih =>
      obtain ⟨first, others⟩ := List.forall_mem_cons.1 fit
      apply (ensures_callOn gives first i).bind
      intro v _
      apply (ih others (i + 1)).bind
      exact fun _ _ => Run.ensures_pure trivial

theorem ensures_findItem (gives : ArgFits given (.callback f))
    (fit : ∀ item ∈ items, Fits given (some item)) (wanted : Bool) (i : Nat) :
    (findItem f wanted i items).Ensures (LocalsFit given) fun _ => True := by
  induction items generalizing i with
  | nil => exact Run.ensures_pure trivial
  | cons item rest ih =>
      obtain ⟨first, others⟩ := List.forall_mem_cons.1 fit
      apply (ensures_callOn gives first i).bind
      intro v _
      split
      · exact Run.ensures_pure trivial
      · exact ih others (i + 1)

/-- What has been accumulated fits all the time. -/
theorem ensures_reduceItems (gives : ArgFits given (.callback f))
    (fit : ∀ item ∈ items, Fits given (some item)) {v : Value} (fits : Fits given v) (i : Nat) :
    Yields given (reduceItems f v i items) := by
  induction items generalizing v i with
  | nil => exact Run.ensures_pure fits
  | cons item rest ih =>
      obtain ⟨first, others⟩ := List.forall_mem_cons.1 fit
      have called : Yields given (f [v, some item, integer i]) := by
        apply gives
        simp only [List.forall_mem_cons]
        exact ⟨fits, first, fits_of_withinBounds rfl, nofun⟩
      exact called.bind fun _ accumulated => ih others accumulated (i + 1)

theorem fits_of_reduceStart {args : List Arg} (fit : ∀ arg ∈ args, ArgFits given arg)
    (itemsFit : ∀ item ∈ items, Fits given (some item)) {v : Value} {i : Nat} {rest : List Json}
    (started : reduceStart args items = .ok (v, i, rest)) :
    Fits given v ∧ ∀ item ∈ rest, Fits given (some item) := by
  simp only [reduceStart] at started
  split at started
  · rename_i found
    cases started
    exact ⟨fit _ (List.mem_of_getElem? found), itemsFit⟩
  · cases started
    exact List.forall_mem_cons.1 itemsFit
  · cases started

end Items

/-! ## Methods -/

/-- A method keeps the parameters in order.  Its result is checked by the caller. -/
theorem ensures_applyToArray {items : List Json} {args : List Arg}
    (itemsFit : ∀ item ∈ items, Fits given (some item)) (fit : ∀ arg ∈ args, ArgFits given arg)
    (method : Method) :
    (method.applyToArray items args).Ensures (LocalsFit given) fun _ => True := by
  have callback : (Run.ofExcept (callbackArgument args)).Ensures (LocalsFit given) fun f =>
      ArgFits given (.callback f) :=
    Run.ensures_ofExcept fun f found => callback_of_args fit found
  have checked {α : Type} {outcome : Except Fault α} :
      (Run.ofExcept outcome).Ensures (LocalsFit given) fun _ => True :=
    Run.ensures_ofExcept fun _ _ => trivial
  have done {v : Value} : (pure v : Run Value).Ensures (LocalsFit given) fun _ => True :=
    Run.ensures_pure trivial
  cases method with
  | map =>
      exact callback.bind fun f gives => (ensures_mapItems gives itemsFit 0).andThen fun _ => done
  | filter =>
      exact callback.bind fun f gives =>
        (ensures_filterItems gives itemsFit 0).andThen fun _ => done
  | find | findIndex | any | every =>
      exact callback.bind fun f gives =>
        (ensures_findItem gives itemsFit _ 0).andThen fun _ => done
  | reduce =>
      apply callback.bind
      intro f gives
      apply (Run.ensures_ofExcept fun _ started => fits_of_reduceStart fit itemsFit started).bind
      rintro ⟨start, i, rest⟩ ⟨startFits, restFit⟩
      exact (ensures_reduceItems gives restFit startFits i).mono fun _ _ => trivial
  | join => exact checked
  | concat => exact checked.andThen fun _ => done
  | includes | indexOf | slice | reverse | toString => exact done
  | toUpperCase | toLowerCase | trim | trimStart | trimEnd | startsWith | endsWith | charAt
  | substring | split | replace | replaceAll | padStart | padEnd | repeated | toFixed =>
      exact Run.ensures_throw _ _

theorem ensures_callMethod {receiver : Value} (fits : Fits given receiver) {args : List Arg}
    (fit : ∀ arg ∈ args, ArgFits given arg) (method : Method) :
    (callMethod receiver method args).Ensures (LocalsFit given) fun _ => True := by
  have checked {outcome : Except Fault Value} :
      (Run.ofExcept outcome).Ensures (LocalsFit given) fun _ => True :=
    Run.ensures_ofExcept fun _ _ => trivial
  have shown (v : Value) :
      (if method = .toString then pure (some (.str (Value.text v))) else throw .mistyped :
        Run Value).Ensures (LocalsFit given) fun _ => True := by
    split
    · exact Run.ensures_pure trivial
    · exact Run.ensures_throw _ _
  match receiver with
  | some (.arr items) =>
      exact ensures_applyToArray (fun item member => fits.item member) fit method
  | some (.str s) => exact checked
  | some (.num n) => exact checked
  | none | some .null | some (.bool _) | some (.obj _) => exact shown _

/-! ## Names -/

theorem fits_root? (layers : scope.layers ⊆ given) (name : String) :
    Fits given (scope.root? name) := by
  have data : Fits given (some scope.data) := fits_of_mem (layers (by simp [Scope.layers]))
  have context : Fits given (some (.obj scope.context)) :=
    fits_of_mem (layers (by simp [Scope.layers]))
  simp only [Scope.root?]
  split
  · rename_i value found
    exact context.field found
  · intro w found
    cases supplied : scope.data with
    | obj fields =>
        rw [supplied] at data found
        exact data.field found w rfl
    | null | bool | num | str | arr => simp [supplied, Json.get?, Json.fields, Json.obj?] at found

theorem fits_named? (layers : scope.layers ⊆ given) (name : String) :
    Fits given (scope.named? name) := by
  simp only [Scope.named?]
  split
  · rename_i state _ supplied
    exact fits_of_mem (layers (by simp [Scope.layers, supplied]))
  · rename_i bindings _ supplied
    exact fits_of_mem (layers (by simp [Scope.layers, supplied]))
  · exact fits_root? layers _

theorem fits_scopeValue? (layers : scope.layers ⊆ given) (name : String) :
    Fits given (scopeValue? scope name) := by
  have named := fits_named? layers name
  simp only [scopeValue?]
  split
  · rename_i v found
    exact found ▸ named
  · split
    · exact fits_of_mem (layers (by simp [Scope.layers]))
    · exact fits_none

theorem ensures_nameValue (layers : scope.layers ⊆ given) (name : String) :
    Yields given (nameValue scope name) := by
  apply Run.ensures_get.bind
  intro machine fit
  split
  · rename_i v found
    exact Run.ensures_pure (fit (name, v) (Record.mem_of_find? found))
  · have value := fits_scopeValue? layers name
    split
    · rename_i v found
      exact Run.ensures_pure (found ▸ value)
    · exact Run.ensures_throw _ _

/-! ## Terms -/

namespace Term

mutual

/-- The values that are written in a term. -/
def literals : Term → List Json
  | .literal v => [v]
  | .undefined | .name _ => []
  | .member target _ _ => literals target
  | .index target key _ => literals target ++ literals key
  | .unary _ operand => literals operand
  | .binary _ left right => literals left ++ literals right
  | .logical _ left right => literals left ++ literals right
  | .conditional test yes no => literals test ++ (literals yes ++ literals no)
  | .template _ parts => literalsOfAll parts
  | .array items => literalsOfItems items
  | .object entries => literalsOfEntries entries
  | .builtin _ arguments => literalsOfAll arguments
  | .method receiver _ _ arguments => literals receiver ++ literalsOfAll arguments
  | .function _ body => literals body
termination_by structural t => t

/-- The values that are written in terms. -/
def literalsOfAll : List Term → List Json
  | [] => []
  | term :: rest => literals term ++ literalsOfAll rest
termination_by structural t => t

/-- The values that are written in the parts of an array. -/
def literalsOfItems : List (Element Term) → List Json
  | [] => []
  | .item term :: rest => literals term ++ literalsOfItems rest
  | .spread term :: rest => literals term ++ literalsOfItems rest
termination_by structural t => t

/-- The values that are written in the parts of an object. -/
def literalsOfEntries : List (Option String × Term) → List Json
  | [] => []
  | (_, term) :: rest => literals term ++ literalsOfEntries rest
termination_by structural t => t

end

end Term

theorem ensures_spreadItems (v : Value) :
    (spreadItems v).Ensures (LocalsFit given) fun _ => True := by
  match v with
  | some (.arr items) => exact Run.Ensures.charged (Run.ensures_pure trivial) _
  | some (.str s) => exact Run.Ensures.charged (Run.ensures_pure trivial) _
  | none | some .null | some (.bool _) | some (.num _) | some (.obj _) =>
      exact Run.ensures_throw _ _

theorem ensures_spreadFields (v : Value) :
    (spreadFields v).Ensures (LocalsFit given) fun _ => True := by
  match v with
  | some (.obj fields) => exact Run.Ensures.charged (Run.ensures_pure trivial) _
  | none | some .null | some (.bool _) | some (.num _) | some (.str _) | some (.arr _) =>
      exact Run.ensures_pure trivial

/-- What is built within the bounds fits. -/
theorem yields_bounded (v : Value) : Yields given (Run.ofExcept (bounded v)) :=
  Run.ensures_bounded fits_of_withinBounds

mutual

/-- Whatever a term gives fits, if the values that are written in it are given. -/
theorem yields_eval (layers : scope.layers ⊆ given) : (term : Term) → term.literals ⊆ given →
    Yields given (eval scope term)
  | .literal v, written =>
      (Run.ensures_pure (fits_of_mem (written (List.mem_cons_self ..)))).charged 1
  | .undefined, _ => Run.Ensures.charged (Run.ensures_pure fits_none) 1
  | .name name, _ => Run.Ensures.charged (ensures_nameValue layers name) 1
  | .member target name optional, written => by
      apply Run.Ensures.charged
      apply (yields_eval layers target written).bind
      intro v fits
      exact Run.ensures_ofExcept fun _ reached => fits.access reached
  | .index target key optional, written => by
      obtain ⟨writtenTarget, writtenKey⟩ := List.append_subset.1 written
      apply Run.Ensures.charged
      apply (yields_eval layers target writtenTarget).bind
      intro v fits
      apply (yields_eval layers key writtenKey).bind
      intro k _
      exact Run.ensures_ofExcept fun _ reached => fits.access reached
  | .unary op operand, written => by
      apply Run.Ensures.charged
      apply (yields_eval layers operand written).bind
      exact fun v _ => Run.ensures_pure (fits_unary op v)
  | .binary op left right, written => by
      obtain ⟨writtenLeft, writtenRight⟩ := List.append_subset.1 written
      apply Run.Ensures.charged
      apply (yields_eval layers left writtenLeft).bind
      intro l _
      apply (yields_eval layers right writtenRight).bind
      intro r _
      exact Run.ensures_ofExcept fun _ applied => fits_binary applied
  | .logical op left right, written => by
      obtain ⟨writtenLeft, writtenRight⟩ := List.append_subset.1 written
      apply Run.Ensures.charged
      apply (yields_eval layers left writtenLeft).bind
      intro l fits
      split
      · exact Run.ensures_pure fits
      · exact yields_eval layers right writtenRight
  | .conditional test yes no, written => by
      obtain ⟨writtenTest, writtenBranches⟩ := List.append_subset.1 written
      obtain ⟨writtenYes, writtenNo⟩ := List.append_subset.1 writtenBranches
      apply Run.Ensures.charged
      apply (yields_eval layers test writtenTest).bind
      intro t _
      split
      · exact yields_eval layers yes writtenYes
      · exact yields_eval layers no writtenNo
  | .template texts parts, written =>
      Run.Ensures.charged (yields_evalTemplate layers texts parts "" written) 1
  | .array items, written => by
      apply Run.Ensures.charged
      apply (ensures_evalItems layers items written).bind
      exact fun built _ => yields_bounded _
  | .object entries, written => by
      apply Run.Ensures.charged
      apply (ensures_evalEntries layers entries [] written).bind
      exact fun built _ => yields_bounded _
  | .builtin function arguments, written => by
      apply Run.Ensures.charged
      apply (ensures_evalArguments layers arguments written).bind
      exact fun args _ => yields_bounded _
  | .method receiver method optional arguments, written => by
      obtain ⟨writtenReceiver, writtenArguments⟩ := List.append_subset.1 written
      apply Run.Ensures.charged
      apply (yields_eval layers receiver writtenReceiver).bind
      intro v fits
      split
      · split
        · exact Run.ensures_pure fits_none
        · exact Run.ensures_throw _ _
      · apply (ensures_evalArguments layers arguments writtenArguments).bind
        intro args fit
        apply (ensures_callMethod fits fit method).bind
        exact fun result _ => Run.ensures_built fits_of_withinBounds
  | .function _ _, _ => Run.Ensures.charged (Run.ensures_throw _ _) 1
termination_by structural term => term

theorem yields_evalTemplate (layers : scope.layers ⊆ given) (texts : List String) :
    (parts : List Term) → (sofar : String) → Term.literalsOfAll parts ⊆ given →
    Yields given (evalTemplate scope texts parts sofar)
  | [], _, _ => yields_bounded _
  | part :: parts, sofar, written => by
      obtain ⟨writtenPart, writtenRest⟩ := List.append_subset.1 written
      apply (yields_eval layers part writtenPart).bind
      intro v _
      apply (yields_bounded _).bind
      intro _ _
      exact yields_evalTemplate layers texts.tail parts _ writtenRest
termination_by structural parts => parts

theorem ensures_evalItems (layers : scope.layers ⊆ given) : (items : List (Element Term)) →
    Term.literalsOfItems items ⊆ given →
    (evalItems scope items).Ensures (LocalsFit given) fun _ => True
  | [], _ => Run.ensures_pure trivial
  | .item term :: rest, written => by
      obtain ⟨writtenTerm, writtenRest⟩ := List.append_subset.1 written
      apply (yields_eval layers term writtenTerm).bind
      intro v _
      apply (ensures_evalItems layers rest writtenRest).bind
      exact fun _ _ => Run.ensures_pure trivial
  | .spread term :: rest, written => by
      obtain ⟨writtenTerm, writtenRest⟩ := List.append_subset.1 written
      apply (yields_eval layers term writtenTerm).bind
      intro v _
      apply (ensures_spreadItems v).bind
      intro front _
      apply (ensures_evalItems layers rest writtenRest).bind
      exact fun _ _ => Run.ensures_pure trivial
termination_by structural items => items

theorem ensures_evalEntries (layers : scope.layers ⊆ given) :
    (entries : List (Option String × Term)) → (fields : Record Json) →
    Term.literalsOfEntries entries ⊆ given →
    (evalEntries scope entries fields).Ensures (LocalsFit given) fun _ => True
  | [], _, _ => Run.ensures_pure trivial
  | (some name, term) :: rest, fields, written => by
      obtain ⟨writtenTerm, writtenRest⟩ := List.append_subset.1 written
      apply (yields_eval layers term writtenTerm).bind
      intro v _
      exact ensures_evalEntries layers rest _ writtenRest
  | (none, term) :: rest, fields, written => by
      obtain ⟨writtenTerm, writtenRest⟩ := List.append_subset.1 written
      apply (yields_eval layers term writtenTerm).bind
      intro v _
      apply (ensures_spreadFields v).bind
      intro more _
      exact ensures_evalEntries layers rest _ writtenRest
termination_by structural entries => entries

theorem ensures_evalArguments (layers : scope.layers ⊆ given) : (arguments : List Term) →
    Term.literalsOfAll arguments ⊆ given →
    (evalArguments scope arguments).Ensures (LocalsFit given) fun args =>
      ∀ arg ∈ args, ArgFits given arg
  | [], _ => Run.ensures_pure nofun
  | term :: rest, written => by
      obtain ⟨writtenTerm, writtenRest⟩ := List.append_subset.1 written
      have others := ensures_evalArguments layers rest writtenRest
      have value := yields_eval layers term writtenTerm
      cases term with
      | function parameters body =>
          have gives : ArgFits given (.callback (Run.withLocals parameters (eval scope body))) :=
            fun values fits => Run.ensures_withLocals (yields_eval layers body writtenTerm)
              (fun _ fit => fit.bind parameters fits) (fun _ count fit => fit.drop count)
          apply others.bind
          exact fun args fit => Run.ensures_pure (List.forall_mem_cons.2 ⟨gives, fit⟩)
      | _ =>
          apply value.bind
          intro v fits
          apply others.bind
          exact fun args fit => Run.ensures_pure (List.forall_mem_cons.2 ⟨fits, fit⟩)
termination_by structural arguments => arguments

end

/-! ## Programs -/

/-- The values that a program is given: those in the scope, the arguments, and what is written in
the program. -/
def Program.inputs (program : Program) (scope : Scope) (args : List Value) : List Json :=
  scope.layers ++ (args.filterMap id ++ program.root.literals)

/-- What a program gives fits. -/
theorem Program.fits_run? {program : Program} {args : List Value} {v : Value}
    (ran : program.run? scope args = some v) : Fits (program.inputs scope args) v := by
  have layers : scope.layers ⊆ program.inputs scope args := List.subset_append_left _ _
  have written : program.root.literals ⊆ program.inputs scope args :=
    List.Subset.trans (List.subset_append_right _ _) (List.subset_append_right _ _)
  have arguments : ∀ v ∈ args, Fits (program.inputs scope args) v := by
    rintro v member w rfl
    have supplied : w ∈ args.filterMap id := List.mem_filterMap.2 ⟨some w, member, rfl⟩
    exact .inl ⟨w, List.mem_append_right _ (List.mem_append_left _ supplied), .itself⟩
  have yields : Yields (program.inputs scope args) (body scope args program.root) := by
    generalize program.inputs scope args = given at *
    cases root : program.root with
    | function parameters body =>
        rw [root] at written
        exact Run.ensures_withLocals (yields_eval layers body written)
          (fun _ fit => fit.bind parameters arguments) (fun _ count fit => fit.drop count)
    | _ =>
        rw [root] at written
        exact yields_eval layers _ written
  obtain ⟨-, satisfied⟩ := yields {} nofun
  simp only [run?] at ran
  split at ran
  · split at ran
    · rename_i result _ outcome
      cases ran
      exact satisfied _ (by rw [outcome])
    · cases ran
  · cases ran

/-- Whatever a script gives is part of a value that it has been given, or stays small: no script
builds a large value, with any functions, texts and callbacks. -/
theorem Cache.evaluate_fits {cache : Cache} (faithful : cache.Faithful) {source : String}
    {args : List Value} {v : Json}
    (gives : (cache.evaluate source scope args).1 = some (some v)) :
    ∃ program, Program.compile? source = some program ∧
      ((∃ g ∈ program.inputs scope args, v.PartOf g) ∨ footprint v ≤ maxFootprint) := by
  rw [(faithful.evaluate source scope args).1] at gives
  obtain ⟨program, compiled, ran⟩ := Option.bind_eq_some_iff.1 gives
  exact ⟨program, compiled, Program.fits_run? ran v rfl⟩

/-- Texts are put together by a callback of a script that has been compiled before. -/
theorem Cache.evaluate_fits_greetings :
    let source := "names => [title, ...names.map(n => `Dear $\x7bn\x7d`)]"
    let scope : Scope := { data := .obj [("title", .str "To all")] }
    let args : List Value := [some (.arr [.str "Ada", .str "Bo"])]
    let cache := (({} : Cache).evaluate source scope []).2
    ∃ v, (cache.evaluate source scope args).1 = some (some v) ∧
      v.print = "[\"To all\",\"Dear Ada\",\"Dear Bo\"]" ∧
      ∃ program, Program.compile? source = some program ∧
        ((∃ g ∈ program.inputs scope args, v.PartOf g) ∨ footprint v ≤ maxFootprint) := by
  intro source scope args cache
  have faithful : cache.Faithful := (faithful_empty.evaluate source scope []).2
  have shown : ((cache.evaluate source scope args).1.map (·.map Json.print)) =
      some (some "[\"To all\",\"Dear Ada\",\"Dear Bo\"]") := by decide +kernel
  obtain ⟨result, gives, printed⟩ := Option.map_eq_some_iff.1 shown
  obtain ⟨v, rfl, text⟩ := Option.map_eq_some_iff.1 printed
  exact ⟨v, gives, text, Cache.evaluate_fits faithful gives⟩

end Script

end UiDoc
