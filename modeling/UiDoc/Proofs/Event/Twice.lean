import UiDoc.Event.Normal
import UiDoc.Proofs.Text.LetterCase
import UiDoc.Proofs.Text.Trim

/-!
# Bringing events to one form twice

Handlers that events have been brought to can be listed as the events of a component.  Their actions
and conditions stay as they are, but the name of an event may lose another `on`.
-/

namespace UiDoc

/-! ## Names -/

namespace EventName

/-- A name that still has an `on` in front of a capital letter when it has lost one. -/
def Doubled (name : String) : Prop :=
  ∃ c rest, Text.trim name.toList = 'o' :: 'n' :: 'O' :: 'n' :: c :: rest ∧ Text.isUpper c = true

variable {name : String} {c : Char} {rest : List Char}

theorem canonical_of_property (letters : Text.trim name.toList = 'o' :: 'n' :: c :: rest)
    (upper : Text.isUpper c = true) :
    canonical name = String.ofList (Text.lowerChar c ++ rest) := by
  rw [canonical, letters]
  exact if_pos upper

theorem canonical_of_bare
    (bare : ∀ c rest, Text.trim name.toList = 'o' :: 'n' :: c :: rest → ¬Text.isUpper c = true) :
    canonical name = String.ofList (Text.trim name.toList) := by
  unfold canonical
  simp only
  split
  · rename_i c rest letters
    rw [if_neg (bare c rest letters), letters]
  · rfl

/-- The name of a property without its `on` has no white space at its ends. -/
theorem trim_lowered (letters : Text.trim name.toList = 'o' :: 'n' :: c :: rest)
    (upper : Text.isUpper c = true) :
    Text.trim (Text.lowerChar c ++ rest) = Text.lowerChar c ++ rest := by
  have filled := (Text.lowered_lowerChar c).not_blank upper
  have bounds := (Text.lowered_lowerChar c).length_bounds
  have some : Text.lowerChar c ≠ [] := List.ne_nil_of_length_pos bounds.1
  apply Text.trim_of_ends
  · intro d first
    rw [List.head?_append_of_ne_nil _ some] at first
    exact filled d (List.mem_of_head? first)
  · intro d last
    by_cases alone : rest = []
    · rw [alone, List.append_nil] at last
      exact filled d (List.mem_of_getLast? last)
    · apply Text.not_blank_getLast_trim name.toList d
      rw [List.getLast?_append_of_ne_nil _ alone] at last
      rw [letters, show 'o' :: 'n' :: c :: rest = ['o', 'n', c] ++ rest from rfl,
        List.getLast?_append_of_ne_nil _ alone]
      exact last

theorem doubled_iff (letters : Text.trim name.toList = 'o' :: 'n' :: c :: rest)
    (upper : Text.isUpper c = true) :
    Doubled name ↔ ∃ d more, Text.lowerChar c ++ rest = 'o' :: 'n' :: d :: more ∧
      Text.isUpper d = true := by
  have lowerO : Text.lowerChar 'O' = ['o'] := by decide
  constructor
  · rintro ⟨d, more, shape, upperToo⟩
    cases letters.symm.trans shape
    exact ⟨d, more, by rw [lowerO]; rfl, upperToo⟩
  · rintro ⟨d, more, shape, upperToo⟩
    have some : Text.lowerChar c ≠ [] :=
      List.ne_nil_of_length_pos (Text.lowered_lowerChar c).length_bounds.1
    have first : (Text.lowerChar c).head? = Option.some 'o' := by
      rw [← List.head?_append_of_ne_nil _ some, shape]
      rfl
    obtain rfl := (Text.lowered_lowerChar c).eq_capital_o upper first
    rw [lowerO] at shape
    cases shape
    exact ⟨d, more, letters, upperToo⟩

/-- A canonical name is its own, unless the name had an `on` twice. -/
theorem canonical_canonical_iff (name : String) :
    canonical (canonical name) = canonical name ↔ ¬Doubled name := by
  by_cases property : ∃ c rest, Text.trim name.toList = 'o' :: 'n' :: c :: rest ∧
      Text.isUpper c = true
  · obtain ⟨c, rest, letters, upper⟩ := property
    have once := canonical_of_property letters upper
    have kept : Text.trim (canonical name).toList = Text.lowerChar c ++ rest := by
      rw [once, String.toList_ofList, trim_lowered letters upper]
    rw [doubled_iff letters upper]
    by_cases again : ∃ d more, Text.lowerChar c ++ rest = 'o' :: 'n' :: d :: more ∧
        Text.isUpper d = true
    · refine iff_of_false (fun same => ?_) (not_not_intro again)
      obtain ⟨d, more, shape, upperToo⟩ := again
      -- The name has lost three characters, and no character has more than two for its lower case.
      rw [canonical_of_property (kept.trans shape) upperToo, once, String.ofList_inj, shape] at same
      have lengths := congrArg List.length same
      have bounds := (Text.lowered_lowerChar d).length_bounds
      simp only [List.length_append, List.length_cons] at lengths
      omega
    · refine iff_of_true ?_ again
      have bare : ∀ d more, Text.trim (canonical name).toList = 'o' :: 'n' :: d :: more →
          ¬Text.isUpper d = true :=
        fun d more shape upperToo => again ⟨d, more, kept.symm.trans shape, upperToo⟩
      rw [canonical_of_bare bare, kept, once]
  · have bare : ∀ c rest, Text.trim name.toList = 'o' :: 'n' :: c :: rest →
        ¬Text.isUpper c = true := fun c rest letters upper => property ⟨c, rest, letters, upper⟩
    have once := canonical_of_bare bare
    have kept : Text.trim (canonical name).toList = Text.trim name.toList := by
      rw [once, String.toList_ofList, Text.trim_trim]
    refine iff_of_true ?_ fun ⟨c, rest, shape, _⟩ => bare 'O' _ shape rfl
    rw [canonical_of_bare (kept ▸ bare), kept, once]

end EventName

/-! ## Handlers -/

theorem Action.withParams_none (a : Action) : a.withParams none = a := by
  obtain ⟨kind, id, params, extra⟩ := a
  cases params <;> rfl

/-- A handler as one of the list form. -/
def EventHandler.listed (h : EventHandler) : ListedHandler where
  event := h.event
  actions := h.actions
  condition := h.condition

/-- A handler that is listed keeps its actions and its condition. -/
theorem EventHandler.handler_listed (h : EventHandler) :
    h.listed.handler = { h with event := EventName.canonical h.event } := by
  have kept : h.listed.allActions = h.actions := by
    obtain ⟨event, actions, condition⟩ := h
    cases actions with
    | nil => rfl
    | cons a actions =>
        exact List.map_id'' Action.withParams_none (a :: actions)
  rw [ListedHandler.handler, kept]
  rfl

theorem EventDefinition.event_handler (event : String) (d : EventDefinition) :
    (d.handler event).event = event := by
  cases d <;> rfl

namespace EventsField

/-- The names that events are declared under, one for each handler. -/
def names : EventsField → List String
  | .handlers list => list.map ListedHandler.event
  | .byName specs => specs.flatMap fun (name, spec) => spec.definitions.map fun _ => name

theorem map_event_normalize (field : EventsField) :
    field.normalize.map EventHandler.event = field.names.map EventName.canonical := by
  cases field with
  | handlers list =>
      simp only [normalize, names, List.map_map]
      rfl
  | byName specs =>
      simp only [normalize, names, List.map_flatMap, List.map_map]
      refine List.flatMap_congr fun entry _ => List.map_congr_left fun d _ => ?_
      exact d.event_handler _

/-- Handlers that events have been brought to, brought to one form again, keep their actions and
their conditions; they stay the same just if no name had an `on` twice. -/
theorem normalize_normalize (field : EventsField) :
    normalize (.handlers (field.normalize.map EventHandler.listed)) =
        field.normalize.map (fun h => { h with event := EventName.canonical h.event }) ∧
      (normalize (.handlers (field.normalize.map EventHandler.listed)) = field.normalize ↔
        ∀ name ∈ field.names, ¬EventName.Doubled name) := by
  have again : normalize (.handlers (field.normalize.map EventHandler.listed)) =
      field.normalize.map (fun h => { h with event := EventName.canonical h.event }) := by
    rw [normalize, List.map_map]
    exact List.map_congr_left fun h _ => h.handler_listed
  have sameName (h : EventHandler) :
      { h with event := EventName.canonical h.event } = h ↔ EventName.canonical h.event = h.event :=
    ⟨fun same => congrArg EventHandler.event same, fun same => by rw [same]⟩
  refine ⟨again, ?_⟩
  calc normalize (.handlers (field.normalize.map EventHandler.listed)) = field.normalize
    _ ↔ ∀ h ∈ field.normalize, EventName.canonical h.event = h.event := by
      rw [again, Eq.congr_right (List.map_id field.normalize).symm, List.map_inj_left]
      exact forall₂_congr fun h _ => sameName h
    _ ↔ ∀ event ∈ field.normalize.map EventHandler.event, EventName.canonical event = event := by
      rw [List.forall_mem_map]
    _ ↔ ∀ name ∈ field.names, ¬EventName.Doubled name := by
      rw [map_event_normalize, List.forall_mem_map]
      exact forall₂_congr fun name _ => EventName.canonical_canonical_iff name

/-- What is declared for `onOnClick` is a handler of `onClick`, and listed one of `click`. -/
theorem normalize_onOnClick :
    let field : EventsField := .byName [("onOnClick", .one (.actionId "go"))]
    field.normalize.map EventHandler.event = ["onClick"] ∧
      (normalize (.handlers (field.normalize.map EventHandler.listed))).map EventHandler.event =
        ["click"] ∧
      normalize (.handlers (field.normalize.map EventHandler.listed)) ≠ field.normalize := by
  intro field
  have once : field.normalize.map EventHandler.event = ["onClick"] := by decide
  have twice : (normalize (.handlers (field.normalize.map EventHandler.listed))).map
      EventHandler.event = ["click"] := by decide
  refine ⟨once, twice, fun same => ?_⟩
  rw [same, once] at twice
  exact absurd twice (by decide)

end EventsField

end UiDoc
