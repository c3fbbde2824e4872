import UiDoc.Event.Normal
import UiDoc.Proofs.Text.Classes
import UiDoc.Proofs.Text.Trim

/-!
# Forms of events

The events of a component can be written as a list of handlers or by name, a definition alone or in
a list, and a name as a host has it or without its `on`.  Whichever of these forms is chosen, the
handlers are the same, in the same order.
-/

namespace UiDoc

/-! ## Names -/

namespace EventName

/-- A name without `on` in front, which starts with a small letter of ASCII. -/
structure Bare (name : String) : Prop where
  small : ∃ c rest, name.toList = c :: rest ∧ 'a' ≤ c ∧ c ≤ 'z'
  trimmed : Text.trim name.toList = name.toList
  canonical : canonical name = name

/-- A small letter of ASCII has one capital letter, of which it is the small one. -/
theorem capital_of_small {c : Char} (low : 'a' ≤ c) (high : c ≤ 'z') :
    ∃ capital, Text.upperChar c = [capital] ∧ Text.isUpper capital = true ∧
      Text.lowerChar capital = [c] ∧ Text.isBlank capital = false := by
  have codes : 97 ≤ c.toNat ∧ c.toNat ≤ 122 := ⟨low, high⟩
  have known : ∀ c ∈ Text.ascii, 'a' ≤ c ∧ c ≤ 'z' →
      Text.upperChar c = [Char.ofNat (c.toNat - 32)] ∧
        Text.isUpper (Char.ofNat (c.toNat - 32)) = true ∧
        Text.lowerChar (Char.ofNat (c.toNat - 32)) = [c] ∧
        Text.isBlank (Char.ofNat (c.toNat - 32)) = false := Text.forall_of_all (by decide +kernel)
  exact ⟨_, known c (Text.mem_ascii (by omega)) ⟨low, high⟩⟩

/-- The name that a host has for an event leads back to the event. -/
theorem canonical_host {name : String} (bare : Bare name) : canonical (host name) = name := by
  obtain ⟨c, rest, letters, low, high⟩ := bare.small
  obtain ⟨capital, upper, isUpper, lower, filled⟩ := capital_of_small low high
  have written : (host name).toList = 'o' :: 'n' :: capital :: rest := by
    rw [host, letters]
    simp [upper]
  have last : ∀ d ∈ ('o' :: 'n' :: capital :: rest).getLast?, Text.isBlank d = false := by
    intro d final
    rw [List.getLast?_cons_cons, List.getLast?_cons_cons] at final
    cases rest with
    | nil => exact Option.some.inj final ▸ filled
    | cons e more =>
        rw [List.getLast?_cons_cons] at final
        apply Text.not_blank_getLast_trim name.toList d
        rwa [bare.trimmed, letters, List.getLast?_cons_cons]
  have kept : Text.trim (host name).toList = 'o' :: 'n' :: capital :: rest := by
    rw [written]
    refine Text.trim_of_ends (fun d first => ?_) last
    exact Option.some.inj first ▸ rfl
  rw [canonical, kept]
  simp only
  rw [if_pos isUpper, lower, List.singleton_append, ← letters, String.ofList_toList]

end EventName

/-! ## Definitions -/

namespace EventDefinition

/-- A definition for an event, written as a handler of the list form. -/
def listed (event : String) : EventDefinition → ListedHandler
  | .actionId id => { event, action := some id }
  | .single d => { event, action := some d.action, payload := d.payload, condition := d.condition }
  | .multi d => { event, actions := d.actions, payload := d.payload, condition := d.condition }

/-- The list form keeps the handler of a definition, also if there are no actions. -/
theorem handler_listed (event : String) (d : EventDefinition) :
    (d.listed event).handler = d.handler (EventName.canonical event) := by
  cases d with
  | actionId id => rfl
  | single d => rfl
  | multi d =>
      obtain ⟨actions, payload, condition⟩ := d
      cases actions <;> rfl

end EventDefinition

namespace EventsField

/-- All definitions that are given by name, written as a list of handlers. -/
def listed (specs : Record EventSpec) : List ListedHandler :=
  specs.flatMap fun (event, spec) => spec.definitions.map (EventDefinition.listed event)

/-- An entry is written in another way: its name as a host has it, or its only definition in a
list. -/
structure Respelled (entry other : String × EventSpec) : Prop where
  name : other.1 = entry.1 ∨ EventName.Bare entry.1 ∧ other.1 = EventName.host entry.1
  spec : other.2 = entry.2 ∨ ∃ d, entry.2 = .one d ∧ other.2 = .many [d]

namespace Respelled

variable {entry other : String × EventSpec}

theorem canonical_eq (respelled : Respelled entry other) :
    EventName.canonical other.1 = EventName.canonical entry.1 := by
  rcases respelled.name with same | ⟨bare, hosted⟩
  · rw [same]
  · rw [hosted, EventName.canonical_host bare, bare.canonical]

theorem definitions_eq (respelled : Respelled entry other) :
    other.2.definitions = entry.2.definitions := by
  rcases respelled.spec with same | ⟨d, alone, wrapped⟩
  · rw [same]
  · rw [alone, wrapped]
    rfl

end Respelled

theorem normalize_listed (specs : Record EventSpec) :
    normalize (.handlers (listed specs)) = normalize (.byName specs) := by
  simp only [normalize, listed, List.map_flatMap, List.map_map]
  have entries : ∀ entry : String × EventSpec,
      entry.2.definitions.map (ListedHandler.handler ∘ EventDefinition.listed entry.1) =
        entry.2.definitions.map (EventDefinition.handler (EventName.canonical entry.1)) := by
    intro entry
    exact List.map_congr_left fun d _ => d.handler_listed entry.1
  exact List.flatMap_congr fun entry _ => entries entry

theorem normalize_respelled {specs others : Record EventSpec}
    (respelled : List.Forall₂ Respelled specs others) :
    normalize (.byName others) = normalize (.byName specs) := by
  simp only [normalize]
  induction respelled with
  | nil => rfl
  | cons entry rest ih =>
      rw [List.flatMap_cons, List.flatMap_cons, ih, entry.canonical_eq, entry.definitions_eq]

/-- The handlers of events that are given by name are those of the list form, and stay the same if
some of the names and definitions are written in another way. -/
theorem normalize_forms (specs : Record EventSpec) :
    normalize (.handlers (listed specs)) = normalize (.byName specs) ∧
      ∀ others, List.Forall₂ Respelled specs others →
        normalize (.byName others) = normalize (.byName specs) := by
  constructor
  · exact normalize_listed specs
  · intro others respelled
    exact normalize_respelled respelled

/-- All kinds of definitions; a definition without actions, a name with `on` of its own, and one
that is no longer than a letter. -/
theorem normalize_forms_mixed :
    let params : Record Json := [("to", .str "api")]
    let send : SingleAction := { action := "send", payload := some params, condition := some "ok" }
    let idle : MultiAction := { actions := [], payload := some params }
    let both : MultiAction := {
      actions := [{ kind := "navigate" }, { kind := "log", params := some [] }]
      payload := some params }
    let specs : Record EventSpec := [("x", .one (.actionId "go")),
      ("onSubmit", .one (.single send)), ("online", .many [.multi idle, .multi both])]
    let others : Record EventSpec := [("onX", .many [.actionId "go"]),
      ("onSubmit", .many [.single send]), ("onOnline", .many [.multi idle, .multi both])]
    List.Forall₂ Respelled specs others ∧
      (normalize (.byName specs)).map EventHandler.event = ["x", "submit", "online", "online"] ∧
      normalize (.handlers (listed specs)) = normalize (.byName specs) ∧
      normalize (.byName others) = normalize (.byName specs) := by
  intro params send idle both specs others
  have x : EventName.Bare "x" := ⟨⟨'x', [], rfl, by decide, by decide⟩, by decide, by decide⟩
  have online : EventName.Bare "online" :=
    ⟨⟨'o', "nline".toList, rfl, by decide, by decide⟩, by decide, by decide⟩
  have respelled : List.Forall₂ Respelled specs others := by
    apply List.Forall₂.cons ⟨.inr ⟨x, by decide⟩, .inr ⟨_, rfl, rfl⟩⟩
    apply List.Forall₂.cons ⟨.inl rfl, .inr ⟨_, rfl, rfl⟩⟩
    exact List.Forall₂.cons ⟨.inr ⟨online, by decide⟩, .inl rfl⟩ .nil
  obtain ⟨ofList, ofOthers⟩ := normalize_forms specs
  exact ⟨respelled, by decide, ofList, ofOthers others respelled⟩

end EventsField

end UiDoc
