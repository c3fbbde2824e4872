import UiDoc.Document.Decoder
import UiDoc.Proofs.Json.Layout

/-!
# Encoded bindings, loops and events

Whatever these parts of a document are decoded from, their encodings are decoded in the same way
again.  A form that is tried before another one refuses the encoding of the other.
-/

namespace UiDoc

open Json
open Json.Decoder (nullable string list record object value orElse Field Layout orElse_eq_ok
  orElse_of_ok orElse_of_refused exists_of_buffered exists_of_list decode_object_of_nullable)

theorem SourceType.decoder_recovers : SourceType.decoder.Recovers fun t => .str t.name := by
  intro mode d t _
  cases t <;> rfl

/-- A condition that is not empty is written as a text. -/
theorem Json.Decoder.Layout.Reads.condition {α : Type} {layout : Layout α}
    {needed past : List String} {x y : α} {name : String} {fields : List (String × Json)}
    {set : Option String → α → α} {o : Option String}
    (found : layout.fields.find? (·.hasName name) =
      some (.optional name optionalConditionDecoder set))
    (fresh : name ∉ past) (unset : set none x = x)
    (rest : layout.Reads needed (name :: past) (set o x) fields y) :
    layout.Reads needed past x (field? name .str o ++ fields) y :=
  .option found rfl fresh (fun none => by rw [none, unset])
    (fun s some => ⟨set (.some s), rfl, by rw [some]⟩) rest

/-! ## Bindings and loops -/

namespace Binding

theorem decode_parts (b : StructuredBinding) : decode partsLayout.decoder b.toJson = .ok b := by
  obtain ⟨source, sourceType, path, transform⟩ := b
  refine Layout.decode_obj ?_
  refine .nullable rfl (by simp) rfl (by simp) (fun _ _ => rfl) ?_
  refine .nullable rfl (by simp) rfl (by simp)
    (fun t _ => SourceType.decoder_recovers .whole (.str t.name) t (by cases t <;> rfl)) ?_
  refine .nullable rfl (by simp) rfl (by simp) (fun _ _ => rfl) ?_
  refine .last (.nullable rfl (by simp) rfl (by simp) (fun _ _ => rfl) ?_)
  exact .nil (by simp [partsLayout, Field.optional])

/-- Every binding is decoded from its encoding. -/
theorem decode_toJson (b : Binding) : decode decoder b.toJson = .ok b := by
  cases b with
  | path text => rfl
  | structured parts =>
      have form : decode decoder parts.toJson =
          (decode partsLayout.decoder parts.toJson).map Binding.structured := rfl
      rw [Binding.toJson, form, decode_parts]
      rfl

theorem decoder_recovers : decoder.Recovers toJson :=
  fun _ _ b _ => b.decode_toJson

theorem toJson_ne_null (b : Binding) : b.toJson ≠ .null := by
  cases b <;> simp [Binding.toJson, StructuredBinding.toJson]

end Binding

namespace Loop

/-- Every loop is decoded from its encoding. -/
theorem decode_toJson (l : Loop) : decode decoder l.toJson = .ok l := by
  obtain ⟨source, itemVar, indexVar, key, condition⟩ := l
  refine Layout.decode_obj ?_
  refine .optional rfl (by simp) source.decode_toJson ?_
  refine .optional rfl (by simp) rfl ?_
  refine .nullable rfl (by simp) rfl (by simp) (fun _ _ => rfl) ?_
  refine .nullable rfl (by simp) rfl (by simp) (fun _ _ => rfl) ?_
  refine .last (.option (z := ⟨source, itemVar, indexVar, key, condition⟩) rfl rfl (by simp)
    ?_ ?_ ?_)
  · rintro rfl
    rfl
  · rintro s rfl
    exact ⟨_, rfl, rfl⟩
  · exact .nil (by simp [layout, Field.optional])

theorem toJson_ne_null (l : Loop) : l.toJson ≠ .null := by
  simp [Loop.toJson]

end Loop

/-! ## Actions -/

namespace Action

/-- What decoding makes sure of: values can be decoded again, and no further field has the name of
one of the fields of an action. -/
structure WellFormed (a : Action) : Prop where
  params : ∀ r, a.params = some r → decode object (.obj r) = .ok r
  extra : ∀ field ∈ a.extra, decode value field.2 = .ok field.2
  unknown : ∀ field ∈ a.extra, layout.fields.find? (·.hasName field.1) = none
  distinct : a.extra.names.Nodup

/-- A further field is kept at its place, or at the end. -/
theorem WellFormed.insert {a : Action} {name : String} {v : Json} (formed : a.WellFormed)
    (unknown : layout.fields.find? (·.hasName name) = none) (recovered : decode value v = .ok v) :
    WellFormed { a with extra := a.extra.insert name v } where
  params := formed.params
  extra field member := by
    rcases Record.eq_or_mem_of_mem_insert member with rfl | old
    · exact recovered
    · exact formed.extra field old
  unknown field member := by
    rcases Record.eq_or_mem_of_mem_insert member with rfl | old
    · exact unknown
    · exact formed.unknown field old
  distinct := Record.nodup_names_insert v formed.distinct

theorem wellFormed_of_decoder {mode : Mode} {d : Draft} {a : Action}
    (decoded : decoder mode d = .ok a) : a.WellFormed := by
  refine Layout.holds_of_decoder ?_ ?_ ?_ decoded
  · exact ⟨by simp [layout], by simp [layout], by simp [layout], .nil⟩
  · simp only [layout, List.forall_mem_cons]
    refine ⟨?_, ?_, ?_, by simp⟩
    · exact Field.keeps_optional fun _ _ _ _ a formed =>
        ⟨formed.params, formed.extra, formed.unknown, formed.distinct⟩
    · exact Field.keeps_optional fun _ _ _ _ a formed =>
        ⟨formed.params, formed.extra, formed.unknown, formed.distinct⟩
    · refine Field.keeps_optional fun mode d params read a formed =>
        ⟨?_, formed.extra, formed.unknown, formed.distinct⟩
      rintro r rfl
      exact Json.Decoder.object_recovers mode d r (Json.Decoder.of_nullable read)
  · intro take takes name unknown mode d set read a formed
    cases takes
    rcases map_eq_ok.1 read with ⟨v, reads, rfl⟩
    exact formed.insert unknown (Json.Decoder.value_recovers mode d v reads)

/-- Further fields are taken in one after another. -/
theorem reads_extra {needed past : List String} {a : Action} {more : List (String × Json)}
    (complete : ∀ field ∈ layout.fields, field.required = true → field.name ∈ needed)
    (formed : WellFormed { a with extra := a.extra ++ more }) :
    layout.Reads needed past a more { a with extra := a.extra ++ more } := by
  induction more generalizing a with
  | nil => simpa using Layout.Reads.nil complete
  | cons field more ih =>
      have one : a.extra ++ field :: more = (a.extra ++ [field]) ++ more := by simp
      have fresh : field.1 ∉ a.extra.names := by
        have distinct := formed.distinct
        simp only [Record.names, List.map_append, List.map_cons, List.nodup_append] at distinct
        exact fun member => distinct.2.2 field.1 member field.1 (List.mem_cons_self ..) rfl
      have recovered := formed.extra field (by simp)
      have unknown := formed.unknown field (by simp)
      rw [one] at formed ⊢
      refine .other rfl unknown (map_eq_ok.2 ⟨field.2, recovered, rfl⟩) ?_
      simp only [Record.insert_of_not_mem field.2 fresh]
      exact ih (a := { a with extra := a.extra ++ [field] }) formed

theorem decode_toJson {a : Action} (formed : a.WellFormed) :
    decode decoder a.toJson = .ok a := by
  obtain ⟨kind, id, params, extra⟩ := a
  refine Layout.decode_obj ?_
  refine .optional rfl (by simp) rfl ?_
  refine .nullable rfl (by simp) rfl (by simp) (fun _ _ => rfl) ?_
  refine .nullable rfl (by simp) rfl (by simp) formed.params ?_
  exact reads_extra (a := ⟨kind, id, params, []⟩)
    (by simp [layout, Field.optional]) formed

theorem decoder_recovers : decoder.Recovers toJson :=
  fun _ _ _ decoded => decode_toJson (wellFormed_of_decoder decoded)

end Action

/-! ## Events -/

/-- Actions that are decoded as a list are well-formed. -/
theorem Action.wellFormed_of_list {mode : Mode} {d : Draft} {actions : List Action}
    (decoded : list decoder mode d = .ok actions) : ∀ a ∈ actions, a.WellFormed := by
  intro a member
  obtain ⟨inner, item, reads⟩ := exists_of_list decoded member
  exact wellFormed_of_decoder reads

theorem Action.decode_listToJson {actions : List Action} (formed : ∀ a ∈ actions, a.WellFormed) :
    decode (list decoder) (listToJson actions) = .ok actions :=
  Json.Decoder.decode_list fun a member => decode_toJson (formed a member)

/-- What decoding makes sure of. -/
structure MultiAction.WellFormed (m : MultiAction) : Prop where
  actions : ∀ a ∈ m.actions, a.WellFormed
  payload : ∀ r, m.payload = some r → decode object (.obj r) = .ok r

/-- What decoding makes sure of. -/
structure ListedHandler.WellFormed (h : ListedHandler) : Prop where
  actions : ∀ a ∈ h.actions, a.WellFormed
  payload : ∀ r, h.payload = some r → decode object (.obj r) = .ok r

namespace EventDefinition

theorem wellFormed_of_multi {mode : Mode} {d : Draft} {m : MultiAction}
    (decoded : multiLayout.decoder mode d = .ok m) : m.WellFormed := by
  refine Layout.holds_of_decoder ?_ ?_ (.of_none rfl) decoded
  · exact ⟨by simp [multiLayout], by simp [multiLayout]⟩
  · simp only [multiLayout, List.forall_mem_cons]
    refine ⟨?_, ?_, ?_, by simp⟩
    · exact Field.keeps_mandatory fun _ _ _ read m formed =>
        ⟨Action.wellFormed_of_list read, formed.payload⟩
    · exact Field.keeps_optional fun _ _ _ read m formed =>
        ⟨formed.actions, decode_object_of_nullable read⟩
    · exact Field.keeps_optional fun _ _ _ _ m formed =>
        ⟨formed.actions, formed.payload⟩

theorem multi_recovers : multiLayout.decoder.Recovers MultiAction.toJson := by
  intro mode d m decoded
  have formed := wellFormed_of_multi decoded
  obtain ⟨actions, payload, condition⟩ := m
  refine Layout.decode_obj ?_
  refine .mandatory rfl (by simp) (Action.decode_listToJson formed.actions) ?_
  refine .nullable rfl (by simp) rfl (by simp) formed.payload ?_
  refine .last (.condition rfl (by simp) rfl ?_)
  exact .nil (by simp [multiLayout, Field.optional, Field.mandatory])

theorem single_payload {mode : Mode} {d : Draft} {s : SingleAction}
    (decoded : singleLayout.decoder mode d = .ok s) :
    ∀ r, s.payload = some r → decode object (.obj r) = .ok r := by
  let holds (s : SingleAction) := ∀ r, s.payload = some r → decode object (.obj r) = .ok r
  change holds s
  refine Layout.holds_of_decoder ?_ ?_ (.of_none rfl) decoded
  · simp [singleLayout, holds]
  · simp only [singleLayout, List.forall_mem_cons]
    refine ⟨?_, ?_, ?_, by simp⟩
    · exact Field.keeps_mandatory fun _ _ _ _ _ payload => payload
    · exact Field.keeps_optional fun _ _ _ read _ _ =>
        decode_object_of_nullable read
    · exact Field.keeps_optional fun _ _ _ _ _ payload => payload

theorem single_recovers : singleLayout.decoder.Recovers SingleAction.toJson := by
  intro mode d s decoded
  have recovered := single_payload decoded
  obtain ⟨action, payload, condition⟩ := s
  refine Layout.decode_obj ?_
  refine .mandatory rfl (by simp) rfl ?_
  refine .nullable rfl (by simp) rfl (by simp) recovered ?_
  refine .last (.condition rfl (by simp) rfl ?_)
  exact .nil (by simp [singleLayout, Field.optional, Field.mandatory])

/-- One action is not taken for several. -/
theorem multi_refuses_single (s : SingleAction) (m : MultiAction) :
    decode multiLayout.decoder s.toJson ≠ .ok m := by
  refine Layout.decode_ne_ok_of_missing (List.mem_cons_self ..) rfl ?_ m
  intro written member other found
  have name : written.1 = "action" ∨ written.1 = "payload" ∨ written.1 = "condition" := by
    simp only [List.mem_cons, List.mem_append] at member
    rcases member with rfl | payload | condition
    · exact .inl rfl
    · exact .inr (.inl (name_of_mem_field? payload))
    · exact .inr (.inr (name_of_mem_field? condition))
  rcases name with same | same | same <;> rw [same] at found <;> cases found <;> decide

/-- Forms are tried in this order. -/
theorem decode_obj (fields : Record Json) :
    decode decoder (.obj fields) =
      orElse ((decode multiLayout.decoder (.obj fields)).map multi)
        ((decode singleLayout.decoder (.obj fields)).map single) :=
  rfl

theorem decoder_recovers : decoder.Recovers toJson := by
  intro mode d definition decoded
  obtain ⟨draft, read⟩ := exists_of_buffered decoded
  rcases orElse_eq_ok read with text | record
  · rcases map_eq_ok.1 text with ⟨s, -, rfl⟩
    rfl
  · rcases orElse_eq_ok record with several | one
    · rcases map_eq_ok.1 several with ⟨m, reads, rfl⟩
      have recovered := multi_recovers .whole draft m reads
      exact (decode_obj _).trans (orElse_of_ok (map_eq_ok.2 ⟨m, recovered, rfl⟩))
    · rcases map_eq_ok.1 one with ⟨s, reads, rfl⟩
      have recovered := single_recovers .whole draft s reads
      refine (decode_obj _).trans ((orElse_of_refused fun definition several => ?_).trans
        (map_eq_ok.2 ⟨s, recovered, rfl⟩))
      obtain ⟨m, taken, -⟩ := map_eq_ok.1 several
      exact multi_refuses_single s m taken

end EventDefinition

namespace EventSpec

theorem decode_obj (fields : Record Json) :
    decode decoder (.obj fields) = (decode EventDefinition.decoder (.obj fields)).map one :=
  rfl

theorem decode_arr (items : List Json) :
    decode decoder (.arr items) =
      orElse ((decode (list EventDefinition.decoder) (.arr items)).map many)
        ((decode EventDefinition.decoder (.arr items)).map one) :=
  rfl

theorem decoder_recovers : decoder.Recovers toJson := by
  intro mode d spec decoded
  obtain ⟨draft, read⟩ := exists_of_buffered decoded
  rcases orElse_eq_ok read with many | one
  · rcases map_eq_ok.1 many with ⟨definitions, reads, rfl⟩
    have recovered := EventDefinition.decoder_recovers.list .whole draft definitions reads
    exact (decode_arr _).trans (orElse_of_ok (map_eq_ok.2 ⟨definitions, recovered, rfl⟩))
  · rcases map_eq_ok.1 one with ⟨definition, reads, rfl⟩
    have recovered := EventDefinition.decoder_recovers .whole draft definition reads
    cases definition with
    | actionId id => rfl
    | multi m => exact (decode_obj _).trans (map_eq_ok.2 ⟨.multi m, recovered, rfl⟩)
    | single s => exact (decode_obj _).trans (map_eq_ok.2 ⟨.single s, recovered, rfl⟩)

end EventSpec

namespace ListedHandler

theorem wellFormed_of_decoder {mode : Mode} {d : Draft} {h : ListedHandler}
    (decoded : layout.decoder mode d = .ok h) : h.WellFormed := by
  refine Layout.holds_of_decoder ?_ ?_ (.of_none rfl) decoded
  · exact ⟨by simp [layout], by simp [layout]⟩
  · simp only [layout, List.forall_mem_cons]
    refine ⟨?_, ?_, ?_, ?_, ?_, by simp⟩
    · exact Field.keeps_mandatory fun _ _ _ _ h formed =>
        ⟨formed.actions, formed.payload⟩
    · exact Field.keeps_optional fun _ _ _ read h formed =>
        ⟨Action.wellFormed_of_list read, formed.payload⟩
    · exact Field.keeps_optional fun _ _ _ _ h formed =>
        ⟨formed.actions, formed.payload⟩
    · exact Field.keeps_optional fun _ _ _ read h formed =>
        ⟨formed.actions, decode_object_of_nullable read⟩
    · exact Field.keeps_optional fun _ _ _ _ h formed =>
        ⟨formed.actions, formed.payload⟩

theorem layout_recovers : layout.decoder.Recovers toJson := by
  intro mode d h decoded
  have formed := wellFormed_of_decoder decoded
  obtain ⟨event, actions, action, payload, condition⟩ := h
  refine Layout.decode_obj ?_
  refine .mandatory rfl (by simp) rfl ?_
  refine .list rfl (by simp) rfl (Action.decode_listToJson formed.actions) ?_
  refine .nullable rfl (by simp) rfl (by simp) (fun _ _ => rfl) ?_
  refine .nullable rfl (by simp) rfl (by simp) formed.payload ?_
  refine .last (.condition rfl (by simp) rfl ?_)
  exact .nil (by simp [layout, Field.optional, Field.mandatory])

end ListedHandler

namespace EventsField

theorem toJson_ne_null (events : EventsField) : events.toJson ≠ .null := by
  cases events <;> simp [EventsField.toJson]

theorem decode_obj (fields : Record Json) :
    decode decoder (.obj fields) = (decode (record EventSpec.decoder) (.obj fields)).map byName :=
  rfl

theorem decode_arr (items : List Json) :
    decode decoder (.arr items) =
      orElse ((decode (list ListedHandler.layout.decoder) (.arr items)).map handlers)
        ((decode (record EventSpec.decoder) (.arr items)).map byName) :=
  rfl

theorem decoder_recovers : decoder.Recovers toJson := by
  intro mode d events decoded
  obtain ⟨draft, read⟩ := exists_of_buffered decoded
  rcases orElse_eq_ok read with listed | named
  · rcases map_eq_ok.1 listed with ⟨handlers, reads, rfl⟩
    have recovered := ListedHandler.layout_recovers.list .whole draft handlers reads
    exact (decode_arr _).trans (orElse_of_ok (map_eq_ok.2 ⟨handlers, recovered, rfl⟩))
  · rcases map_eq_ok.1 named with ⟨specs, reads, rfl⟩
    have recovered := EventSpec.decoder_recovers.record .whole draft specs reads
    exact (decode_obj _).trans (map_eq_ok.2 ⟨specs, recovered, rfl⟩)

end EventsField

end UiDoc
