import UiDoc.Document.Decoder
import UiDoc.Proofs.Document.Contents
import UiDoc.Proofs.Json.Layout

/-!
# Names in documents

A name that is repeated in the text of a document is read once.  So in whatever a component is
decoded from, no property is declared twice, neither in the component nor inside of it.
-/

namespace UiDoc

open Json
open Json.Decoder (nullable list object record Field Layout orElse_eq_ok exists_of_buffered
  exists_of_list of_nullable)

theorem Json.Decoder.nodup_names_of_record {α : Type} {decoder : Decoder α} {mode : Mode}
    {d : Draft} {r : Record α} (decoded : record decoder mode d = .ok r) : r.names.Nodup := by
  simp only [record] at decoded
  split at decoded
  · simp only [bind_eq_ok, Except.ok.injEq] at decoded
    obtain ⟨inner, -, read, -, -, -, rfl⟩ := decoded
    exact Record.nodup_names_ofFields read
  · cases decoded

namespace Component

/-- No property is declared twice, neither in the component nor inside of it. -/
def Distinct (c : Component) : Prop :=
  ∀ d, c.Contains d → d.props.names.Nodup

variable {c d : Component}

theorem Distinct.own (distinct : c.Distinct) : c.props.names.Nodup :=
  distinct c (.self c)

theorem Distinct.part (distinct : c.Distinct) (part : d ∈ c.parts) : d.Distinct :=
  fun e contains => distinct e (.inside part contains)

theorem Distinct.child (distinct : c.Distinct) (child : d ∈ c.childNodes) : d.Distinct :=
  distinct.part (List.mem_append_right _ child)

theorem distinct_of_parts (own : c.props.names.Nodup) (parts : ∀ part ∈ c.parts, part.Distinct) :
    c.Distinct := by
  intro d contains
  cases contains with
  | self => exact own
  | inside part contains => exact parts _ part d contains

end Component

/-! ## Decoded components -/

/-- Whatever is decoded declares no property twice. -/
def Component.Separates (component : Decoder Component) : Prop :=
  ∀ mode d c, component mode d = .ok c → c.Distinct

namespace Content

variable {component : Decoder Component} {mode : Mode} {d : Draft}

theorem distinct_of_decoder (separates : Component.Separates component) {content : Content}
    (decoded : decoderOf component mode d = .ok content) :
    ∀ c ∈ content.components, c.Distinct := by
  obtain ⟨draft, read⟩ := exists_of_buffered decoded
  rcases orElse_eq_ok read with plain | inner
  · obtain ⟨s, -, rfl⟩ := map_eq_ok.1 plain
    exact List.forall_mem_nil _
  · rcases orElse_eq_ok inner with many | one
    · obtain ⟨list, reads, rfl⟩ := map_eq_ok.1 many
      intro c member
      obtain ⟨inside, item, one⟩ := exists_of_list reads member
      exact separates inside item c one
    · obtain ⟨c, reads, rfl⟩ := map_eq_ok.1 one
      exact List.forall_mem_singleton.2 (separates .whole draft c reads)

theorem distinct_of_nullable (separates : Component.Separates component) {o : Option Content}
    (decoded : nullable (decoderOf component) mode d = .ok o) :
    ∀ c ∈ (o.map components).getD [], c.Distinct := by
  cases o with
  | none => exact List.forall_mem_nil _
  | some content => exact distinct_of_decoder separates (of_nullable decoded)

end Content

theorem Branch.components_ofOption (o : Option Content) :
    (Branch.ofOption o).components = (o.map Content.components).getD [] := by
  cases o <;> rfl

namespace Conditional

/-- No property is declared twice in a branch. -/
structure Separated (x : Conditional) : Prop where
  yes : ∀ c ∈ x.yes.components, c.Distinct
  no : ∀ c ∈ x.no.components, c.Distinct

theorem separated_of_decoder {component : Decoder Component}
    (separates : Component.Separates component) {mode : Mode} {d : Draft} {x : Conditional}
    (decoded : (layoutOf component).decoder mode d = .ok x) : x.Separated := by
  refine Layout.holds_of_decoder ?_ ?_ (.of_none rfl) decoded
  · exact ⟨List.forall_mem_nil _, List.forall_mem_nil _⟩
  · simp only [layoutOf, List.forall_mem_cons]
    refine ⟨?_, ?_, ?_, by simp⟩
    · exact Field.keeps_optional fun _ _ _ _ x separated => { separated with }
    · refine Field.keeps_optional fun _ _ o read x separated => { separated with yes := ?_ }
      rw [Branch.components_ofOption]
      exact Content.distinct_of_nullable separates read
    · refine Field.keeps_optional fun _ _ o read x separated => { separated with no := ?_ }
      rw [Branch.components_ofOption]
      exact Content.distinct_of_nullable separates read

end Conditional

namespace Component

/-- No property is declared twice, neither in the component nor in what is decoded with it. -/
structure Separated (c : Component) : Prop where
  own : c.props.names.Nodup
  shown : ∀ d ∈ (c.conditional.map Conditional.components).getD [], d.Distinct
  children : ∀ d ∈ c.childNodes, d.Distinct

theorem Separated.distinct {c : Component} (separated : c.Separated) : c.Distinct :=
  distinct_of_parts separated.own (List.forall_mem_append.2 ⟨separated.shown, separated.children⟩)

theorem separated_of_decoder {component : Decoder Component} (separates : Separates component)
    {mode : Mode} {d : Draft} {c : Component}
    (decoded : (layoutOf component).decoder mode d = .ok c) : c.Separated := by
  refine Layout.holds_of_decoder ?_ ?_ (.of_none rfl) decoded
  · exact ⟨List.nodup_nil, List.forall_mem_nil _, List.forall_mem_nil _⟩
  · simp only [layoutOf, List.forall_mem_cons]
    refine ⟨?_, ?_, ?_, ?_, ?_, ?_, ?_, ?_, ?_, ?_, ?_, by simp⟩
    case refine_3 =>
      exact Field.keeps_optional fun _ _ _ read c separated =>
        { separated with own := Json.Decoder.nodup_names_of_record read }
    case refine_9 =>
      refine Field.keeps_optional fun _ _ o read c separated => { separated with shown := ?_ }
      cases o with
      | none => exact List.forall_mem_nil _
      | some x =>
          have branches := Conditional.separated_of_decoder separates (of_nullable read)
          exact List.forall_mem_append.2 ⟨branches.yes, branches.no⟩
    case refine_11 =>
      exact Field.keeps_optional fun _ _ _ read c separated =>
        { separated with children := Content.distinct_of_nullable separates read }
    all_goals exact Field.keeps_optional fun _ _ _ _ c separated => { separated with }

theorem separates_decoderBelow (height : Nat) : Separates (decoderBelow height) := by
  induction height with
  | zero => exact fun _ _ _ decoded => nomatch decoded
  | succ height ih => exact fun _ _ _ decoded => (separated_of_decoder ih decoded).distinct

/-- Whatever a component is decoded from, no property is declared twice. -/
theorem distinct_of_decoder {mode : Mode} {d : Draft} {c : Component}
    (decoded : decoder mode d = .ok c) : c.Distinct :=
  separates_decoderBelow _ mode d c decoded

/-- The same of the component that a text stands for. -/
theorem distinct_of_ofText {text : String} {c : Component} (read : ofText text = .ok c) :
    c.Distinct := by
  simp only [ofText, decodeText] at read
  split at read
  · rename_i decoded
    split at read
    · cases read
      exact distinct_of_decoder decoded
    · cases read
  · cases read

end Component

end UiDoc
