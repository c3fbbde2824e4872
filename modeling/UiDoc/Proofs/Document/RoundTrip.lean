import UiDoc.Proofs.Document.Parts

/-!
# Encoded components

Whatever a component is decoded from, its encoding is decoded to the component again.  The decoder
needs to go down no further than the encoding is high.
-/

namespace UiDoc

open Json
open Json.Decoder (nullable string list record object value orElse Field Layout orElse_eq_ok
  orElse_of_ok orElse_of_refused exists_of_buffered exists_of_list decode_object_of_nullable)

/-! ## Heights -/

namespace Json.Draft

theorem height_le_itemsHeight {v : Json} {vs : List Json} (member : v ∈ vs) :
    (ofJson v).height ≤ itemsHeight (ofItems vs) := by
  induction vs with
  | nil => cases member
  | cons first rest ih =>
      simp only [ofItems, itemsHeight]
      rcases List.mem_cons.1 member with rfl | later
      · exact Nat.le_max_left _ _
      · exact Nat.le_trans (ih later) (Nat.le_max_right _ _)

theorem height_le_fieldsHeight {field : String × Json} {fields : List (String × Json)}
    (member : field ∈ fields) : (ofJson field.2).height ≤ fieldsHeight (ofFields fields) := by
  induction fields with
  | nil => cases member
  | cons first rest ih =>
      simp only [ofFields, fieldsHeight]
      rcases List.mem_cons.1 member with rfl | later
      · exact Nat.le_max_left _ _
      · exact Nat.le_trans (ih later) (Nat.le_max_right _ _)

/-- An array is higher than its items. -/
theorem height_lt_arr {v : Json} {vs : List Json} (member : v ∈ vs) :
    (ofJson v).height < (ofJson (.arr vs)).height := by
  simp only [ofJson, height]
  exact Nat.lt_succ_of_le (height_le_itemsHeight member)

/-- An object is higher than the values of its fields. -/
theorem height_lt_obj {field : String × Json} {fields : List (String × Json)}
    (member : field ∈ fields) : (ofJson field.2).height < (ofJson (.obj fields)).height := by
  simp only [ofJson, height]
  exact Nat.lt_succ_of_le (height_le_fieldsHeight member)

end Json.Draft

/-! ## What can be left out -/

theorem conditionalFields_eq (o : Option Conditional) :
    conditionalFields o = field? "conditional" Conditional.toJson o := by
  cases o <;> simp [conditionalFields, field?]

theorem childrenFields_eq (o : Option Content) :
    childrenFields o = field? "children" Content.toJson o := by
  cases o <;> simp [childrenFields, field?]

theorem componentsToJson_eq (nodes : List Component) :
    componentsToJson nodes = nodes.map Component.toJson := by
  induction nodes with
  | nil => simp [componentsToJson]
  | cons node nodes ih => simp [componentsToJson, ih]

theorem Component.exists_toJson (c : Component) : ∃ fields, c.toJson = .obj fields := by
  cases c
  exact ⟨_, by rw [Component.toJson]⟩

theorem Conditional.toJson_ne_null (c : Conditional) : c.toJson ≠ .null := by
  cases c
  simp [Conditional.toJson]

theorem Content.toJson_ne_null (content : Content) : content.toJson ≠ .null := by
  cases content with
  | text text => simp [Content.toJson]
  | nodes nodes => simp [Content.toJson]
  | node node =>
      obtain ⟨fields, form⟩ := node.exists_toJson
      simp [Content.toJson, form]

/-! ## Components inside of components -/

/-- The encoding is decoded to the component, however far down the decoder can go beyond it. -/
def Component.Recovered (c : Component) : Prop :=
  ∀ height, (Draft.ofJson c.toJson).height < height →
    decode (Component.decoderBelow height) c.toJson = .ok c

/-- The encoding is decoded to the content. -/
def Content.Recovered (content : Content) : Prop :=
  ∀ height, (Draft.ofJson content.toJson).height < height →
    decode (Content.decoderOf (Component.decoderBelow height)) content.toJson = .ok content

/-- The encoding is decoded to the conditional. -/
def Conditional.Recovered (c : Conditional) : Prop :=
  ∀ height, (Draft.ofJson c.toJson).height < height →
    decode (Conditional.layoutOf (Component.decoderBelow height)).decoder c.toJson = .ok c

/-- Whatever is decoded is decoded from its encoding again. -/
def Component.Faithful (component : Decoder Component) : Prop :=
  ∀ mode d c, component mode d = .ok c → c.Recovered

namespace Content

theorem decode_obj (component : Decoder Component) (fields : Record Json) :
    decode (decoderOf component) (.obj fields) = (decode component (.obj fields)).map node :=
  rfl

theorem decode_arr (component : Decoder Component) (items : List Json) :
    decode (decoderOf component) (.arr items) =
      orElse ((decode (list component) (.arr items)).map nodes)
        ((decode component (.arr items)).map node) :=
  rfl

theorem recovered_nodes {list : List Component} (recovered : ∀ c ∈ list, c.Recovered) :
    (nodes list).Recovered := by
  intro height high
  simp only [toJson, componentsToJson_eq] at high ⊢
  have items : decode (Json.Decoder.list (Component.decoderBelow height))
      (.arr (list.map Component.toJson)) = .ok list := by
    refine Json.Decoder.decode_list fun c member => recovered c member height ?_
    exact Nat.lt_trans (Draft.height_lt_arr (List.mem_map_of_mem member)) high
  exact (decode_arr _ _).trans (orElse_of_ok (map_eq_ok.2 ⟨list, items, rfl⟩))

theorem recovered_node {c : Component} (recovered : c.Recovered) : (node c).Recovered := by
  intro height high
  simp only [toJson] at high ⊢
  have whole := recovered height high
  obtain ⟨fields, form⟩ := c.exists_toJson
  rw [form] at whole ⊢
  exact (decode_obj _ _).trans (map_eq_ok.2 ⟨c, whole, rfl⟩)

theorem recovered_of_decoder {component : Decoder Component}
    (faithful : Component.Faithful component) {mode : Mode} {d : Draft} {content : Content}
    (decoded : decoderOf component mode d = .ok content) : content.Recovered := by
  obtain ⟨draft, read⟩ := exists_of_buffered decoded
  rcases orElse_eq_ok read with plain | inner
  · rcases map_eq_ok.1 plain with ⟨s, -, rfl⟩
    intro height _
    simp only [toJson]
    rfl
  · rcases orElse_eq_ok inner with many | one
    · rcases map_eq_ok.1 many with ⟨list, reads, rfl⟩
      apply recovered_nodes
      intro c member
      obtain ⟨inside, item, one⟩ := exists_of_list reads member
      exact faithful inside item c one
    · rcases map_eq_ok.1 one with ⟨c, reads, rfl⟩
      exact recovered_node (faithful .whole draft c reads)

theorem recovered_of_nullable {component : Decoder Component}
    (faithful : Component.Faithful component) {mode : Mode} {d : Draft} {o : Option Content}
    (decoded : nullable (decoderOf component) mode d = .ok o) :
    ∀ content, o = some content → content.Recovered := by
  rintro content rfl
  exact recovered_of_decoder faithful (Json.Decoder.of_nullable decoded)

end Content

/-- The content of a branch, if it has any, is decoded from its encoding. -/
def Branch.Recovered (b : Branch) : Prop :=
  ∀ content, b = .content content → content.Recovered

theorem Branch.recovered_ofOption {o : Option Content}
    (recovered : ∀ content, o = some content → content.Recovered) :
    (Branch.ofOption o).Recovered := by
  intro content same
  cases o with
  | none => cases same
  | some inner =>
      cases same
      exact recovered content rfl

/-- A branch is left out, written as `null` or written as its content, and read as what it is. -/
theorem reads_branch {α : Type} {layout : Layout α}
    {needed past : List String} {x y z : α} {name : String} {fields : List (String × Json)}
    {component : Decoder Component} {set : Option Content → α → α} {b : Branch}
    (found : layout.fields.find? (·.hasName name) =
      some (.optional name (nullable (Content.decoderOf component)) set))
    (fresh : name ∉ past) (absent : b = .absent → x = z)
    (present : ∀ o, b = .ofOption o → set o x = z)
    (recovered : ∀ content, b = .content content →
      decode (Content.decoderOf component) content.toJson = .ok content)
    (rest : layout.Reads needed (name :: past) z fields y) :
    layout.Reads needed past x (branchFields name b ++ fields) y := by
  cases b with
  | absent =>
      simp only [branchFields, List.nil_append]
      exact absent rfl ▸ rest.skip
  | nothing =>
      simp only [branchFields, List.cons_append, List.nil_append]
      exact .optional found fresh (b := none) rfl (present none rfl ▸ rest)
  | content content =>
      simp only [branchFields, List.cons_append, List.nil_append]
      have inner := Json.Decoder.decode_nullable content.toJson_ne_null (recovered content rfl)
      exact .optional found fresh inner (present (some content) rfl ▸ rest)

namespace Conditional

/-- What decoding makes sure of. -/
structure WellFormed (c : Conditional) : Prop where
  yes : c.yes.Recovered
  no : c.no.Recovered

theorem wellFormed_of_decoder {component : Decoder Component}
    (faithful : Component.Faithful component) {mode : Mode} {d : Draft} {c : Conditional}
    (decoded : (layoutOf component).decoder mode d = .ok c) : c.WellFormed := by
  refine Layout.holds_of_decoder ?_ ?_ (.of_none rfl) decoded
  · exact ⟨fun _ => nofun, fun _ => nofun⟩
  · simp only [layoutOf, List.forall_mem_cons]
    refine ⟨?_, ?_, ?_, by simp⟩
    · exact Field.keeps_optional fun _ _ _ _ c formed => ⟨formed.yes, formed.no⟩
    · exact Field.keeps_optional fun _ _ _ read c formed =>
        ⟨Branch.recovered_ofOption (Content.recovered_of_nullable faithful read), formed.no⟩
    · exact Field.keeps_optional fun _ _ _ read c formed =>
        ⟨formed.yes, Branch.recovered_ofOption (Content.recovered_of_nullable faithful read)⟩

theorem recovered {c : Conditional} (formed : c.WellFormed) : c.Recovered := by
  obtain ⟨condition, yes, no⟩ := c
  intro height high
  simp only [toJson] at high ⊢
  have below (name : String) {content : Content}
      (written : (name, content.toJson) ∈
        ("if", .str condition) :: (branchFields "then" yes ++ branchFields "else" no)) :
      (Draft.ofJson content.toJson).height < height :=
    Nat.lt_trans (Draft.height_lt_obj written) high
  refine Layout.decode_obj ?_
  refine .optional rfl (by simp) (b := condition) rfl ?_
  refine reads_branch (z := ⟨condition, yes, .absent⟩) rfl (by simp) ?_ ?_ ?_ ?_
  · rintro rfl
    rfl
  · rintro o rfl
    rfl
  · rintro content rfl
    exact formed.yes content rfl height (below "then" (by simp [branchFields]))
  refine .last (reads_branch (z := ⟨condition, yes, no⟩) rfl (by simp) ?_ ?_ ?_ ?_)
  · rintro rfl
    rfl
  · rintro o rfl
    rfl
  · rintro content rfl
    exact formed.no content rfl height (below "else" (by simp [branchFields]))
  exact .nil (by simp [layoutOf, Field.optional])

end Conditional

/-! ## Components -/

namespace Component

/-- What decoding makes sure of. -/
structure WellFormed (c : Component) : Prop where
  props : decode object (.obj c.props) = .ok c.props
  style : ∀ r, c.style = some r → decode object (.obj r) = .ok r
  bindings : decode (record Binding.decoder)
    (.obj (c.bindings.map fun field => (field.1, field.2.toJson))) = .ok c.bindings
  events : ∀ e, c.events = some e → decode EventsField.decoder e.toJson = .ok e
  conditional : ∀ x, c.conditional = some x → x.Recovered
  children : ∀ x, c.children = some x → x.Recovered

theorem wellFormed_of_decoder {component : Decoder Component} (faithful : Faithful component)
    {mode : Mode} {d : Draft} {c : Component}
    (decoded : (layoutOf component).decoder mode d = .ok c) : c.WellFormed := by
  refine Layout.holds_of_decoder ?_ ?_ (.of_none rfl) decoded
  · exact ⟨rfl, by simp [layoutOf], rfl, by simp [layoutOf], by simp [layoutOf],
      by simp [layoutOf]⟩
  · simp only [layoutOf, List.forall_mem_cons]
    refine ⟨?_, ?_, ?_, ?_, ?_, ?_, ?_, ?_, ?_, ?_, ?_, by simp⟩
    case refine_3 =>
      exact Field.keeps_optional fun mode d props read c formed =>
        { formed with props := Json.Decoder.object_recovers mode d props read }
    case refine_5 =>
      exact Field.keeps_optional fun mode d style read c formed =>
        { formed with style := decode_object_of_nullable read }
    case refine_6 =>
      exact Field.keeps_optional fun mode d bindings read c formed =>
        { formed with bindings := Binding.decoder_recovers.record mode d bindings read }
    case refine_8 =>
      refine Field.keeps_optional fun mode d events read c formed => { formed with events := ?_ }
      rintro e rfl
      exact EventsField.decoder_recovers mode d e (Json.Decoder.of_nullable read)
    case refine_9 =>
      refine Field.keeps_optional fun mode d conditional read c formed =>
        { formed with conditional := ?_ }
      rintro x rfl
      exact Conditional.recovered
        (Conditional.wellFormed_of_decoder faithful (Json.Decoder.of_nullable read))
    case refine_11 =>
      exact Field.keeps_optional fun mode d children read c formed =>
        { formed with children := Content.recovered_of_nullable faithful read }
    all_goals exact Field.keeps_optional fun _ _ _ _ c formed => { formed with }

theorem recovered {c : Component} (formed : c.WellFormed) : c.Recovered := by
  obtain ⟨id, kind, props, className, style, bindings, dataBinding, events, conditional, loop,
    children⟩ := c
  intro height high
  obtain ⟨height, rfl⟩ : ∃ n, height = n + 1 :=
    Nat.exists_eq_succ_of_ne_zero (Nat.ne_zero_of_lt high)
  simp only [toJson, conditionalFields_eq, childrenFields_eq] at high ⊢
  have below (name : String) {v : Json} {fields : List (String × Json)}
      (high : (Draft.ofJson (.obj fields)).height < height + 1) (written : (name, v) ∈ fields) :
      (Draft.ofJson v).height < height :=
    Nat.lt_of_lt_of_le (Draft.height_lt_obj written) (Nat.le_of_lt_succ high)
  change Json.decode (layoutOf (decoderBelow height)).decoder (.obj _) = .ok _
  refine Layout.decode_obj ?_
  refine .text rfl (by simp) rfl ?_
  refine .text rfl (by simp) rfl ?_
  refine .record rfl (by simp) rfl (by simpa [object] using formed.props) ?_
  refine .nullable rfl (by simp) rfl (by simp) (fun _ _ => rfl) ?_
  refine .nullable rfl (by simp) rfl (by simp) formed.style ?_
  refine .record rfl (by simp) rfl formed.bindings ?_
  refine .nullable rfl (by simp) rfl Binding.toJson_ne_null (fun b _ => b.decode_toJson) ?_
  refine .nullable rfl (by simp) rfl EventsField.toJson_ne_null formed.events ?_
  refine .nullable rfl (by simp) rfl Conditional.toJson_ne_null ?_ ?_
  · rintro x rfl
    exact formed.conditional x rfl height (below "conditional" high (by simp [field?]))
  refine .nullable rfl (by simp) rfl Loop.toJson_ne_null (fun l _ => l.decode_toJson) ?_
  refine .last (.nullable rfl (by simp) rfl Content.toJson_ne_null ?_ ?_)
  · rintro x rfl
    exact formed.children x rfl height (below "children" high (by simp [field?]))
  exact .nil (by simp [layoutOf, Field.optional])

theorem decoderBelow_faithful (height : Nat) : Faithful (decoderBelow height) := by
  induction height with
  | zero => exact fun _ _ _ decoded => nomatch decoded
  | succ height ih => exact fun _ _ _ decoded => recovered (wellFormed_of_decoder ih decoded)

/-- Decoding undoes encoding: a component that was decoded from any text or value is decoded again
from its encoding. -/
theorem ofJson_toJson {mode : Mode} {d : Draft} {c : Component}
    (decoded : decoder mode d = .ok c) : ofJson c.toJson = .ok c := by
  simp only [decoder] at decoded
  have recovered := decoderBelow_faithful (d.height + 1) mode d c decoded
  have whole := recovered ((Draft.ofJson c.toJson).height + 1) (Nat.lt_succ_self _)
  unfold ofJson decode decoder
  exact whole

/-- A branch that is declared to show nothing, fields of an action beside its own, the second name
of a condition, and a component that is written as an array. -/
theorem ofJson_toJson_nested :
    let events : Json := .obj [("onClick", .obj [("actions", .arr [.obj [("target", .null)]])])]
    let loop : Json := .obj [("source", .str "items"), ("conditional", .bool true)]
    let v : Json := .obj [("conditional", .obj [("else", .null), ("then", .str "yes")]),
      ("events", events), ("loop", loop), ("children", .arr [.str "a", .str "div"])]
    let action : Action := { kind := "custom", extra := [("target", .null)] }
    let c : Component :=
      { conditional := some { condition := "", yes := .content (.text "yes"), no := .nothing }
        events := some (.byName [("onClick", .one (.multi { actions := [action] }))])
        loop := some { source := .path "items", itemVar := "item", condition := some "true" }
        children := some (.node { id := "a", kind := "div" }) }
    ofJson v = .ok c ∧ ofJson c.toJson = .ok c := by
  intro events loop v action c
  have decoded : decoder .whole (Draft.ofJson v) = .ok c := rfl
  exact ⟨decoded, ofJson_toJson decoded⟩

end Component

end UiDoc
