import UiDoc.Path
import UiDoc.Proofs.Record
import UiDoc.Script.Operator

/-!
# Footprints of values

A value fits into an evaluation if it is part of what the evaluation has been given, or if it is
small.  A step into a value that fits and the application of an operator give such a value again.
-/

namespace UiDoc

/-- A value is part of another one: that value itself, or part of an item or a field of it. -/
inductive Json.PartOf (v : Json) : Json → Prop where
  | itself : PartOf v v
  | item {items : List Json} {item : Json} :
      item ∈ items → PartOf v item → PartOf v (.arr items)
  | field {fields : List (String × Json)} {name : String} {value : Json} :
      (name, value) ∈ fields → PartOf v value → PartOf v (.obj fields)

theorem Json.PartOf.trans {u v w : Json} (inner : u.PartOf v) (outer : v.PartOf w) :
    u.PartOf w := by
  induction outer with
  | itself => exact inner
  | item member _ ih => exact .item member ih
  | field member _ ih => exact .field member ih

namespace Script

/-! ## Footprints -/

theorem footprint_le_itemsFootprint {v : Json} {items : List Json} (member : v ∈ items) :
    footprint v ≤ itemsFootprint items := by
  induction items with
  | nil => cases member
  | cons item rest ih =>
      simp only [itemsFootprint]
      rcases List.mem_cons.1 member with rfl | later
      · exact Nat.le_add_right _ _
      · exact Nat.le_trans (ih later) (Nat.le_add_left _ _)

theorem footprint_le_fieldsFootprint {name : String} {v : Json} {fields : List (String × Json)}
    (member : (name, v) ∈ fields) : footprint v ≤ fieldsFootprint fields := by
  induction fields with
  | nil => cases member
  | cons field rest ih =>
      simp only [fieldsFootprint]
      rcases List.mem_cons.1 member with rfl | later
      · exact Nat.le_trans (Nat.le_add_left _ _) (Nat.le_add_right _ _)
      · exact Nat.le_trans (ih later) (Nat.le_add_left _ _)

/-- A part of a value has no larger footprint. -/
theorem footprint_le_of_partOf {v w : Json} (part : v.PartOf w) : footprint v ≤ footprint w := by
  induction part with
  | itself => exact Nat.le_refl _
  | item member _ ih =>
      have below := footprint_le_itemsFootprint member
      simp only [footprint]
      omega
  | field member _ ih =>
      have below := footprint_le_fieldsFootprint member
      simp only [footprint]
      omega

theorem nodeCost_le_maxFootprint : nodeCost ≤ maxFootprint := by decide

/-- A text that may be built has a footprint that a value may have. -/
theorem footprint_text_le {s : String} (short : s.utf8ByteSize ≤ maxTextBytes) :
    footprint (.str s) ≤ maxFootprint := by
  have room : nodeCost + maxTextBytes ≤ maxFootprint := by decide
  simp only [footprint]
  omega

/-- What stays within the bounds has a footprint that a value may have. -/
theorem footprint_le_of_withinBounds {v : Json} (within : withinBounds (some v) = true) :
    footprint v ≤ maxFootprint := by
  cases v with
  | null | bool | num => exact nodeCost_le_maxFootprint
  | str s => exact footprint_text_le (of_decide_eq_true within)
  | arr items =>
      simp only [withinBounds, Bool.and_eq_true, decide_eq_true_eq] at within
      exact within.2
  | obj fields => exact of_decide_eq_true within

/-! ## Values that fit -/

/-- A value, if there is one, is part of a given one or small. -/
def Fits (given : List Json) (v : Value) : Prop :=
  ∀ w, v = some w → (∃ g ∈ given, w.PartOf g) ∨ footprint w ≤ maxFootprint

variable {given : List Json} {v w : Json}

theorem fits_none : Fits given none := nofun

theorem fits_of_mem (member : v ∈ given) : Fits given (some v) := by
  rintro _ ⟨⟩
  exact .inl ⟨v, member, .itself⟩

theorem fits_of_withinBounds {v : Value} (within : withinBounds v = true) : Fits given v := by
  rintro w rfl
  exact .inr (footprint_le_of_withinBounds within)

/-- A part of a value that fits does so, too. -/
theorem Fits.part (fits : Fits given (some w)) (part : v.PartOf w) : Fits given (some v) := by
  rintro _ ⟨⟩
  rcases fits w rfl with ⟨g, member, outer⟩ | small
  · exact .inl ⟨g, member, part.trans outer⟩
  · exact .inr (Nat.le_trans (footprint_le_of_partOf part) small)

theorem Fits.item {items : List Json} (fits : Fits given (some (.arr items))) (member : v ∈ items) :
    Fits given (some v) :=
  fits.part (.item member .itself)

theorem Fits.field {fields : Record Json} {name : String} (fits : Fits given (some (.obj fields)))
    (found : fields.find? name = some v) : Fits given (some v) :=
  fits.part (.field (Record.mem_of_find? found) .itself)

theorem fits_computed (x : Float) : Fits given (computed x) := by
  apply fits_of_withinBounds
  simp only [computed, Value.ofFloat]
  split
  · rfl
  · split <;> rfl

theorem fits_char (c : Char) : Fits given (some (.str (String.singleton c))) := by
  apply fits_of_withinBounds
  have short : (String.singleton c).utf8ByteSize ≤ 4 := by
    simpa using c.utf8Size_le_four
  have room : 4 ≤ maxTextBytes := by decide
  exact decide_eq_true (Nat.le_trans short room)

/-- A step into a value leads to a part of it, to a count or to a character. -/
theorem Fits.step (fits : Fits given (some v)) (segment : String) :
    Fits given (Path.step v segment) := by
  cases v with
  | null | bool | num => exact fits_none
  | obj fields =>
      rintro w found
      exact fits.field found w rfl
  | arr items =>
      simp only [Path.step]
      split
      · exact fits_of_withinBounds rfl
      · rintro w found
        obtain ⟨i, -, reached⟩ := Option.bind_eq_some_iff.1 found
        exact fits.item (List.mem_of_getElem? reached) w rfl
  | str s =>
      simp only [Path.step]
      split
      · exact fits_of_withinBounds rfl
      · rintro w found
        obtain ⟨i, -, reached⟩ := Option.bind_eq_some_iff.1 found
        obtain ⟨c, -, rfl⟩ := Option.map_eq_some_iff.1 reached
        exact fits_char c _ rfl

theorem Fits.access {v : Value} (fits : Fits given v) {name : String} {optional : Bool}
    {found : Value} (reached : access v name optional = .ok found) : Fits given found := by
  match v with
  | none | some .null =>
      simp only [Script.access] at reached
      split at reached <;> cases reached
      exact fits_none
  | some (.bool _) | some (.num _) | some (.str _) | some (.arr _) | some (.obj _) =>
      cases reached
      exact fits.step name

/-! ## Operators -/

theorem fits_unary (op : UnaryOp) (v : Value) : Fits given (op.apply v) := by
  cases op with
  | negate | plus => exact fits_computed _
  | not | bitNot => exact fits_of_withinBounds rfl
  | discard => exact fits_none
  | typeOf =>
      have known : Value.kind v ∈ ["undefined", "boolean", "number", "string", "object"] := by
        match v with
        | none | some .null | some (.bool _) | some (.num _) | some (.str _) | some (.arr _)
        | some (.obj _) => simp [Value.kind]
      have short : ∀ s ∈ ["undefined", "boolean", "number", "string", "object"],
          withinBounds (some (.str s)) = true := by decide
      exact fits_of_withinBounds (short _ known)

theorem fits_of_bounded {v w : Value} (passes : bounded v = .ok w) : Fits given w := by
  simp only [bounded] at passes
  split at passes <;> cases passes
  exact fits_of_withinBounds ‹_›

theorem fits_binary {op : BinaryOp} {left right v : Value} (applied : op.apply left right = .ok v) :
    Fits given v := by
  cases op with
  | add =>
      simp only [BinaryOp.apply, sum] at applied
      split at applied
      · exact fits_of_bounded applied
      · cases applied
        exact fits_computed _
  | subtract | multiply | divide | remainder | power =>
      cases applied
      exact fits_computed _
  | compare | bitAnd | bitOr | bitXor | shiftLeft | shiftRight | shiftRightZero =>
      cases applied
      exact fits_of_withinBounds rfl

end Script

end UiDoc
