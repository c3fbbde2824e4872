import UiDoc.Proofs.Template
import UiDoc.Proofs.Text.Classes
import UiDoc.Template.Interpolation

/-!
# Filling in from left to right

An expression without braces and line feeds is found where it is written, up to the white space
around it, and what stands behind its braces is read as if it were the whole template.  So one
placeholder is filled in after the other, and no text that has been filled in is read again.
-/

namespace UiDoc

namespace Template

variable {c : Char} {cs lead trail text tail : List Char}

/-! ## Expressions that are found as they are written -/

/-- The text of an expression as it is written between the white space of a placeholder. -/
structure Written (text : List Char) : Prop where
  filled : text ≠ []
  plain : ∀ c ∈ text, c ≠ '}' ∧ c ≠ '\n'
  first : ∀ c ∈ text.head?, Text.isBlank c = false
  last : ∀ c ∈ text.getLast?, Text.isBlank c = false

theorem closes_append (blank : ∀ c ∈ lead, Text.isBlank c) (closes : Closes cs) :
    Closes (lead ++ cs) := by
  induction lead with
  | nil => exact closes
  | cons c lead ih =>
      obtain ⟨first, others⟩ := List.forall_mem_cons.1 blank
      have later := ih others
      rw [List.cons_append]
      cases same : lead ++ cs with
      | nil =>
          rw [same] at later
          cases later
      | cons d rest =>
          rw [same] at later
          exact (closes_cons c d rest).2 (.inr ⟨first, later⟩)

/-- The braces that end an expression do not stand in front of its last character. -/
theorem not_closes_append (filled : text ≠ []) (plain : ∀ c ∈ text, c ≠ '}')
    (last : ∀ c ∈ text.getLast?, Text.isBlank c = false) : ¬Closes (text ++ tail) := by
  induction text with
  | nil => exact absurd rfl filled
  | cons c text ih =>
      obtain ⟨other, plain⟩ := List.forall_mem_cons.1 plain
      rw [List.cons_append]
      cases same : text ++ tail with
      | nil => exact not_closes_singleton c
      | cons d rest =>
          rw [closes_cons, not_or]
          refine ⟨fun braces => other braces.1, fun ⟨blank, later⟩ => ?_⟩
          cases text with
          | nil =>
              rw [last c rfl] at blank
              cases blank
          | cons e text => exact ih nofun plain last (same ▸ later)

theorem body_of_closes (c : Char) (closes : Closes tail) :
    body (spots (c :: tail)) = ([c], behindBraces (spots tail)) :=
  if_pos closes

theorem body_of_not_closes (c : Char) (goesOn : ¬Closes cs) :
    body (spots (c :: cs)) = (c :: (body (spots cs)).1, (body (spots cs)).2) :=
  if_neg goesOn

/-- An expression reaches up to the white space in front of its braces. -/
theorem body_written (filled : text ≠ []) (plain : ∀ c ∈ text, c ≠ '}')
    (last : ∀ c ∈ text.getLast?, Text.isBlank c = false) (closes : Closes tail) :
    body (spots (text ++ tail)) = (text, behindBraces (spots tail)) := by
  induction text with
  | nil => exact absurd rfl filled
  | cons c text ih =>
      obtain ⟨-, plain⟩ := List.forall_mem_cons.1 plain
      cases text with
      | nil => exact body_of_closes c closes
      | cons d text =>
          have goesOn : ¬Closes (d :: text ++ tail) := not_closes_append nofun plain last
          rw [List.cons_append, body_of_not_closes c goesOn, ih nofun plain last]

theorem begins_written (plain : ∀ d ∈ c :: cs, d ≠ '\n') (closes : Closes tail) :
    (Spot.before c (spots (cs ++ tail))).begins = true := by
  induction cs generalizing c with
  | nil =>
      cases tail with
      | nil => cases closes
      | cons d rest => exact (begins_cons c d rest).2 ⟨plain c (List.mem_cons_self ..), .inl closes⟩
  | cons d cs ih =>
      obtain ⟨other, plain⟩ := List.forall_mem_cons.1 plain
      exact (begins_cons c d (cs ++ tail)).2 ⟨other, .inr (ih plain)⟩

/-- White space in front of an expression does not belong to it. -/
theorem inner?_written (blank : ∀ c ∈ lead, Text.isBlank c) (written : Written text)
    (closes : Closes tail) :
    inner? (spots (lead ++ (text ++ tail))) = some (text, behindBraces (spots tail)) := by
  induction lead with
  | nil =>
      have reads := body_written written.filled (fun c member => (written.plain c member).1)
        written.last closes
      obtain ⟨filled, plain, first, -⟩ := written
      cases text with
      | nil => exact absurd rfl filled
      | cons c cs =>
          have begins : (Spot.before c (spots (cs ++ tail))).begins = true :=
            begins_written (fun d member => (plain d member).2) closes
          rw [List.nil_append, List.cons_append, inner?_spots, first c rfl, if_neg nofun,
            Option.none_or, if_pos begins]
          exact congrArg some reads
  | cons c lead ih =>
      obtain ⟨first, others⟩ := List.forall_mem_cons.1 blank
      rw [List.cons_append, inner?_spots, if_pos first, ih others, Option.some_or]

/-- A placeholder in front of a text is the first part of it, and the text makes the others. -/
theorem pieces_written (blankLead : ∀ c ∈ lead, Text.isBlank c)
    (blankTrail : ∀ c ∈ trail, Text.isBlank c) (written : Written text) (rest : List Char) :
    pieces ('{' :: '{' :: (lead ++ (text ++ (trail ++ '}' :: '}' :: rest)))) =
      .hole (String.ofList text) :: pieces rest := by
  have closes : Closes (trail ++ '}' :: '}' :: rest) :=
    closes_append blankTrail (closes_braces rest)
  have behind := behindBraces_append blankTrail rest []
  rw [List.append_nil, List.append_nil] at behind
  have found := inner?_written blankLead written closes
  rw [behind] at found
  exact piecesOf_of_placeholder found

/-! ## Templates that are one placeholder between white space -/

/-- The first part of a template is a placeholder or the first character. -/
theorem pieces_cons (c : Char) (cs : List Char) :
    (∃ text rest, placeholder? (spots (c :: cs)) = some (text, spots rest) ∧
      pieces (c :: cs) = .hole (String.ofList text) :: pieces rest) ∨
    pieces (c :: cs) = .char c :: pieces cs := by
  cases found : placeholder? (spots (c :: cs)) with
  | none => exact .inr (piecesOf_of_none found)
  | some parts =>
      obtain ⟨text, after⟩ := parts
      obtain ⟨inside, rest, -, rfl, -⟩ := placeholder?_eq_some found
      exact .inl ⟨text, rest, rfl, piecesOf_of_placeholder found⟩

theorem pieces_nil : pieces [] = [] := by
  rw [pieces, spots, List.foldr_nil, piecesOf]

theorem pieces_ne_nil (c : Char) (cs : List Char) : pieces (c :: cs) ≠ [] := by
  intro nothing
  rcases pieces_cons c cs with ⟨text, rest, -, holeFirst⟩ | charFirst
  · cases nothing.symm.trans holeFirst
  · cases nothing.symm.trans charFirst

/-- Characters that stand for themselves are those of the template. -/
theorem exists_of_pieces {parts : List Piece} (same : pieces cs = lead.map .char ++ parts) :
    ∃ ds, cs = lead ++ ds ∧ pieces ds = parts := by
  induction lead generalizing cs with
  | nil => exact ⟨cs, rfl, same⟩
  | cons c lead ih =>
      cases cs with
      | nil => cases pieces_nil.symm.trans same
      | cons d cs =>
          rcases pieces_cons d cs with ⟨text, rest, -, holeFirst⟩ | charFirst
          · cases holeFirst.symm.trans same
          · obtain ⟨first, same⟩ := List.cons.inj (charFirst.symm.trans same)
            obtain ⟨ds, rest, others⟩ := ih same
            cases first
            exact ⟨ds, congrArg (List.cons c) rest, others⟩

theorem eq_of_pieces (same : pieces cs = trail.map .char) : cs = trail := by
  obtain ⟨behind, parts, nothing⟩ := exists_of_pieces (same.trans (List.append_nil _).symm)
  cases behind with
  | nil => rw [parts, List.append_nil]
  | cons c behind => exact absurd nothing (pieces_ne_nil c behind)

theorem exists_placeholder_of_pieces {expression : String} {parts : List Piece}
    (same : pieces cs = .hole expression :: parts) :
    ∃ text rest, placeholder? (spots cs) = some (text, spots rest) ∧
      expression = String.ofList text ∧ pieces rest = parts := by
  cases cs with
  | nil => cases pieces_nil.symm.trans same
  | cons c cs =>
      rcases pieces_cons c cs with ⟨text, rest, found, holeFirst⟩ | charFirst
      · obtain ⟨first, others⟩ := List.cons.inj (same.symm.trans holeFirst)
        exact ⟨text, rest, found, Piece.hole.inj first, others.symm⟩
      · cases charFirst.symm.trans same

theorem map_char_spots (cs : List Char) : (spots cs).map Spot.char = cs := by
  induction cs with
  | nil => rfl
  | cons c cs ih => exact congrArg (List.cons c) ih

/-- A template that is one placeholder between white space has the value of its expression. -/
theorem whole?_of_pieces {template expression : String}
    (one : pieces template.toList = lead.map .char ++ .hole expression :: trail.map .char)
    (blankLead : ∀ c ∈ lead, Text.isBlank c) (blankTrail : ∀ c ∈ trail, Text.isBlank c) :
    whole? template = some expression := by
  obtain ⟨ds, parts, inner⟩ := exists_of_pieces one
  obtain ⟨text, rest, found, rfl, others⟩ := exists_placeholder_of_pieces inner
  obtain rfl := eq_of_pieces others
  obtain ⟨inside, behind, shape, same, -⟩ := placeholder?_eq_some found
  obtain rfl : rest = behind := by
    rw [← map_char_spots rest, same, map_char_spots]
  have split : ds = '{' :: '{' :: (inside ++ ['}', '}']) ++ rest := by
    rw [shape]
    simp
  have trimmed : Text.trim template.toList = '{' :: '{' :: (inside ++ ['}', '}']) := by
    rw [parts, split, Text.trim_padded blankLead blankTrail]
    apply Text.trim_of_ends
    · rintro c ⟨⟩
      decide
    · intro c last
      rw [show '{' :: '{' :: (inside ++ ['}', '}']) = ('{' :: '{' :: inside ++ ['}']) ++ ['}'] by
        simp, List.getLast?_concat] at last
      cases last
      decide
  rw [split, spots_append blankTrail] at found
  rw [whole?, trimmed, placeholder?_of_append (spots_idle blankTrail) found]

/-! ## Filling in -/

variable {scope : Scope}

/-- Characters that stand for themselves are kept. -/
theorem fillPieces_append (lead : List Char) (parts : List Piece) :
    fillPieces scope (lead.map .char ++ parts) = (lead ++ ·) <$> fillPieces scope parts := by
  induction lead with
  | nil => exact (id_map _).symm
  | cons c lead ih =>
      rw [List.map_cons, List.cons_append, fillPieces, ih, Piece.fill]
      simp only [pure_bind, map_eq_pure_bind, bind_assoc]
      rfl

/-- What holds no opening brace is kept in front of a template. -/
theorem interpolate_append {lead : String} (plain : ∀ c ∈ lead.toList, c ≠ '{')
    (template : String) :
    interpolate scope (lead ++ template) = (lead ++ ·) <$> interpolate scope template := by
  simp [interpolate, pieces_append plain, fillPieces_append]

theorem interpolate_of_pieces {template expression rest : String}
    (parts : pieces template.toList = .hole expression :: pieces rest.toList) :
    interpolate scope template = (do
      let value ← Expr.evalOrUndefined scope expression
      let filled ← interpolate scope rest
      pure (Value.shown value ++ filled)) := by
  simp [interpolate, parts, fillPieces, Piece.fill]

/-- The value of an expression is undefined if the text is none, and there is a warning then. -/
theorem evalOrUndefined_bind {α : Type} (expression : String) (next : Value → Logged α) :
    (Expr.evalOrUndefined scope expression >>= next) = (do
      let _ ← Expr.evalOrUndefined scope expression
      next (Expr.eval? scope expression).join) := by
  unfold Expr.evalOrUndefined
  cases Expr.eval? scope expression with
  | some value => rfl
  | none => simp only [bind_assoc, pure_bind, Option.join_none]

theorem shown_getD_null (value : Value) :
    Value.shown (some (value.getD .null)) = Value.shown value := by
  cases value with
  | none => rfl
  | some json => rfl

/-- A placeholder between white space and its value. -/
theorem interpolate_of_one {template expression : String}
    (one : pieces template.toList = lead.map .char ++ .hole expression :: trail.map .char)
    (blankLead : ∀ c ∈ lead, Text.isBlank c) (blankTrail : ∀ c ∈ trail, Text.isBlank c) :
    interpolate scope template = (do
      let value ← valueOfText scope template
      pure (String.ofList lead ++ Value.shown (some value) ++ String.ofList trail)) := by
  have trailAlone : fillPieces scope (trail.map .char) = pure trail := by
    have kept : fillPieces scope (trail.map .char ++ []) = (trail ++ ·) <$> fillPieces scope [] :=
      fillPieces_append trail []
    rwa [List.append_nil, fillPieces, map_pure, List.append_nil] at kept
  rw [valueOfText, whole?_of_pieces one blankLead blankTrail, interpolate, one, fillPieces_append,
    fillPieces, trailAlone]
  simp [Piece.fill, shown_getD_null, String.append_assoc]

/-- Templates are filled in once, from left to right: behind a text without opening braces a
placeholder gives the shown text of its value, and what stands behind it is filled in on its own.
A template that is one placeholder between white space gives the shown text of its value between
the same white space. -/
theorem interpolate_once (scope : Scope) :
    (∀ lead expression rest : String, (∀ c ∈ lead.toList, c ≠ '{') → expression ≠ "" →
      (∀ c ∈ expression.toList, c ≠ '{' ∧ c ≠ '}' ∧ c ≠ '\n') →
      Text.trim expression.toList = expression.toList →
      interpolate scope (lead ++ "\x7b\x7b " ++ expression ++ " \x7d\x7d" ++ rest) = (do
        let _ ← Expr.evalOrUndefined scope expression
        let filled ← interpolate scope rest
        pure (lead ++ Value.shown (Expr.eval? scope expression).join ++ filled)) ∧
      (Value.nullish (Expr.eval? scope expression).join = true →
        Value.shown (Expr.eval? scope expression).join = "")) ∧
    ∀ (template expression : String) (lead trail : List Char),
      pieces template.toList = lead.map .char ++ .hole expression :: trail.map .char →
      (∀ c ∈ lead, Text.isBlank c) → (∀ c ∈ trail, Text.isBlank c) →
      interpolate scope template = (do
        let value ← valueOfText scope template
        pure (String.ofList lead ++ Value.shown (some value) ++ String.ofList trail)) := by
  refine ⟨fun lead expression rest plain filled inside trimmed =>
      ⟨?_, fun nullish => if_pos nullish⟩,
    fun template expression lead trail => interpolate_of_one⟩
  have written : Written expression.toList :=
    ⟨fun nothing => filled (String.toList_eq_nil_iff.1 nothing),
      fun c member => (inside c member).2,
      trimmed ▸ Text.not_blank_head_trim _, trimmed ▸ Text.not_blank_getLast_trim _⟩
  have space : ∀ c ∈ [' '], Text.isBlank c := Text.forall_of_all (by decide)
  have parts := pieces_written space space written rest.toList
  rw [String.ofList_toList] at parts
  have shape : lead ++ "\x7b\x7b " ++ expression ++ " \x7d\x7d" ++ rest =
      lead ++ ("\x7b\x7b " ++ expression ++ " \x7d\x7d" ++ rest) := by
    simp only [String.append_assoc]
  have same : ("\x7b\x7b " ++ expression ++ " \x7d\x7d" ++ rest).toList =
      '{' :: '{' :: ([' '] ++ (expression.toList ++ ([' '] ++ '}' :: '}' :: rest.toList))) := by
    simp
  rw [shape, interpolate_append plain, interpolate_of_pieces (same ▸ parts), evalOrUndefined_bind]
  simp only [map_bind, map_pure, String.append_assoc]

theorem interpolate_once_quoted_braces :
    ∃ scope, Value.shown (Expr.eval? scope "text").join = "\x7b\x7b other \x7d\x7d" ∧
      interpolate scope ("a" ++ "\x7b\x7b " ++ "text" ++ " \x7d\x7d" ++ "\x7b\x7b other") = (do
        let _ ← Expr.evalOrUndefined scope "text"
        let filled ← interpolate scope "\x7b\x7b other"
        pure ("a" ++ Value.shown (Expr.eval? scope "text").join ++ filled)) ∧
      interpolate scope " \x7b\x7btext\x7d\x7d\n" = (do
        let value ← valueOfText scope " \x7b\x7btext\x7d\x7d\n"
        pure (" " ++ Value.shown (some value) ++ "\n")) := by
  let scope : Scope := { data := .obj [("text", .str "\x7b\x7b other \x7d\x7d")] }
  obtain ⟨leftToRight, whole⟩ := interpolate_once scope
  refine ⟨scope, by decide +kernel, ?_, ?_⟩
  · exact (leftToRight "a" "text" "\x7b\x7b other" (Text.forall_of_all (by decide)) (by decide)
      (Text.forall_of_all (by decide)) (by decide)).1
  · exact whole " \x7b\x7btext\x7d\x7d\n" "text" [' '] ['\n'] (by decide +kernel)
      (Text.forall_of_all (by decide)) (Text.forall_of_all (by decide))

end Template

end UiDoc
