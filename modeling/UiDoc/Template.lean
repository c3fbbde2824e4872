import UiDoc.Text.Class

/-!
# Templates

A template is a text with placeholders.  A placeholder stands between double braces and holds the
text of an expression, without the white space around it; the text has at least one character and
no line feed, and ends as early as possible.
-/

namespace UiDoc

namespace Template

/-- A place in a template. -/
structure Spot where
  char : Char
  /-- Whether closing braces stand here, perhaps behind white space. -/
  closes : Bool
  /-- Whether closing braces end an expression whose text starts here. -/
  begins : Bool
  deriving DecidableEq, Repr

/-- The place of a character in front of other places. -/
def Spot.before (c : Char) (rest : List Spot) : Spot where
  char := c
  closes := rest.head?.any fun next =>
    (c = '}' && next.char = '}') || (Text.isBlank c && next.closes)
  begins := c ≠ '\n' && rest.head?.any fun next => next.closes || next.begins

/-- The places of a text. -/
def spots (cs : List Char) : List Spot :=
  cs.foldr (fun c rest => .before c rest :: rest) []

/-- What follows the first closing braces. -/
def behindBraces (spots : List Spot) : List Spot :=
  (spots.dropWhile fun spot => Text.isBlank spot.char).drop 2

/-- The text of an expression up to the first closing braces, and what follows them. -/
def body : List Spot → List Char × List Spot
  | [] => ([], [])
  | spot :: rest =>
      if rest.head?.any Spot.closes then ([spot.char], behindBraces rest)
      else
        let (text, after) := body rest
        (spot.char :: text, after)

/-- The text of an expression behind as much white space as possible. -/
def inner? : List Spot → Option (List Char × List Spot)
  | [] => none
  | spot :: rest =>
      match if Text.isBlank spot.char then inner? rest else none with
      | some found => some found
      | none => if spot.begins then some (body (spot :: rest)) else none

/-- The expression of a placeholder at the start of a text, and what follows. -/
def placeholder? : List Spot → Option (List Char × List Spot)
  | first :: second :: rest =>
      if first.char = '{' ∧ second.char = '{' then inner? rest else none
  | _ => none

/-- Leaving out closing braces makes no text longer. -/
theorem behindBraces_length_le (spots : List Spot) :
    (behindBraces spots).length ≤ spots.length := by
  have := (List.dropWhile_sublist (p := fun spot : Spot => Text.isBlank spot.char)
    (l := spots)).length_le
  simp only [behindBraces, List.length_drop]
  omega

/-- What follows an expression is no longer than the text. -/
theorem body_length_le (spots : List Spot) : (body spots).2.length ≤ spots.length := by
  induction spots with
  | nil => simp [body]
  | cons spot rest ih =>
      have := behindBraces_length_le rest
      simp only [body]
      split <;> simp only [List.length_cons] <;> omega

/-- What follows an expression is no longer than the text. -/
theorem inner?_length_le {spots after : List Spot} {text : List Char}
    (h : inner? spots = some (text, after)) : after.length ≤ spots.length := by
  induction spots with
  | nil => simp [inner?] at h
  | cons spot rest ih =>
      simp only [inner?] at h
      split at h
      · rename_i found same
        obtain rfl := Option.some.inj h
        split at same
        · have := ih same
          simp only [List.length_cons]
          omega
        · simp at same
      · split at h
        · have := body_length_le (spot :: rest)
          rw [Option.some.inj h] at this
          exact this
        · simp at h

/-- What follows a placeholder is shorter than the text. -/
theorem placeholder?_length {spots after : List Spot} {text : List Char}
    (h : placeholder? spots = some (text, after)) : after.length < spots.length := by
  unfold placeholder? at h
  split at h
  · split at h
    · have := inner?_length_le h
      simp only [List.length_cons]
      omega
    · simp at h
  · simp at h

/-- A part of a template. -/
inductive Piece where
  /-- A character that stands for itself. -/
  | char (c : Char)
  /-- A placeholder with the text of its expression. -/
  | hole (expression : String)
  deriving DecidableEq, Repr

/-- The parts of a template, from its places. -/
def piecesOf (spots : List Spot) : List Piece :=
  match spots with
  | [] => []
  | spot :: rest =>
      match _h : placeholder? (spot :: rest) with
      | some (text, after) => .hole (String.ofList text) :: piecesOf after
      | none => .char spot.char :: piecesOf rest
termination_by spots.length
decreasing_by
  · exact placeholder?_length _h
  · simp

/-- The parts of a template. -/
def pieces (cs : List Char) : List Piece :=
  piecesOf (spots cs)

/-- The expression of a part, if it is a placeholder. -/
def Piece.expression? : Piece → Option String
  | .char _ => none
  | .hole expression => some expression

/-- The expressions of the placeholders, in order. -/
def expressions (template : String) : List String :=
  (pieces template.toList).filterMap Piece.expression?

/-- Whether there is a placeholder. -/
def hasPlaceholders (template : String) : Bool :=
  !(expressions template).isEmpty

/-- The expression of a template that is one placeholder, up to white space around it. -/
def whole? (template : String) : Option String :=
  match placeholder? (spots (Text.trim template.toList)) with
  | some (body, []) => some (String.ofList body)
  | _ => none

end Template

end UiDoc
