import UiDoc.Scope
import UiDoc.Path

/-!
# Looking up paths in a scope

The first name of a path selects where the rest of it starts.  `state` and `bindings` select their
layers where those are supplied, and `data` selects the root unless it is the name of a value there.
-/

namespace UiDoc

namespace Path

/-- Splits a path behind its first name; a point between the two parts belongs to neither. -/
def splitHead : List Char → List Char × List Char
  | [] => ([], [])
  | c :: cs =>
      if c = '.' then ([], cs)
      else if c = '[' then ([], c :: cs)
      else
        let (head, rest) := splitHead cs
        (c :: head, rest)

/-- The two parts are together no longer than the path. -/
theorem splitHead_length_le (cs : List Char) :
    (splitHead cs).1.length + (splitHead cs).2.length ≤ cs.length := by
  induction cs with
  | nil => simp [splitHead]
  | cons c cs ih =>
      simp only [splitHead]
      split
      · simp
      · split
        · simp
        · simp only [List.length_cons]
          omega

end Path

namespace Text

/-- Dropping white space makes no text longer. -/
theorem trim_length_le (cs : List Char) : (trim cs).length ≤ cs.length := by
  have drop (cs : List Char) : (trimStart cs).length ≤ cs.length :=
    (List.dropWhile_sublist _).length_le
  have second := drop (trimStart cs).reverse
  have first := drop cs
  simp only [trim, trimEnd, List.length_reverse] at *
  split
  · simp only [List.length_reverse]
    omega
  · omega

end Text

namespace Scope

/-- The value of a name: a layer of its own if that is supplied, else a value at the root. -/
def named? (scope : Scope) (name : String) : Value :=
  match name, scope.state, scope.bindings with
  | "state", some state, _ => some state
  | "bindings", _, some bindings => some bindings
  | _, _, _ => scope.root? name

/-- Whether `data` stands for the root itself, since no value there has that name. -/
def dataIsRoot (scope : Scope) : Bool :=
  !scope.hasRoot "data"

/-- The value of a path in the characters of its text. -/
def lookupChars (scope : Scope) (path : List Char) : Value :=
  let head := (Path.splitHead (Text.trim path)).1
  let rest := (Path.splitHead (Text.trim path)).2
  if Text.trim path = [] then none
  else if _ : head = ['d', 'a', 't', 'a'] ∧ scope.dataIsRoot then
    if rest = [] then some (.obj scope.merged) else scope.lookupChars rest
  else (scope.named? (String.ofList head)).bind fun value => Path.walk value (String.ofList rest)
termination_by path.length
decreasing_by
  have parts := Path.splitHead_length_le (Text.trim path)
  have whole := Text.trim_length_le path
  have head : (Path.splitHead (Text.trim path)).1.length = 4 := congrArg List.length ‹_ ∧ _›.1
  omega

/-- The value of a path, undefined if a step finds nothing. -/
def lookup (scope : Scope) (path : String) : Value :=
  scope.lookupChars path.toList

end Scope

end UiDoc
