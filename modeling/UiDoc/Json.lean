import UiDoc.Decimal

/-!
# JSON values

A JSON number remembers whether it was written as an integer, and an object keeps its fields in the
order in which they were first set.  Removing a field moves the last field into its place.
-/

namespace UiDoc

/-- A JSON number.  Integers that come from a text lie between `-2 ^ 63` and `2 ^ 64 - 1`. -/
inductive Num where
  | int (n : Int)
  | float (x : Float)
  deriving DecidableEq

namespace Num

/-- The double nearest to a number. -/
def toFloat : Num → Float
  | int n => Float.ofInt n
  | float x => x

/-- Equality of numbers that are parts of a larger value: an integer never equals a double. -/
def same : Num → Num → Bool
  | int m, int n => m == n
  | float x, float y => x == y
  | _, _ => false

end Num

/-- Named values in the order in which the names were first set, without repetition. -/
abbrev Record (α : Type) := List (String × α)

namespace Record

variable {α : Type}

/-- The value of a name. -/
def find? (r : Record α) (name : String) : Option α :=
  List.lookup name r

/-- Whether a name has a value. -/
def has (r : Record α) (name : String) : Bool :=
  (find? r name).isSome

/-- Sets the value of a name, in place or at the end. -/
def insert (r : Record α) (name : String) (value : α) : Record α :=
  match r with
  | [] => [(name, value)]
  | (key, old) :: rest =>
      if key = name then (name, value) :: rest else (key, old) :: insert rest name value

/-- Replaces the field of a name by another field, or by nothing. -/
def replaceField (name : String) (field : Option (String × α)) : Record α → Record α
  | [] => []
  | (key, old) :: rest =>
      if key = name then field.toList ++ rest else (key, old) :: replaceField name field rest

/-- Removes a name; the last field takes its place. -/
def erase (r : Record α) (name : String) : Record α :=
  match r.getLast? with
  | none => r
  | some last =>
      if last.1 = name then r.dropLast
      else if has r name then replaceField name (some last) r.dropLast
      else r

/-- Sets all fields of `more`, in order. -/
def extend (r more : Record α) : Record α :=
  more.foldl (fun r field => insert r field.1 field.2) r

/-- A record from fields with repetition: the last value of a name stands at its first place. -/
def ofFields (fields : List (String × α)) : Record α :=
  extend [] fields

/-- The names in order. -/
def names (r : Record α) : List String :=
  r.map (·.1)

end Record

/-- A JSON value. -/
inductive Json where
  | null
  | bool (b : Bool)
  | num (n : Num)
  | str (s : String)
  | arr (items : List Json)
  | obj (fields : List (String × Json))

namespace Json

/-- Where any value will do, it is `null`. -/
instance : Inhabited Json := ⟨.null⟩

/-- The JSON number of an integer. -/
def int (n : Int) : Json := .num (.int n)

/-- The JSON number of a natural number. -/
def nat (n : Nat) : Json := .num (.int n)

/-- The text, if the value is one. -/
def str? : Json → Option String
  | .str s => some s
  | _ => none

/-- The fields, if the value is an object. -/
def obj? : Json → Option (Record Json)
  | .obj fields => some fields
  | _ => none

/-- The items, if the value is an array. -/
def arr? : Json → Option (List Json)
  | .arr items => some items
  | _ => none

/-- The fields of an object, and none of any other value. -/
def fields (v : Json) : Record Json :=
  v.obj?.getD []

/-- The value of a field of an object. -/
def get? (v : Json) (name : String) : Option Json :=
  Record.find? v.fields name

mutual

/-- Equality of values as data: fields in any order, and integers apart from doubles. -/
def same : Json → Json → Bool
  | .null, .null => true
  | .bool a, .bool b => a == b
  | .num a, .num b => a.same b
  | .str a, .str b => a == b
  | .arr a, .arr b => sameItems a b
  | .obj a, .obj b => a.length == b.length && sameFields a b
  | _, _ => false
termination_by structural v => v

/-- Equality of items, one by one. -/
def sameItems : List Json → List Json → Bool
  | [], [] => true
  | v :: vs, w :: ws => v.same w && sameItems vs ws
  | _, _ => false
termination_by structural vs => vs

/-- Whether every field of the first list has an equal value in the second. -/
def sameFields : List (String × Json) → List (String × Json) → Bool
  | [], _ => true
  | (name, v) :: rest, other =>
      (match Record.find? other name with
        | some w => v.same w
        | none => false) && sameFields rest other
termination_by structural vs => vs

end

end Json

end UiDoc
