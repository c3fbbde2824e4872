import UiDoc.Proofs.Record
import UiDoc.Proofs.Text.Trim
import UiDoc.Scope.Lookup

/-!
# Walking along paths

The segments of a path are found one after the other, and each of them takes one step.
-/

namespace UiDoc

namespace Path

variable {cs rest head : List Char}

/-! ## Segments -/

theorem segmentsFrom_plain (parts : ∀ c ∈ cs, c ≠ '.' ∧ c ≠ '[') (before : List Char) :
    segmentsFrom (.plain before) (cs ++ rest) = segmentsFrom (.plain (cs.reverse ++ before)) rest := by
  induction cs generalizing before with
  | nil => rfl
  | cons c cs ih =>
      obtain ⟨⟨point, bracket⟩, parts⟩ := List.forall_mem_cons.1 parts
      rw [List.cons_append, segmentsFrom, if_neg point, if_neg bracket, ih parts,
        List.reverse_cons, List.append_assoc, List.singleton_append]

theorem segmentsFrom_bracket (parts : ∀ c ∈ cs, c ≠ ']') (before : List Char) :
    segmentsFrom (.bracket before) (cs ++ ']' :: rest) =
      bracketSegment (cs.reverse ++ before) :: segmentsFrom (.plain []) rest := by
  induction cs generalizing before with
  | nil => rw [List.nil_append, segmentsFrom, if_pos rfl, List.reverse_nil, List.nil_append]
  | cons c cs ih =>
      obtain ⟨bracket, parts⟩ := List.forall_mem_cons.1 parts
      rw [List.cons_append, segmentsFrom, if_neg bracket, ih parts, List.reverse_cons,
        List.append_assoc, List.singleton_append]

theorem segmentsFrom_quoted {mark : Char} (parts : ∀ c ∈ cs, c ≠ mark) (before : List Char) :
    segmentsFrom (.quoted mark before) (cs ++ mark :: ']' :: rest) =
      bracketSegment (cs.reverse ++ before) :: segmentsFrom (.plain []) rest := by
  induction cs generalizing before with
  | nil =>
      rw [List.nil_append, segmentsFrom, if_pos rfl, segmentsFrom, if_pos rfl, List.reverse_nil,
        List.nil_append]
  | cons c cs ih =>
      obtain ⟨other, parts⟩ := List.forall_mem_cons.1 parts
      rw [List.cons_append, segmentsFrom, if_neg other, ih parts, List.reverse_cons,
        List.append_assoc, List.singleton_append]

theorem plainSegment_reverse (filled : cs ≠ []) : plainSegment cs.reverse = [String.ofList cs] := by
  rw [plainSegment, if_neg (by simpa using filled), List.reverse_reverse]

/-! ## Places -/

/-- The place behind one more character. -/
def Place.next : Place → Char → Place
  | .plain name, c =>
      if c = '.' then .plain [] else if c = '[' then .opened else .plain (c :: name)
  | .opened, c =>
      if c = '"' ∨ c = '\'' then .quoted c [] else if c = ']' then .plain [] else .bracket [c]
  | .bracket name, c => if c = ']' then .plain [] else .bracket (c :: name)
  | .quoted quote name, c => if c = quote then .closing name else .quoted quote (c :: name)
  | .closing name, c => if c = ']' then .plain [] else .closing name

/-- The segments that a character ends. -/
def Place.ended : Place → Char → List String
  | .plain name, c => if c = '.' ∨ c = '[' then plainSegment name else []
  | .opened, c => if c = ']' then [""] else []
  | .bracket name, c | .closing name, c => if c = ']' then [bracketSegment name] else []
  | .quoted _ _, _ => []

/-- Every bracket that is opened in a path is closed in it. -/
def Closed (path : String) : Prop :=
  ∃ name, path.toList.foldl Place.next (.plain []) = .plain name

theorem segmentsFrom_cons (place : Place) (c : Char) (cs : List Char) :
    segmentsFrom place (c :: cs) = place.ended c ++ segmentsFrom (place.next c) cs := by
  cases place with
  | plain name =>
      by_cases point : c = '.'
      · simp [segmentsFrom, Place.ended, Place.next, point]
      · by_cases bracket : c = '[' <;>
          simp [segmentsFrom, Place.ended, Place.next, point, bracket]
  | opened =>
      by_cases quote : c = '"' ∨ c = '\''
      · have noBracket : c ≠ ']' := by
          rintro rfl
          exact absurd quote (by decide)
        simp [segmentsFrom, Place.ended, Place.next, quote, noBracket]
      · by_cases bracket : c = ']' <;>
          simp [segmentsFrom, Place.ended, Place.next, quote, bracket]
  | bracket name | closing name =>
      by_cases bracket : c = ']' <;> simp [segmentsFrom, Place.ended, Place.next, bracket]
  | quoted quote name =>
      by_cases same : c = quote <;> simp [segmentsFrom, Place.ended, Place.next, same]

/-- Outside of brackets, a point separates the segments in front of it from those behind it. -/
theorem segmentsFrom_append_point {place : Place} {name : List Char}
    (outside : cs.foldl Place.next place = .plain name) (rest : List Char) :
    segmentsFrom place (cs ++ '.' :: rest) =
      segmentsFrom place cs ++ segmentsFrom (.plain []) rest := by
  induction cs generalizing place with
  | nil =>
      cases outside
      rfl
  | cons c cs ih =>
      rw [List.cons_append, segmentsFrom_cons, ih outside, segmentsFrom_cons, List.append_assoc]

/-! ## Steps -/

/-- The value at the end of steps, undefined if one of them finds nothing. -/
def follow (v : Value) (segments : List String) : Value :=
  segments.foldl (fun v segment => v.bind (step · segment)) v

@[simp] theorem follow_none (segments : List String) : follow none segments = none := by
  induction segments with
  | nil => rfl
  | cons segment segments ih => exact ih

theorem follow_append (v : Value) (first second : List String) :
    follow v (first ++ second) = follow (follow v first) second :=
  List.foldl_append

theorem walkSegments_eq (value : Json) (segments : List String) :
    walkSegments value segments = follow (some value) segments := by
  induction segments generalizing value with
  | nil => rfl
  | cons segment segments ih =>
      have next : follow (some value) (segment :: segments) =
          follow (step value segment) segments := rfl
      rw [walkSegments, next]
      cases step value segment with
      | none => exact (follow_none segments).symm
      | some found => exact ih found

theorem bind_walk (v : Value) (path : String) :
    (v.bind fun value => walk value path) = follow v (segments path) := by
  cases v with
  | none => exact (follow_none _).symm
  | some value => exact walkSegments_eq value _

/-! ## Values that a path reaches -/

/-- Objects inside of each other, with the segments as names. -/
def nest (segments : List String) : Json :=
  segments.foldr (fun segment inner => .obj [(segment, inner)]) .null

/-- The innermost value is reached by these segments and by no others. -/
theorem follow_nest {segments others : List String} :
    follow (some (nest segments)) others = some .null ↔ others = segments := by
  have nowhere (segments : List String) : follow none segments ≠ some .null := by
    simp
  induction segments generalizing others with
  | nil =>
      cases others with
      | nil => exact iff_of_true rfl rfl
      | cons other others => exact iff_of_false (nowhere others) nofun
  | cons segment segments ih =>
      cases others with
      | nil => exact iff_of_false nofun nofun
      | cons other others =>
          have next : follow (some (nest (segment :: segments))) (other :: others) =
              follow (if other = segment then some (nest segments) else none) others := by
            rw [← Record.find?_nil (α := Json) other, ← Record.find?_cons]
            rfl
          rw [next, List.cons.injEq]
          split
          next same => exact ih.trans (and_iff_right same).symm
          next differs => exact iff_of_false (nowhere others) fun both => differs both.1

/-! ## First names -/

/-- The first name of a path ends at a point or a bracket. -/
theorem splitHead_append (parts : ∀ c ∈ head, c ≠ '.' ∧ c ≠ '[') :
    splitHead (head ++ rest) = (head ++ (splitHead rest).1, (splitHead rest).2) := by
  induction head with
  | nil => rfl
  | cons c head ih =>
      obtain ⟨⟨point, bracket⟩, parts⟩ := List.forall_mem_cons.1 parts
      simp only [List.cons_append, splitHead, if_neg point, if_neg bracket, ih parts]

/-- The first name of a path: what stands in front of its first point or bracket. -/
def firstName (path : String) : String :=
  String.ofList ((Text.trim path.toList).takeWhile fun c => c ≠ '.' ∧ c ≠ '[')

theorem splitHead_fst (cs : List Char) :
    (splitHead cs).1 = cs.takeWhile fun c => c ≠ '.' ∧ c ≠ '[' := by
  induction cs with
  | nil => rfl
  | cons c cs ih =>
      by_cases point : c = '.'
      · simp [splitHead, point]
      · by_cases bracket : c = '[' <;> simp [splitHead, point, bracket, ih]

/-- The first name of a path is its first segment, and the rest of the path has the others. -/
theorem segmentsFrom_splitHead (before cs : List Char) :
    segmentsFrom (.plain before) cs =
      plainSegment ((splitHead cs).1.reverse ++ before) ++
        segmentsFrom (.plain []) (splitHead cs).2 := by
  induction cs generalizing before with
  | nil => simp [segmentsFrom, splitHead, plainSegment]
  | cons c cs ih =>
      by_cases point : c = '.'
      · simp [segmentsFrom, splitHead, point]
      · by_cases bracket : c = '['
        · simp [segmentsFrom, splitHead, bracket, plainSegment]
        · rw [segmentsFrom, if_neg point, if_neg bracket, ih]
          simp [splitHead, point, bracket]

theorem splitHead_fst_append_point (cs rest : List Char) :
    (splitHead (cs ++ '.' :: rest)).1 = (splitHead cs).1 := by
  induction cs with
  | nil => rfl
  | cons c cs ih =>
      by_cases point : c = '.'
      · simp [splitHead, point]
      · by_cases bracket : c = '[' <;> simp [splitHead, point, bracket, ih]

/-- What is joined to a path by a point comes behind the rest of the path. -/
theorem segmentsFrom_splitHead_append_point {name : List Char}
    (outside : cs.foldl Place.next (.plain []) = .plain name) (rest : List Char) :
    segmentsFrom (.plain []) (splitHead (cs ++ '.' :: rest)).2 =
      segmentsFrom (.plain []) (splitHead cs).2 ++ segmentsFrom (.plain []) rest := by
  have joined := segmentsFrom_append_point outside rest
  rw [segmentsFrom_splitHead [] (cs ++ _), splitHead_fst_append_point,
    segmentsFrom_splitHead [] cs, List.append_assoc] at joined
  exact List.append_cancel_left joined

end Path

end UiDoc
