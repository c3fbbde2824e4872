import Mathlib.Data.List.TakeWhile
import Mathlib.Order.Basic
import Mathlib.Data.String.Basic
import UiDoc.Files.Path

/-!
# Names of files

A text of names with slashes between them is cut into these names again, a path that leads on has
the names of both parts, names are split at their last point into a stem and an extension, and lists
of names are ordered name by name.
-/

namespace UiDoc.FilePath

/-! ## Names between slashes -/

/-- A text that can stand between two slashes. -/
def Bare (name : String) : Prop :=
  '/' ∉ name.toList

instance (name : String) : Decidable (Bare name) :=
  inferInstanceAs (Decidable (¬ _))

/-- A name that a file or a directory can have. -/
structure Proper (name : String) : Prop where
  bare : Bare name
  busy : isIdle name = false
  down : name ≠ ".."

instance (name : String) : Decidable (Proper name) :=
  decidable_of_iff (Bare name ∧ isIdle name = false ∧ name ≠ "..")
    ⟨fun ⟨bare, busy, down⟩ => ⟨bare, busy, down⟩, fun ⟨bare, busy, down⟩ => ⟨bare, busy, down⟩⟩

theorem cut_ne_nil (cs : List Char) : cut cs ≠ [] := by
  fun_cases cut cs <;> simp

theorem cut_of_not_mem {cs : List Char} (free : '/' ∉ cs) : cut cs = [cs] := by
  induction cs with
  | nil => rfl
  | cons c cs ih =>
      simp only [List.mem_cons, not_or] at free
      simp [cut, Ne.symm free.1, ih free.2]

theorem cut_append (cs ds : List Char) : cut (cs ++ '/' :: ds) = cut cs ++ cut ds := by
  induction cs with
  | nil => simp [cut]
  | cons c cs ih =>
      by_cases slash : c = '/'
      · simp [cut, slash, ih]
      · obtain ⟨piece, pieces, eq⟩ := List.exists_cons_of_ne_nil (cut_ne_nil cs)
        simp [cut, slash, ih, eq]

theorem intercalate_cut (cs : List Char) : ['/'].intercalate (cut cs) = cs := by
  induction cs with
  | nil => rfl
  | cons c cs ih =>
      obtain ⟨piece, pieces, eq⟩ := List.exists_cons_of_ne_nil (cut_ne_nil cs)
      by_cases slash : c = '/'
      · simpa [cut, slash, eq] using ih
      · cases pieces with
        | nil => simpa [cut, slash, eq] using ih
        | cons next pieces => simpa [cut, slash, eq] using ih

theorem not_mem_of_mem_cut {cs piece : List Char} (mem : piece ∈ cut cs) : '/' ∉ piece := by
  induction cs generalizing piece with
  | nil => simp_all [cut]
  | cons c cs ih =>
      rw [cut] at mem
      split at mem
      · rcases List.mem_cons.1 mem with rfl | mem
        · simp
        · exact ih mem
      · next other =>
        split at mem
        · simp_all [Ne.symm other]
        · next first rest eq =>
          rcases List.mem_cons.1 mem with rfl | mem
          · simpa [Ne.symm other] using ih (eq ▸ List.mem_cons_self)
          · exact ih (eq ▸ List.mem_cons_of_mem _ mem)

theorem bare_of_mem_pieces {path piece : String} (mem : piece ∈ pieces path) : Bare piece := by
  obtain ⟨cs, found, rfl⟩ := List.mem_map.1 mem
  simpa [Bare] using not_mem_of_mem_cut found

theorem pieces_of_bare {name : String} (bare : Bare name) : pieces name = [name] := by
  rw [pieces, cut_of_not_mem bare, List.map_singleton, String.ofList_toList]

theorem pieces_ne_nil (path : String) : pieces path ≠ [] := by
  simpa [pieces] using cut_ne_nil path.toList

/-- A path is what stands between its slashes, with slashes between. -/
theorem intercalate_pieces (path : String) : "/".intercalate (pieces path) = path := by
  rw [← String.toList_inj, String.toList_intercalate, pieces, List.map_map]
  simpa [Function.comp_def] using intercalate_cut path.toList

theorem pieces_append (front path : String) :
    pieces (front ++ "/" ++ path) = pieces front ++ pieces path := by
  simp only [pieces, ← List.map_append, ← cut_append]
  congr 2
  simp [String.toList_append]

theorem parts_append (front path : String) :
    parts (front ++ "/" ++ path) = parts front ++ parts path := by
  rw [parts, pieces_append, List.filter_append, ← parts, ← parts]

theorem busy_of_mem_parts (path : String) :
    ∀ name ∈ parts path, Bare name ∧ isIdle name = false := by
  intro name mem
  obtain ⟨mem, busy⟩ := List.mem_filter.1 mem
  exact ⟨bare_of_mem_pieces mem, by simpa using busy⟩

/-- What stands between slashes is what was put there. -/
theorem pieces_intercalate {names : List String} (bare : ∀ name ∈ names, Bare name)
    (ne : names ≠ []) : pieces ("/".intercalate names) = names := by
  induction names with
  | nil => exact absurd rfl ne
  | cons name names ih =>
      have first := pieces_of_bare (bare name List.mem_cons_self)
      cases names with
      | nil => simpa using first
      | cons other names =>
          have rest := ih (fun name mem => bare name (List.mem_cons_of_mem _ mem)) (by simp)
          rw [String.intercalate_cons_cons, pieces_append, first, rest, List.singleton_append]

theorem parts_intercalate {names : List String} (proper : ∀ name ∈ names, Proper name) :
    parts ("/".intercalate names) = names := by
  cases names with
  | nil => rfl
  | cons name names =>
      have bare := fun name mem => (proper name mem).bare
      rw [parts, pieces_intercalate bare (List.cons_ne_nil _ _)]
      exact List.filter_eq_self.2 fun name mem => by simp [(proper name mem).busy]

theorem parts_name {name : String} (proper : Proper name) : parts name = [name] := by
  have names : ∀ other ∈ [name], Proper other := by simpa using proper
  simpa using parts_intercalate names

theorem intercalate_ne_empty {names : List String} (proper : ∀ name ∈ names, Proper name)
    (ne : names ≠ []) : "/".intercalate names ≠ "" := by
  intro empty
  have whole := pieces_intercalate (fun name mem => (proper name mem).bare) ne
  rw [empty] at whole
  have busy := (proper "" (by rw [← whole]; exact List.mem_cons_self)).busy
  simp [isIdle] at busy

theorem isAbsolute_iff {path : String} :
    isAbsolute path ↔ ∃ rest ≠ [], pieces path = "" :: rest := by
  cases chars : path.toList with
  | nil => simp [isAbsolute, pieces, chars, cut]
  | cons c cs =>
      obtain ⟨piece, rest, eq⟩ := List.exists_cons_of_ne_nil (cut_ne_nil cs)
      by_cases slash : c = '/'
      · simp [isAbsolute, pieces, chars, cut, slash, eq]
      · simp [isAbsolute, pieces, chars, cut, slash, eq]

theorem isAbsolute_intercalate {names : List String} (proper : ∀ name ∈ names, Proper name) :
    isAbsolute ("/".intercalate names) = false := by
  by_contra absolute
  obtain ⟨rest, more, first⟩ := isAbsolute_iff.1 (Bool.of_not_eq_false absolute)
  cases names with
  | nil => exact more (List.cons_eq_cons.1 first).2.symm
  | cons name names =>
      have bare := fun name mem => (proper name mem).bare
      rw [pieces_intercalate bare (List.cons_ne_nil _ _)] at first
      obtain ⟨rfl, -⟩ := List.cons_eq_cons.1 first
      have busy := (proper "" List.mem_cons_self).busy
      simp [isIdle] at busy

/-! ## Paths that lead on -/

section Join

variable {base path name : String} {names : List String}

theorem Proper.isAbsolute (proper : Proper name) : isAbsolute name = false := by
  have names : ∀ other ∈ [name], Proper other := by simpa using proper
  simpa using isAbsolute_intercalate names

theorem join_empty (relative : isAbsolute path = false) : join "" path = path := by
  simp [join, relative]

/-- A path that leads on stands behind a slash, which may be the last of the other path. -/
theorem exists_join (given : base ≠ "") (relative : isAbsolute path = false) :
    ∃ front, join base path = front ++ "/" ++ path ∧ parts front = parts base := by
  simp only [join, relative, given, false_or, Bool.false_eq_true, if_false]
  split
  · next slash =>
    obtain ⟨cs, eq⟩ := List.getLast?_eq_some_iff.1 slash
    have whole : base = String.ofList cs ++ "/" ++ "" := by
      rw [← String.toList_inj, eq]
      simp [String.toList_append]
    have nothing : parts "" = [] := rfl
    refine ⟨String.ofList cs, by rw [whole, String.append_empty], ?_⟩
    rw [whole, parts_append, nothing, List.append_nil]
  · exact ⟨base, rfl, rfl⟩

theorem parts_join (base : String) (relative : isAbsolute path = false) :
    parts (join base path) = parts base ++ parts path := by
  by_cases empty : base = ""
  · have nothing : parts "" = [] := rfl
    rw [empty, join_empty relative, nothing, List.nil_append]
  · obtain ⟨front, eq, same⟩ := exists_join empty relative
    rw [eq, parts_append, same]

theorem endsIdle_join (base : String) (relative : isAbsolute path = false) :
    endsIdle (join base path) = endsIdle path := by
  by_cases empty : base = ""
  · rw [empty, join_empty relative]
  · obtain ⟨front, eq, -⟩ := exists_join empty relative
    rw [eq, endsIdle, endsIdle, pieces_append,
      List.getLast?_append_of_ne_nil _ (pieces_ne_nil path)]

theorem exists_append_join (base : String) (relative : isAbsolute path = false) :
    ∃ rest, join base path = base ++ rest := by
  simp only [join, relative, Bool.false_eq_true, if_false]
  split
  · exact ⟨path, rfl⟩
  · exact ⟨"/" ++ path, String.append_assoc ..⟩

theorem join_eq_empty (relative : isAbsolute path = false) :
    join base path = "" ↔ base = "" ∧ path = "" := by
  simp only [join, relative, Bool.false_eq_true, if_false]
  split
  · simp
  · next apart => simp [mt Or.inl apart]

/-- A path that leads on starts where the other path starts. -/
theorem isAbsolute_join (given : base ≠ "") (relative : isAbsolute path = false) :
    isAbsolute (join base path) = isAbsolute base := by
  obtain ⟨rest, eq⟩ := exists_append_join base relative
  have written : base.toList ≠ [] := by simpa using given
  rw [eq, isAbsolute, isAbsolute, String.toList_append, List.head?_append_of_ne_nil _ written]

/-- A path that leads on by names starts where the other path starts and has the names behind the
names of the other path. -/
theorem joinAll_spec (given : base ≠ "") (proper : ∀ name ∈ names, Proper name) :
    joinAll base names ≠ "" ∧ isAbsolute (joinAll base names) = isAbsolute base ∧
      parts (joinAll base names) = parts base ++ names := by
  induction names generalizing base with
  | nil => simp [joinAll, given]
  | cons name names ih =>
      obtain ⟨first, rest⟩ := List.forall_mem_cons.1 proper
      have next : join base name ≠ "" := fun empty =>
        given ((join_eq_empty first.isAbsolute).1 empty).1
      obtain ⟨ne, absolute, parts⟩ := ih next rest
      refine ⟨ne, absolute.trans (isAbsolute_join given first.isAbsolute), parts.trans ?_⟩
      rw [parts_join base first.isAbsolute, parts_name first, List.append_assoc,
        List.singleton_append]

/-- A path that leads on by some names may lead to a file. -/
theorem endsIdle_joinAll (base : String) (proper : ∀ name ∈ names, Proper name)
    (ne : names ≠ []) : endsIdle (joinAll base names) = false := by
  obtain ⟨above, name, rfl⟩ := (List.eq_nil_or_concat' names).resolve_left ne
  obtain ⟨front, last⟩ := List.forall_mem_append.1 proper
  have proper := last name List.mem_cons_self
  rw [joinAll, List.foldl_append]
  refine (endsIdle_join _ proper.isAbsolute).trans ?_
  simp [endsIdle, pieces_of_bare proper.bare, proper.busy]

/-! ## The directory of a file -/

theorem pieces_slashes {front : List String} (bare : ∀ piece ∈ front, Bare piece) :
    pieces (String.join (front.map (· ++ "/"))) = front ++ [""] := by
  induction front with
  | nil => rfl
  | cons piece front ih =>
      obtain ⟨first, rest⟩ := List.forall_mem_cons.1 bare
      rw [List.map_cons, String.join_cons, pieces_append, pieces_of_bare first, ih rest]
      rfl

/-- In front of the name of a file stands the path to its directory. -/
theorem exists_pieces_parent {file : String} (named : fileName? file = some name) :
    ∃ front idle, pieces file = front ++ name :: idle ∧ (∀ piece ∈ idle, isIdle piece) ∧
      isIdle name = false ∧ pieces (parent file) = front ++ [""] := by
  have last := (Option.filter_eq_some_iff.1 named).1
  rw [parts, List.getLast?_eq_head?_reverse, ← List.filter_reverse, List.head?_filter,
    List.find?_eq_some_iff_append] at last
  obtain ⟨busy, idle, front, eq, passed⟩ := last
  have idle_of_mem : ∀ piece ∈ idle, isIdle piece := by simpa using passed
  have whole : pieces file = front.reverse ++ name :: idle.reverse := by
    rw [← List.reverse_inj, eq]
    simp
  have bare (piece : String) (mem : piece ∈ front.reverse) : Bare piece :=
    bare_of_mem_pieces (by rw [whole]; exact List.mem_append_left _ mem)
  refine ⟨front.reverse, idle.reverse, whole, by simpa using idle_of_mem, by simpa using busy, ?_⟩
  have behind : (pieces file).reverse.dropWhile isIdle = name :: front := by
    rw [eq, List.dropWhile_append_of_pos idle_of_mem,
      List.dropWhile_cons_of_neg (by simpa using busy)]
  rw [parent, behind, List.drop_one, List.tail_cons, pieces_slashes bare]

/-- The path to the directory of a file has the names in front of the name of the file. -/
theorem parts_parent {file : String} (named : fileName? file = some name) :
    parts file = parts (parent file) ++ [name] := by
  obtain ⟨front, idle, whole, passed, busy, eq⟩ := exists_pieces_parent named
  have nothing : idle.filter (fun piece => !isIdle piece) = [] :=
    List.filter_eq_nil_iff.2 fun piece mem => by simp [passed piece mem]
  have empty : isIdle "" = true := rfl
  simp [parts, whole, eq, busy, nothing, empty]

/-- What leads on from the directory of a file starts where the path to the file starts. -/
theorem isAbsolute_join_parent {file : String} (named : fileName? file = some name)
    (relative : isAbsolute path = false) :
    isAbsolute (join (parent file) path) = isAbsolute file := by
  obtain ⟨front, idle, whole, -, busy, eq⟩ := exists_pieces_parent named
  cases front with
  | nil =>
      have here : parent file = "" := by
        rw [← intercalate_pieces (parent file), eq]
        rfl
      have notAbsolute : ¬ isAbsolute file := by
        rintro absolute
        obtain ⟨rest, -, first⟩ := isAbsolute_iff.1 absolute
        obtain ⟨rfl, -⟩ := List.cons_eq_cons.1 (whole.symm.trans first)
        simp [isIdle] at busy
      rw [here, join_empty relative, relative, Bool.eq_false_of_not_eq_true notAbsolute]
  | cons first front =>
      have elsewhere : parent file ≠ "" := by
        intro empty
        rw [empty] at eq
        have lengths := congrArg List.length eq
        simp [pieces, cut] at lengths
      rw [isAbsolute_join elsewhere relative, Bool.eq_iff_iff, isAbsolute_iff, isAbsolute_iff,
        whole, eq]
      simp

end Join

/-! ## Stems and extensions -/

theorem splitExtension_of_not_mem {name : String} (free : '.' ∉ name.toList) :
    splitExtension name = (name, none) := by
  have all : name.toList.reverse.takeWhile (· ≠ '.') = name.toList.reverse := by
    refine List.takeWhile_eq_self_iff.2 fun c mem => ?_
    simpa using ne_of_mem_of_not_mem (List.mem_reverse.1 mem) free
  simp only [splitExtension, all, List.reverse_reverse, true_or, if_true]

theorem splitExtension_append (stem : String) {extension : String}
    (free : '.' ∉ extension.toList) :
    splitExtension (stem ++ "." ++ extension) =
      if stem = "" then (stem ++ "." ++ extension, none) else (stem, some extension) := by
  have cs : (stem ++ "." ++ extension).toList = stem.toList ++ '.' :: extension.toList := by
    simp [String.toList_append]
  have behind : (stem.toList ++ '.' :: extension.toList).reverse.takeWhile (· ≠ '.')
      = extension.toList.reverse := by
    have (c : Char) (mem : c ∈ extension.toList.reverse) : decide (c ≠ '.') = true := by
      simpa using ne_of_mem_of_not_mem (List.mem_reverse.1 mem) free
    rw [List.reverse_append, List.reverse_cons, List.append_assoc,
      List.takeWhile_append_of_pos this]
    simp
  have before : (stem.toList ++ '.' :: extension.toList).length - extension.toList.length - 1
      = stem.toList.length := by
    simp only [List.length_append, List.length_cons]
    omega
  simp only [splitExtension, cs, behind, List.reverse_reverse, before, List.take_left]
  by_cases empty : stem = ""
  · simp [empty]
  · have long : extension.toList.length ≠ stem.toList.length + (extension.toList.length + 1) := by
      omega
    simp [empty, long]

/-- A name is split at its last point, unless nothing stands before it. -/
theorem splitExtension_eq_some {name stem extension : String} :
    splitExtension name = (stem, some extension) ↔
      stem ≠ "" ∧ '.' ∉ extension.toList ∧ name = stem ++ "." ++ extension := by
  constructor
  · intro eq
    by_cases point : '.' ∈ name.toList.reverse
    · obtain ⟨behind, before, split, free⟩ := List.eq_append_cons_of_mem point
      have whole : name = String.ofList before.reverse ++ "." ++ String.ofList behind.reverse := by
        rw [← String.toList_inj, ← List.reverse_inj, split]
        simp [String.toList_append]
      rw [whole, splitExtension_append _ (by simpa using free)] at eq
      split at eq
      · simp at eq
      · next ne =>
        cases eq
        exact ⟨ne, by simpa using free, whole⟩
    · rw [splitExtension_of_not_mem (by simpa using point)] at eq
      simp at eq
  · rintro ⟨ne, free, rfl⟩
    rw [splitExtension_append _ free, if_neg ne]

/-! ## Order -/

theorem partsLe_iff {a b : List String} :
    partsLe a b = true ↔ a = b ∨ List.Lex (· < ·) a b := by
  induction a generalizing b with
  | nil => cases b <;> simp [partsLe]
  | cons x a ih =>
      cases b with
      | nil => simp [partsLe]
      | cons y b =>
        simp only [partsLe, Bool.or_eq_true, Bool.and_eq_true, decide_eq_true_eq, beq_iff_eq, ih]
        constructor
        · rintro (less | ⟨rfl, rfl | less⟩)
          · exact .inr (.rel less)
          · exact .inl rfl
          · exact .inr (.cons less)
        · rintro (eq | less)
          · cases eq; exact .inr ⟨rfl, .inl rfl⟩
          · cases less with
            | rel less => exact .inl less
            | cons less => exact .inr ⟨rfl, .inr less⟩

theorem partsLe_trans {a b c : List String} (left : partsLe a b) (right : partsLe b c) :
    partsLe a c := by
  induction a generalizing b c with
  | nil => rfl
  | cons x a ih =>
      cases b with
      | nil => simp [partsLe] at left
      | cons y b =>
        cases c with
        | nil => simp [partsLe] at right
        | cons z c =>
          simp only [partsLe, Bool.or_eq_true, Bool.and_eq_true, decide_eq_true_eq,
            beq_iff_eq] at left right ⊢
          rcases left with left | ⟨rfl, left⟩ <;> rcases right with right | ⟨rfl, right⟩
          · exact .inl (left.trans right)
          · exact .inl left
          · exact .inl right
          · exact .inr ⟨rfl, ih left right⟩

theorem partsLe_total (a b : List String) : partsLe a b || partsLe b a := by
  induction a generalizing b with
  | nil => rfl
  | cons x a ih =>
      cases b with
      | nil => rfl
      | cons y b =>
        rcases lt_trichotomy x y with less | rfl | less
        · simp [partsLe, less]
        · simpa [partsLe] using ih b
        · simp [partsLe, less]

theorem partsLe_append_left (names : List String) {a b : List String} :
    partsLe (names ++ a) (names ++ b) = partsLe a b := by
  induction names with
  | nil => rfl
  | cons name names ih => simp [partsLe, ih]

end UiDoc.FilePath
