import UiDoc.Proofs.Expr.PathParts
import UiDoc.Proofs.Record
import UiDoc.Proofs.Script.Common

/-!
# Looking up paths without white space

An expression drops all white space from a path.  This changes what the path finds exactly if there
is white space inside of a quoted key, and not only at its ends.
-/

namespace UiDoc.Expr

open UiDoc.Path (Access accessChars accessChars_cons)

variable {cs head key : List Char} {c mark : Char} {accesses : List Access}

/-! ## Accesses without white space -/

/-- An access without white space. -/
def squeeze : Access → Access
  | .quoted mark key => .quoted mark (Script.solid key)
  | a => a

theorem solid_of_isPlain (plain : ∀ c ∈ cs, isPlain c = true) : Script.solid cs = cs :=
  Script.solid_of_not_blank fun c member => not_blank_of_isPlain (plain c member)

theorem solid_chars {a : Access} (tight : Tight a) : Script.solid a.chars = (squeeze a).chars := by
  have ends : Script.solid [']'] = [']'] := by decide
  cases a with
  | point name =>
      rw [Access.chars, Script.solid_cons (by decide), solid_of_isPlain tight.2]
      rfl
  | bracket text =>
      rw [Access.chars, Script.solid_cons (by decide), Script.solid_append, solid_of_isPlain tight,
        ends]
      rfl
  | quoted mark key =>
      have filled : ∀ mark ∈ ['"', '\''], Text.isBlank mark = false :=
        Text.forall_of_all (by decide)
      rw [Access.chars_quoted, Script.solid_cons (by decide), Script.solid_append,
        Script.solid_cons (filled mark tight.1), Script.solid_append,
        Script.solid_cons (filled mark tight.1), ends, squeeze, Access.chars_quoted]
      rfl

theorem solid_accessChars (tight : ∀ a ∈ accesses, Tight a) :
    Script.solid (accessChars accesses) = accessChars (accesses.map squeeze) := by
  induction accesses with
  | nil => rfl
  | cons a accesses ih =>
      obtain ⟨first, others⟩ := List.forall_mem_cons.1 tight
      rw [accessChars_cons, Script.solid_append, solid_chars first, ih others, List.map_cons,
        accessChars_cons]

theorem tight_squeeze {a : Access} (tight : Tight a) : Tight (squeeze a) := by
  cases a with
  | point | bracket => exact tight
  | quoted mark key =>
      exact ⟨tight.1, fun c member => tight.2 c (List.mem_filter.1 member).1⟩

/-- The segment of a key stays the same if white space stands only at its ends. -/
theorem segment_squeeze_quoted :
    (squeeze (.quoted mark key)).segment = (Access.quoted mark key).segment ↔
      ∀ c ∈ Text.trim key, Text.isBlank c = false := by
  have filled : ∀ c ∈ Script.solid key, Text.isBlank c = false :=
    fun c => Script.not_blank_of_mem_solid
  rw [squeeze, Access.segment, Access.segment, String.ofList_inj, Text.trim_of_not_blank filled]
  constructor
  · intro same
    rwa [same] at filled
  · intro tidy
    obtain ⟨lead, trail, parts, blankLead, blankTrail⟩ := Text.exists_trim key
    rw [parts, Script.solid_append, Script.solid_append, Script.solid_of_blank blankLead,
      Script.solid_of_blank blankTrail, Script.solid_of_not_blank tidy, ← parts]
    simp

theorem segment_squeeze {a : Access} :
    (squeeze a).segment = a.segment ↔
      ∀ key ∈ key? a, ∀ c ∈ Text.trim key, Text.isBlank c = false := by
  cases a with
  | point | bracket => exact iff_of_true rfl nofun
  | quoted mark key => exact segment_squeeze_quoted.trans (by simp [key?])

/-- What a path finds, by its segments. -/
theorem lookupChars_tight {scope : Scope} (plain : ∀ c ∈ head, isPlain c = true)
    (tight : ∀ a ∈ accesses, Tight a) (filled : head ++ accessChars accesses ≠ []) :
    scope.lookupChars (head ++ accessChars accesses) =
      if head = ['d', 'a', 't', 'a'] ∧ scope.dataIsRoot = true then
        if Path.behindPoint accesses = [] then some (.obj scope.merged)
        else scope.lookupChars (Path.behindPoint accesses)
      else Path.follow (scope.named? (String.ofList head)) (accesses.map Access.segment) := by
  have ends : ∀ c ∈ head, c ≠ '.' ∧ c ≠ '[' := by
    intro c member
    simpa using not_mem_of_isPlain (plain c member) (by decide : ['.', '['].all (!isPlain ·) = true)
  exact Path.lookupChars_accesses ends (fun a member => readable_of_tight (tight a member)) filled
    (trim_accessChars plain tight)

theorem squeeze_tight (tight : ∀ a ∈ accesses, Tight a) : ∀ a ∈ accesses.map squeeze, Tight a :=
  List.forall_mem_map.2 fun a member => tight_squeeze (tight a member)

/-- Equal segments are followed alike if the first name is not that of the root. -/
theorem lookupChars_squeeze_of_named {scope : Scope} (plain : ∀ c ∈ head, isPlain c = true)
    (tight : ∀ a ∈ accesses, Tight a) (same : ∀ a ∈ accesses, (squeeze a).segment = a.segment)
    (named : ¬(head = ['d', 'a', 't', 'a'] ∧ scope.dataIsRoot = true)) :
    scope.lookupChars (head ++ accessChars (accesses.map squeeze)) =
      scope.lookupChars (head ++ accessChars accesses) := by
  by_cases empty : head ++ accessChars accesses = []
  · obtain ⟨rfl, none⟩ := List.append_eq_nil_iff.1 empty
    cases accesses with
    | nil => rfl
    | cons a accesses => cases a <;> cases none
  · have filled : head ++ accessChars (accesses.map squeeze) ≠ [] := by
      intro none
      obtain ⟨rfl, none⟩ := List.append_eq_nil_iff.1 none
      cases accesses with
      | nil => exact empty rfl
      | cons a accesses => cases a <;> cases none
    have segments : (accesses.map squeeze).map Access.segment = accesses.map Access.segment := by
      rw [List.map_map]
      exact List.map_congr_left same
    rw [lookupChars_tight plain (squeeze_tight tight) filled, lookupChars_tight plain tight empty,
      if_neg named, if_neg named, segments]

/-- Equal segments are followed alike. -/
theorem lookupChars_squeeze {scope : Scope} (plain : ∀ c ∈ head, isPlain c = true)
    (tight : ∀ a ∈ accesses, Tight a) (same : ∀ a ∈ accesses, (squeeze a).segment = a.segment) :
    scope.lookupChars (head ++ accessChars (accesses.map squeeze)) =
      scope.lookupChars (head ++ accessChars accesses) := by
  induction accesses generalizing head with
  | nil => rfl
  | cons a accesses ih =>
      by_cases root : head = ['d', 'a', 't', 'a'] ∧ scope.dataIsRoot = true
      · have filled (accesses : List Access) : head ++ accessChars accesses ≠ [] := by simp [root.1]
        have unnamed : ¬(([] : List Char) = ['d', 'a', 't', 'a'] ∧ scope.dataIsRoot = true) := by
          simp
        have vacant : ∀ c ∈ ([] : List Char), isPlain c = true := nofun
        rw [lookupChars_tight plain (squeeze_tight tight) (filled _),
          lookupChars_tight plain tight (filled _), if_pos root, if_pos root]
        cases a with
        | point name =>
            -- behind the root the name is the first one of a path of its own, perhaps the root again
            obtain ⟨⟨some, parts⟩, others⟩ := List.forall_mem_cons.1 tight
            have goesOn (text : List Char) : name ++ text ≠ [] := by simp [some]
            exact (if_neg (goesOn _)).trans
              ((ih parts others (List.forall_mem_cons.1 same).2).trans (if_neg (goesOn _)).symm)
        | bracket | quoted =>
            exact (if_neg (List.cons_ne_nil _ _)).trans
              ((lookupChars_squeeze_of_named vacant tight same unnamed).trans
                (if_neg (List.cons_ne_nil _ _)).symm)
      · exact lookupChars_squeeze_of_named plain tight same root

/-! ## Values that a path reaches -/

/-- A scope in which the segments of accesses reach a value behind the first name. -/
def nestScope (head : List Char) (accesses : List Access) : Scope :=
  { data := .obj [(String.ofList head, Path.nest (accesses.map Access.segment))] }

theorem lookupChars_nestScope {others : List Access} (parts : Parts head accesses)
    (tight : ∀ a ∈ others, Tight a) :
    (nestScope head accesses).lookupChars (head ++ accessChars others) =
      Path.follow (some (Path.nest (accesses.map Access.segment))) (others.map Access.segment) := by
  obtain ⟨c, rest, filled, -⟩ := parts.starts
  have root : (nestScope head accesses).root? (String.ofList head) =
      some (Path.nest (accesses.map Access.segment)) := by
    simp [nestScope, Scope.root?, Json.get?, Json.fields, Json.obj?]
  have named : ¬(head = ['d', 'a', 't', 'a'] ∧ (nestScope head accesses).dataIsRoot = true) := by
    rintro ⟨rfl, isRoot⟩
    rw [Scope.dataIsRoot, Scope.hasRoot, show "data" = String.ofList ['d', 'a', 't', 'a'] from rfl,
      root] at isRoot
    cases isRoot
  rw [lookupChars_tight parts.plain tight (by simp [filled]), if_neg named,
    Scope.named?_eq_root? (Scope.layer?_eq_none.2 ⟨fun _ => rfl, fun _ => rfl⟩), root]

/-- Without white space a path finds the same in every scope exactly if its keys have none but at
their ends. -/
theorem lookupChars_solid (parts : Parts head accesses) :
    (∀ scope : Scope, scope.lookupChars (Script.solid (head ++ accessChars accesses)) =
        scope.lookupChars (head ++ accessChars accesses)) ↔
      ∀ key ∈ accesses.filterMap key?, ∀ c ∈ Text.trim key, Text.isBlank c = false := by
  rw [Script.solid_append, solid_of_isPlain parts.plain, solid_accessChars parts.tight]
  constructor
  · intro same key member
    have found := same (nestScope head accesses)
    rw [lookupChars_nestScope parts (squeeze_tight parts.tight),
      lookupChars_nestScope parts parts.tight, Path.follow_nest.2 rfl, Path.follow_nest,
      List.map_map] at found
    obtain ⟨a, listed, is⟩ := List.mem_filterMap.1 member
    exact segment_squeeze.1 (List.map_inj_left.1 found a listed) key is
  · intro tidy scope
    refine lookupChars_squeeze parts.plain parts.tight fun a listed => segment_squeeze.2 ?_
    exact fun key is => tidy key (List.mem_filterMap.2 ⟨a, listed, is⟩)

end UiDoc.Expr
