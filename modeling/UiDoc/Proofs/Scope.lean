import UiDoc.Proofs.Path

/-!
# Layers of a scope

The first name of a path selects the layer that the rest of the path starts in.  The root is a layer
of two parts, the variables and the data fields, and a path that starts there finds what it finds in
the one record that the two parts make up.
-/

namespace UiDoc.Scope

open UiDoc.Path (firstName splitHead)

variable {scope : Scope} {name path : String} {cs : List Char}

/-! ## Names -/

theorem named?_state : scope.named? "state" = scope.state.or (scope.root? "state") := by
  unfold named?
  cases scope.state <;> rfl

theorem named?_bindings : scope.named? "bindings" = scope.bindings.or (scope.root? "bindings") := by
  unfold named?
  cases scope.bindings <;> rfl

theorem named?_of_ne (state : name ≠ "state") (bindings : name ≠ "bindings") :
    scope.named? name = scope.root? name := by
  unfold named?
  split
  · exact absurd rfl state
  · exact absurd rfl bindings
  · rfl

/-- The layer that has this name, if it is supplied. -/
def layer? (scope : Scope) (name : String) : Value :=
  if name = "state" then scope.state else if name = "bindings" then scope.bindings else none

theorem named?_eq (scope : Scope) (name : String) :
    scope.named? name = (scope.layer? name).or (scope.root? name) := by
  by_cases state : name = "state"
  · rw [state, named?_state]
    rfl
  · by_cases bindings : name = "bindings"
    · rw [bindings, named?_bindings]
      rfl
    · rw [named?_of_ne state bindings, layer?, if_neg state, if_neg bindings, Option.none_or]

theorem layer?_eq_none : scope.layer? name = none ↔
    (name = "state" → scope.state = none) ∧ (name = "bindings" → scope.bindings = none) := by
  by_cases state : name = "state"
  · simp [layer?, state]
  · by_cases bindings : name = "bindings" <;> simp [layer?, state, bindings]

/-- A name that is that of no layer denotes what it stands for at the root. -/
theorem named?_eq_root? (elsewhere : scope.layer? name = none) :
    scope.named? name = scope.root? name := by
  rw [named?_eq, elsewhere, Option.none_or]

/-- A field of the merged root is a variable, or else a data field. -/
theorem find?_merged (distinct : (Record.names scope.context).Nodup) (name : String) :
    Record.find? scope.merged name = scope.root? name := by
  rw [merged, Record.find?_extend _ distinct, root?]
  cases Record.find? scope.context name with
  | none => rfl
  | some v => rfl

/-! ## Paths -/

/-- A path of more than white space is followed from what its first name stands for, unless this is
the root itself. -/
theorem lookupChars_of_named (filled : Text.trim cs ≠ [])
    (named : ¬((splitHead (Text.trim cs)).1 = ['d', 'a', 't', 'a'] ∧ scope.dataIsRoot = true)) :
    scope.lookupChars cs =
      Path.follow (scope.named? (String.ofList (splitHead (Text.trim cs)).1))
        (Path.segmentsFrom (.plain []) (splitHead (Text.trim cs)).2) := by
  rw [lookupChars, if_neg filled, dif_neg named, Path.bind_walk, Path.segments, String.toList_ofList]

/-- Behind the name of the root stands a path of its own, if anything. -/
theorem lookupChars_of_root (root : scope.dataIsRoot = true)
    (named : (splitHead (Text.trim cs)).1 = ['d', 'a', 't', 'a']) :
    scope.lookupChars cs =
      if (splitHead (Text.trim cs)).2 = [] then some (.obj scope.merged)
      else scope.lookupChars (splitHead (Text.trim cs)).2 := by
  have filled : Text.trim cs ≠ [] := by
    intro nothing
    rw [nothing] at named
    cases named
  rw [lookupChars, if_neg filled, dif_pos ⟨named, root⟩]

theorem firstName_eq (path : String) :
    firstName path = String.ofList (splitHead (Text.trim path.toList)).1 := by
  rw [firstName, Path.splitHead_fst]

/-- The first name of a path is not that of the root, unless something in the root has it. -/
theorem not_root (shadowed : firstName path = "data" → scope.hasRoot "data" = true) :
    ¬((splitHead (Text.trim path.toList)).1 = ['d', 'a', 't', 'a'] ∧ scope.dataIsRoot = true) := by
  rintro ⟨same, root⟩
  have present := shadowed (by rw [firstName_eq, same])
  rw [dataIsRoot, present] at root
  cases root

/-- A path whose first name is that of no layer, nor of the root itself, finds in the layers what it
finds in the root as one record. -/
theorem lookup_eq_walk (distinct : scope.context.names.Nodup) (filled : firstName path ≠ "")
    (elsewhere : scope.layer? (firstName path) = none)
    (shadowed : firstName path = "data" → scope.hasRoot "data" = true) :
    scope.lookup path = Path.walk (.obj scope.merged) (Text.trimText path) := by
  have named := not_root shadowed
  rw [firstName_eq] at filled elsewhere
  have headed : (splitHead (Text.trim path.toList)).1 ≠ [] := by
    intro nothing
    rw [nothing] at filled
    exact filled rfl
  have some : Text.trim path.toList ≠ [] := by
    intro nothing
    rw [nothing] at headed
    exact headed rfl
  have segments : Path.segments (Text.trimText path) =
      String.ofList (splitHead (Text.trim path.toList)).1 ::
        Path.segmentsFrom (.plain []) (splitHead (Text.trim path.toList)).2 := by
    rw [Path.segments, Text.trimText, String.toList_ofList, Path.segmentsFrom_splitHead,
      List.append_nil, Path.plainSegment_reverse headed, List.singleton_append]
  rw [lookup, lookupChars_of_named some named, named?_eq_root? elsewhere, ← find?_merged distinct,
    Path.walk, Path.walkSegments_eq, segments]
  rfl

/-- Data that is no object, a variable that hides the name of the root, an empty segment and a
bracket that nothing closes. -/
theorem lookup_eq_walk_shadowed :
    let rows : Json := .arr [.null, .str "b"]
    let scope : Scope :=
      { data := .arr [.null], context := [("data", .obj [("rows", rows)])], state := some .null }
    let path := " data..rows[ 1"
    (scope.context.names.Nodup ∧ firstName path ≠ "" ∧ scope.layer? (firstName path) = none ∧
        (firstName path = "data" → scope.hasRoot "data" = true)) ∧
      scope.lookup path = Path.walk (.obj scope.merged) (Text.trimText path) := by
  intro rows scope path
  have distinct : scope.context.names.Nodup := by decide
  have name : firstName path = "data" := by decide
  have filled : firstName path ≠ "" := name ▸ by decide
  have elsewhere : scope.layer? (firstName path) = none := name ▸ rfl
  have shadowed : firstName path = "data" → scope.hasRoot "data" = true := fun _ => rfl
  exact ⟨⟨distinct, filled, elsewhere, shadowed⟩,
    lookup_eq_walk distinct filled elsewhere shadowed⟩

/-! ## Joined paths -/

theorem trim_joined {source path : List Char} (filled : source ≠ [])
    (trimmed : Text.trim source = source) (filledPath : path ≠ [])
    (trimmedPath : Text.trim path = path) :
    Text.trim (source ++ '.' :: path) = source ++ '.' :: path := by
  apply Text.trim_of_ends
  · intro c first
    rw [List.head?_append_of_ne_nil _ filled, ← trimmed] at first
    exact Text.not_blank_head_trim source c first
  · intro c last
    rw [List.append_cons, List.getLast?_append_of_ne_nil _ filledPath, ← trimmedPath] at last
    exact Text.not_blank_getLast_trim path c last

/-- A path that is joined to another one goes on from what the other one finds. -/
theorem lookup_joined {source : String} (filled : source ≠ "")
    (trimmed : Text.trimText source = source) (closed : Path.Closed source)
    (shadowed : firstName source = "data" → scope.hasRoot "data" = true) (filledPath : path ≠ "")
    (trimmedPath : Text.trimText path = path) :
    scope.lookup (source ++ "." ++ path) =
      (scope.lookup source).bind fun value => Path.walk value path := by
  have chars {text : String} (filled : text ≠ "") (trimmed : Text.trimText text = text) :
      text.toList ≠ [] ∧ Text.trim text.toList = text.toList :=
    ⟨fun none => filled (String.toList_eq_nil_iff.1 none),
      by rw [← String.toList_ofList (l := Text.trim text.toList)]; exact congrArg _ trimmed⟩
  obtain ⟨some, same⟩ := chars filled trimmed
  obtain ⟨somePath, samePath⟩ := chars filledPath trimmedPath
  obtain ⟨name, outside⟩ := closed
  have joined : (source ++ "." ++ path).toList = source.toList ++ '.' :: path.toList := by
    simp
  have sameJoined := trim_joined some same somePath samePath
  have named := not_root shadowed
  have goesOn : ¬((splitHead (Text.trim (source.toList ++ '.' :: path.toList))).1 =
      ['d', 'a', 't', 'a'] ∧ scope.dataIsRoot = true) := by
    rwa [sameJoined, Path.splitHead_fst_append_point, ← same]
  rw [lookup, lookup, joined, lookupChars_of_named (by simp [sameJoined]) goesOn,
    lookupChars_of_named (by rwa [same]) named, sameJoined, same, Path.splitHead_fst_append_point,
    Path.segmentsFrom_splitHead_append_point outside, Path.follow_append, Path.bind_walk,
    Path.segments]

end UiDoc.Scope
