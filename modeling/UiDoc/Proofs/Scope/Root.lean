import UiDoc.Proofs.Path.Accesses
import UiDoc.Proofs.Scope
import UiDoc.Proofs.Text.Classes

/-!
# Paths behind the name of the root

Where nothing at the root is called `data`, this name stands for the root itself, and what follows it
is looked up as a path of its own.  So the keys behind it are keys of the root exactly if the first of
them opens such a path: it is written behind a point, and it is neither the name of a layer nor that
of the root again.
-/

namespace UiDoc.Scope

open UiDoc.Path (Access accessChars accessChars_cons behindPoint follow follow_none nest follow_nest
  splitHead walkSegments)

variable {scope other : Scope} {name : String} {cs : List Char} {a : Access}
  {accesses : List Access}

/-! ## Scopes with the same layers -/

/-- The same layers are supplied. -/
structure SameLayers (left right : Scope) : Prop where
  state : left.state.isSome = right.state.isSome
  bindings : left.bindings.isSome = right.bindings.isSome

theorem SameLayers.layer?_eq_none (same : other.SameLayers scope) :
    other.layer? name = none ↔ scope.layer? name = none := by
  rw [← Option.not_isSome_iff_eq_none, ← Option.not_isSome_iff_eq_none, layer?, layer?]
  split
  · rw [same.state]
  · split
    · rw [same.bindings]
    · rfl

/-- The same layers with other values. -/
def refill (scope : Scope) (data layer : Json) : Scope where
  data
  state := scope.state.map fun _ => layer
  bindings := scope.bindings.map fun _ => layer

variable {data layer value : Json}

theorem sameLayers_refill : (scope.refill data layer).SameLayers scope :=
  ⟨Option.isSome_map, Option.isSome_map⟩

theorem layer?_refill (name : String) :
    (scope.refill data layer).layer? name = (scope.layer? name).map fun _ => layer := by
  rw [layer?, layer?]
  split
  · rfl
  · split <;> rfl

theorem root?_refill (sought : String) :
    (scope.refill (.obj [(name, value)]) layer).root? sought =
      if sought = name then some value else none := by
  simp [root?, refill, Json.get?, Json.fields, Json.obj?]

theorem dataIsRoot_refill (other : name ≠ "data") :
    (scope.refill (.obj [(name, value)]) layer).dataIsRoot = true := by
  rw [dataIsRoot, hasRoot, root?_refill, if_neg other.symm]
  rfl

/-! ## What follows the name of the root -/

theorem splitHead_snd_suffix (cs : List Char) : (splitHead cs).2 <:+ cs := by
  induction cs with
  | nil => exact List.suffix_refl _
  | cons c cs ih =>
      rw [splitHead]
      split
      · exact List.suffix_cons c cs
      · split
        · exact List.suffix_refl _
        · exact ih.trans (List.suffix_cons c cs)

/-- If anything but a point follows the first name of a path, then more than white space does. -/
theorem trim_splitHead_ne_nil (follows : (splitHead (Text.trim cs)).2 ≠ []) :
    Text.trim (splitHead (Text.trim cs)).2 ≠ [] := by
  obtain ⟨front, whole⟩ := splitHead_snd_suffix (Text.trim cs)
  have last : (Text.trim cs).getLast? = some ((splitHead (Text.trim cs)).2.getLast follows) := by
    rw [← List.getLast?_eq_some_getLast, ← List.getLast?_append_of_ne_nil front follows, whole]
  exact Text.trim_ne_nil (List.getLast_mem follows) (Text.not_blank_getLast_trim cs _ last)

theorem length_splitHead_lt (named : (splitHead (Text.trim cs)).1 = ['d', 'a', 't', 'a']) :
    (splitHead (Text.trim cs)).2.length < cs.length := by
  have parts := Path.splitHead_length_le (Text.trim cs)
  have whole := Text.trim_length_le cs
  rw [named] at parts
  simp only [List.length_cons, List.length_nil] at parts
  omega

/-- Every path of more than white space finds something in some scope with the same layers. -/
theorem exists_found (scope : Scope) (filled : Text.trim cs ≠ []) :
    ∃ other : Scope, other.SameLayers scope ∧ other.dataIsRoot = true ∧ other.context = [] ∧
      other.lookupChars cs ≠ none := by
  induction size : cs.length using Nat.strongRecOn generalizing cs with
  | ind n ih =>
      by_cases named : (splitHead (Text.trim cs)).1 = ['d', 'a', 't', 'a']
      · by_cases ends : (splitHead (Text.trim cs)).2 = []
        · refine ⟨scope.refill .null .null, sameLayers_refill, rfl, rfl, ?_⟩
          rw [lookupChars_of_root rfl named, if_pos ends]
          nofun
        · obtain ⟨other, same, root, bare, found⟩ :=
            ih _ (size ▸ length_splitHead_lt named) (trim_splitHead_ne_nil ends) rfl
          refine ⟨other, same, root, bare, ?_⟩
          rwa [lookupChars_of_root root named, if_neg ends]
      · let name := String.ofList (splitHead (Text.trim cs)).1
        let inner := nest (Path.segmentsFrom (.plain []) (splitHead (Text.trim cs)).2)
        have elsewhere : name ≠ "data" := fun same => named (String.ofList_inj.1 same)
        let other := scope.refill (.obj [(name, inner)]) inner
        refine ⟨other, sameLayers_refill, dataIsRoot_refill elsewhere, rfl, ?_⟩
        have stands : other.named? name = some inner := by
          rw [named?_eq, layer?_refill, root?_refill, if_pos rfl]
          cases scope.layer? name <;> rfl
        rw [lookupChars_of_named filled fun both => named both.1, stands, follow_nest.2 rfl]
        nofun

/-- A layer without fields has nothing to follow. -/
theorem follow_empty_ne_null (segments : List String) :
    follow (some (.obj [])) segments ≠ some .null := by
  cases segments with
  | nil => nofun
  | cons segment segments =>
      have next : follow (some (.obj [])) (segment :: segments) = follow none segments := rfl
      rw [next, follow_none]
      nofun

/-- No path reaches a value at the root whose name has white space in front. -/
theorem lookupChars_ne_null {blank : Char} {key : List Char} (isBlank : Text.isBlank blank = true)
    (cs : List Char) :
    (scope.refill (.obj [(String.ofList (blank :: key), value)]) (.obj [])).lookupChars cs ≠
      some .null := by
  have elsewhere : String.ofList (blank :: key) ≠ "data" := by
    intro same
    obtain ⟨rfl, -⟩ := List.cons.inj (String.ofList_inj.1 same)
    exact absurd isBlank (by decide)
  have root : (scope.refill (.obj [(String.ofList (blank :: key), value)]) (.obj [])).dataIsRoot =
      true := dataIsRoot_refill elsewhere
  -- The name of the root makes the path shorter.  Any other first name is that of an empty layer or
  -- of nothing, for a trimmed path starts with no white space.
  induction size : cs.length using Nat.strongRecOn generalizing cs with
  | ind n ih =>
      by_cases filled : Text.trim cs = []
      · rw [lookupChars, if_pos filled]
        simp
      · by_cases named : (splitHead (Text.trim cs)).1 = ['d', 'a', 't', 'a']
        · rw [lookupChars_of_root root named]
          split
          · simp
          · exact ih _ (size ▸ length_splitHead_lt named) _ rfl
        · have differs : String.ofList (splitHead (Text.trim cs)).1 ≠
              String.ofList (blank :: key) := by
            intro same
            have starts := List.takeWhile_prefix (l := Text.trim cs)
              fun c => decide (c ≠ '.' ∧ c ≠ '[')
            rw [← Path.splitHead_fst, String.ofList_inj.1 same] at starts
            obtain ⟨rest, whole⟩ := starts
            have first := Text.not_blank_head_trim cs blank (whole ▸ rfl)
            rw [isBlank] at first
            cases first
          rw [lookupChars_of_named filled fun both => named both.1, named?_eq, layer?_refill,
            root?_refill, if_neg differs, Option.or_none]
          cases scope.layer? (String.ofList (splitHead (Text.trim cs)).1) with
          | none =>
              rw [Option.map_none, follow_none]
              simp
          | some supplied => exact follow_empty_ne_null _

/-! ## Keys of the root -/

/-- Keys behind the name of the root go on in the root: the first of them is a name behind a point
that starts a path, and it stands neither for a layer nor for the root again. -/
def Opens (scope : Scope) : Access → Prop
  | .point name =>
      (∀ c ∈ name.head?, Text.isBlank c = false) ∧ String.ofList name ≠ "data" ∧
        scope.layer? (String.ofList name) = none
  | .bracket _ | .quoted _ _ => False

theorem SameLayers.opens (same : other.SameLayers scope) : other.Opens a ↔ scope.Opens a := by
  cases a with
  | point name => simp only [Opens, same.layer?_eq_none]
  | bracket | quoted => exact Iff.rfl

/-- The text of a path of keys behind the name of the root. -/
def behindRoot (accesses : List Access) : String :=
  String.ofList ("data".toList ++ accessChars accesses)

theorem behindPoint_suffix (accesses : List Access) :
    behindPoint accesses <:+ accessChars accesses := by
  match accesses with
  | [] | .bracket _ :: _ | .quoted _ _ :: _ => exact List.suffix_refl _
  | .point _ :: _ => exact List.suffix_cons _ _

theorem behindPoint_ne_nil (readable : a.Readable) (accesses : List Access) :
    behindPoint (a :: accesses) ≠ [] := by
  cases a with
  | point name => exact List.append_ne_nil_of_left_ne_nil readable.1 _
  | bracket | quoted => exact List.cons_ne_nil _ _

section

variable (readable : ∀ b ∈ a :: accesses, b.Readable)
  (ends : ∀ c ∈ (accessChars (a :: accesses)).getLast?, Text.isBlank c = false)

include readable ends

theorem not_blank_getLast_behindPoint :
    ∀ c ∈ (behindPoint (a :: accesses)).getLast?, Text.isBlank c = false := by
  intro c last
  obtain ⟨front, whole⟩ := behindPoint_suffix (a :: accesses)
  have some := behindPoint_ne_nil (List.forall_mem_cons.1 readable).1 accesses
  exact ends c (whole ▸ List.getLast?_append_of_ne_nil front some ▸ last)

/-- Behind the name of the root, accesses are looked up as a path of their own. -/
theorem lookup_behindRoot (root : scope.dataIsRoot = true) :
    scope.lookup (behindRoot (a :: accesses)) =
      scope.lookupChars (behindPoint (a :: accesses)) := by
  have some := behindPoint_ne_nil (List.forall_mem_cons.1 readable).1 accesses
  have trimmed : Text.trim ("data".toList ++ accessChars (a :: accesses)) =
      "data".toList ++ accessChars (a :: accesses) := by
    apply Text.trim_of_ends
    · intro c first
      cases first
      decide
    · intro c last
      rw [List.getLast?_append_of_ne_nil] at last
      · exact ends c last
      · exact fun none => some (List.suffix_nil.1 (none ▸ behindPoint_suffix _))
  have named : ∀ c ∈ "data".toList, c ≠ '.' ∧ c ≠ '[' := Text.forall_of_all (by decide)
  have text : (behindRoot (a :: accesses)).toList = "data".toList ++ accessChars (a :: accesses) :=
    String.toList_ofList
  rw [lookup, text, Path.lookupChars_accesses named readable (by simp) trimmed,
    if_pos ⟨rfl, root⟩, if_neg some]

theorem trim_behindPoint_ne_nil : Text.trim (behindPoint (a :: accesses)) ≠ [] := by
  have some := behindPoint_ne_nil (List.forall_mem_cons.1 readable).1 accesses
  have last := not_blank_getLast_behindPoint readable ends _ (List.getLast?_eq_some_getLast some)
  exact Text.trim_ne_nil (List.getLast_mem some) last

theorem trim_behindPoint
    (front : ∀ c ∈ (behindPoint (a :: accesses)).head?, Text.isBlank c = false) :
    Text.trim (behindPoint (a :: accesses)) = behindPoint (a :: accesses) :=
  Text.trim_of_ends front (not_blank_getLast_behindPoint readable ends)

/-- A first access between brackets is no name, so it is taken for one behind the empty name. -/
theorem lookupChars_nameless (brackets : behindPoint (a :: accesses) = accessChars (a :: accesses)) :
    scope.lookupChars (behindPoint (a :: accesses)) =
      follow (scope.named? "") ((a :: accesses).map Access.segment) := by
  have trimmed := trim_behindPoint readable ends
  have some := behindPoint_ne_nil (List.forall_mem_cons.1 readable).1 accesses
  rw [brackets] at trimmed some ⊢
  have opened : ∀ c ∈ (accessChars (a :: accesses)).head?, Text.isBlank c = false := by
    cases a with
    | point name => exact absurd (congrArg List.length brackets) (by simp [behindPoint, Access.chars])
    | bracket | quoted =>
        intro c first
        cases first
        decide
  have nameless : ∀ c ∈ ([] : List Char), c ≠ '.' ∧ c ≠ '[' := List.forall_mem_nil _
  refine (Path.lookupChars_accesses nameless readable some (trimmed opened)).trans ?_
  exact if_neg (by simp)

omit readable ends in
/-- A first access behind a point is the first name. -/
theorem lookupChars_point {name : List Char}
    (readable : ∀ b ∈ .point name :: accesses, b.Readable)
    (ends : ∀ c ∈ (accessChars (.point name :: accesses)).getLast?, Text.isBlank c = false)
    (front : ∀ c ∈ name.head?, Text.isBlank c = false) (elsewhere : String.ofList name ≠ "data") :
    scope.lookupChars (behindPoint (.point name :: accesses)) =
      follow (scope.named? (String.ofList name)) (accesses.map Access.segment) := by
  obtain ⟨⟨some, parts⟩, others⟩ := List.forall_mem_cons.1 readable
  have trimmed := trim_behindPoint readable ends
  rw [behindPoint, List.head?_append_of_ne_nil _ some] at trimmed
  have filled : name ++ accessChars accesses ≠ [] := List.append_ne_nil_of_left_ne_nil some _
  refine (Path.lookupChars_accesses parts others filled (trimmed front)).trans ?_
  exact if_neg fun both => elsewhere (String.ofList_inj.2 both.1)

/-- Keys that open a path are found behind the name of the root. -/
theorem Opens.lookup_keys (opens : scope.Opens a) (root : scope.dataIsRoot = true)
    (distinct : scope.context.names.Nodup) :
    scope.lookup (behindRoot (a :: accesses)) =
      walkSegments (.obj scope.merged) ((a :: accesses).map Access.segment) := by
  cases a with
  | bracket | quoted => exact opens.elim
  | point name =>
      obtain ⟨front, elsewhere, layer⟩ := opens
      rw [lookup_behindRoot readable ends root, lookupChars_point readable ends front elsewhere,
        named?_eq_root? layer, ← find?_merged distinct, Path.walkSegments_eq]
      rfl

/-- What is found in a root that has these keys and nothing else, and in empty layers, is behind a
key that opens a path. -/
theorem opens_of_reached (elsewhere : a.segment ≠ "data")
    (reached : (scope.refill (.obj [(a.segment, nest (accesses.map Access.segment))])
      (.obj [])).lookupChars (behindPoint (a :: accesses)) = some .null) : scope.Opens a := by
  cases a with
  | point name =>
      have front : ∀ c ∈ name.head?, Text.isBlank c = false := by
        intro c first
        obtain ⟨rest, rfl⟩ := List.head?_eq_some_iff.1 first
        by_contra blank
        exact lookupChars_ne_null (by simpa using blank) _ reached
      refine ⟨front, elsewhere, ?_⟩
      cases supplied : scope.layer? (String.ofList name) with
      | none => rfl
      | some v =>
          rw [lookupChars_point readable ends front elsewhere, named?_eq, layer?_refill,
            supplied] at reached
          exact absurd reached (follow_empty_ne_null _)
  | bracket | quoted =>
      rw [lookupChars_nameless readable ends rfl, named?_eq_root? rfl, root?_refill] at reached
      split at reached
      · have same := follow_nest.1 reached
        exact absurd (congrArg List.length same) (by simp)
      · rw [follow_none] at reached
        cases reached

/-- Keys behind the name of the root are those of the root as one record, in all scopes with the
same layers in which nothing has this name, exactly if the first of them opens a path. -/
theorem lookup_behind_data (scope : Scope) :
    (∀ other : Scope, other.SameLayers scope → other.dataIsRoot = true →
        other.context.names.Nodup →
          other.lookup (behindRoot (a :: accesses)) =
            walkSegments (.obj other.merged) ((a :: accesses).map Access.segment)) ↔
      scope.Opens a := by
  constructor
  · intro agree
    have elsewhere : a.segment ≠ "data" := by
      -- Nothing in the root has this name, but some root has something behind it.
      intro same
      obtain ⟨other, layers, root, bare, found⟩ :=
        exists_found scope (trim_behindPoint_ne_nil readable ends)
      have distinct : other.context.names.Nodup := bare ▸ List.nodup_nil
      have missing : other.root? "data" = none := by
        simpa [dataIsRoot, hasRoot] using root
      have nothing := agree other layers root distinct
      rw [lookup_behindRoot readable ends root, Path.walkSegments_eq, List.map_cons, same] at nothing
      apply found
      rw [nothing]
      have first : follow (some (.obj other.merged)) ("data" :: accesses.map Access.segment) =
          follow (Record.find? other.merged "data") (accesses.map Access.segment) := rfl
      rw [first, find?_merged distinct, missing, follow_none]
    let inner := nest (accesses.map Access.segment)
    let other := scope.refill (.obj [(a.segment, inner)]) (.obj [])
    have root : other.dataIsRoot = true := dataIsRoot_refill elsewhere
    apply opens_of_reached readable ends elsewhere
    have whole : Json.obj other.merged = nest ((a :: accesses).map Access.segment) := rfl
    rw [← lookup_behindRoot readable ends root,
      agree other sameLayers_refill root List.nodup_nil, Path.walkSegments_eq, whole,
      follow_nest.2 rfl]
  · intro opens other layers root distinct
    exact (layers.opens.2 opens).lookup_keys readable ends root distinct

end

/-- A key that would be the name of a layer if one were supplied, and one with a point and a bracket
in it. -/
theorem lookup_behind_data_state :
    let accesses : List Access := [.point "state".toList, .quoted '"' "a.]".toList]
    let scope : Scope := {
      data := .obj [("state", .null)]
      context := [("state", .obj [("a.]", .int 1)])]
      bindings := some (.obj [("state", .null)]) }
    ((∀ b ∈ accesses, b.Readable) ∧
        ∀ c ∈ (accessChars accesses).getLast?, Text.isBlank c = false) ∧
      scope.lookup "data.state[\"a.]\"]" =
        walkSegments (.obj scope.merged) (accesses.map Access.segment) := by
  intro accesses scope
  have readable : ∀ b ∈ accesses, b.Readable :=
    List.forall_mem_cons.2 ⟨⟨by decide, Text.forall_of_all (by decide)⟩,
      List.forall_mem_singleton.2 ⟨by decide, Text.forall_of_all (by decide)⟩⟩
  have ends : ∀ c ∈ (accessChars accesses).getLast?, Text.isBlank c = false := by
    rintro c ⟨⟩
    rfl
  have front : ∀ c ∈ "state".toList.head?, Text.isBlank c = false := by
    rintro c ⟨⟩
    rfl
  have opens : scope.Opens (.point "state".toList) := ⟨front, by decide, rfl⟩
  exact ⟨⟨readable, ends⟩, (lookup_behind_data readable ends scope).2 opens scope ⟨rfl, rfl⟩ rfl
    (by decide)⟩

/-- Keys of the root that are not found behind its name: one between brackets, the name of a supplied
layer, the name of the root, and one with white space in front. -/
theorem lookup_behind_data_ne :
    let scope : Scope := {
      data := .obj [("a", .int 1), ("state", .int 2), (" b", .int 3)]
      state := some (.int 4) }
    (scope.dataIsRoot = true ∧ scope.context.names.Nodup) ∧
      ∀ a ∈ [Access.quoted '\'' ['a'], .point "state".toList, .point "data".toList,
          .point " b".toList],
        a.Readable ∧ scope.lookup (behindRoot [a]) ≠
          walkSegments (.obj scope.merged) [a.segment] := by
  intro scope
  have differ : ∀ a : Access, (scope.lookup (behindRoot [a])).map Json.print ≠
      (walkSegments (.obj scope.merged) [a.segment]).map Json.print →
      scope.lookup (behindRoot [a]) ≠ walkSegments (.obj scope.merged) [a.segment] :=
    fun a differs same => differs (congrArg _ same)
  refine ⟨⟨rfl, List.nodup_nil⟩, List.forall_mem_cons.2 ⟨?quoted, List.forall_mem_cons.2 ⟨?layer,
    List.forall_mem_cons.2 ⟨?again, List.forall_mem_singleton.2 ?blank⟩⟩⟩⟩
  case quoted => exact ⟨⟨by decide, Text.forall_of_all (by decide)⟩, differ _ (by decide +kernel)⟩
  case layer => exact ⟨⟨by decide, Text.forall_of_all (by decide)⟩, differ _ (by decide +kernel)⟩
  case again => exact ⟨⟨by decide, Text.forall_of_all (by decide)⟩, differ _ (by decide +kernel)⟩
  case blank => exact ⟨⟨by decide, Text.forall_of_all (by decide)⟩, differ _ (by decide +kernel)⟩

end UiDoc.Scope
