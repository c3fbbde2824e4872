import Mathlib.Data.List.Nodup
import Mathlib.Data.List.TakeWhile
import UiDoc.Proofs.Record

/-!
# The order of names

A name that is set for the first time goes to the end of a record, and the last name takes the place
of one that is removed.  So names that are declared in some order stay in this order until one of
them is moved past another.
-/

namespace UiDoc.Record

variable {α : Type}

/-! ## Names of records -/

/-- The names that are left when one is removed. -/
def takeOut (name : String) : List String → List String
  | [] => []
  | first :: rest =>
      if first = name then rest.getLast?.toList ++ rest.dropLast else first :: takeOut name rest

variable {name : String} {names front back : List String}

theorem takeOut_append (fresh : name ∉ front) (back : List String) :
    takeOut name (front ++ back) = front ++ takeOut name back := by
  induction front with
  | nil => rfl
  | cons first rest ih =>
      have differs : name ≠ first := List.ne_of_not_mem_cons fresh
      rw [List.cons_append, takeOut, if_neg (Ne.symm differs),
        ih (List.not_mem_of_not_mem_cons fresh), List.cons_append]

theorem takeOut_of_not_mem (fresh : name ∉ names) : takeOut name names = names := by
  simpa [takeOut] using takeOut_append fresh []

theorem takeOut_append_cons (fresh : name ∉ front) (back : List String) :
    takeOut name (front ++ name :: back) = front ++ (back.getLast?.toList ++ back.dropLast) := by
  rw [takeOut_append fresh, takeOut, if_pos rfl]

theorem names_replaceField {init : Record α} (member : name ∈ init.names) (last : String × α) :
    (init.replaceField name (some last)).names = takeOut name (init.names ++ [last.1]) := by
  induction init with
  | nil => cases member
  | cons field rest ih =>
      obtain ⟨key, old⟩ := field
      rw [replaceField, names_cons, List.cons_append, takeOut]
      by_cases same : key = name
      · rw [if_pos same, if_pos same]
        simp [names]
      · have later : name ∈ names rest := (List.mem_cons.1 member).resolve_left (Ne.symm same)
        rw [if_neg same, if_neg same, names_cons, ih later]

theorem names_erase {r : Record α} (distinct : r.names.Nodup) (name : String) :
    (r.erase name).names = takeOut name r.names := by
  rcases List.eq_nil_or_concat r with rfl | ⟨init, last, same⟩
  · rfl
  · rw [List.concat_eq_append] at same
    subst same
    have split : names (init ++ [last]) = names init ++ [last.1] := List.map_append ..
    rw [split] at distinct ⊢
    rw [erase_append_singleton]
    split
    next final =>
      have fresh : name ∉ names init := by
        intro member
        exact (List.nodup_append.1 distinct).2.2 name member last.1 (by simp) final.symm
      rw [← final] at fresh ⊢
      rw [takeOut_append_cons fresh]
      simp
    next differs =>
      split
      next present =>
        rw [has_eq_true, split, List.mem_append, List.mem_singleton] at present
        exact names_replaceField (present.resolve_right (Ne.symm differs)) last
      next absent =>
        rw [has_eq_true, split] at absent
        rw [split, takeOut_of_not_mem absent]

/-! ## Changes -/

/-- What happens to the names of a record. -/
inductive Change where
  | put (name : String)
  | drop (name : String)
  deriving DecidableEq, Repr

/-- The names after a change. -/
def Change.apply : Change → List String → List String
  | .put name, names => if name ∈ names then names else names ++ [name]
  | .drop name, names => takeOut name names

/-- The names after some changes. -/
def after (changes : List Change) (names : List String) : List String :=
  changes.foldl (fun names change => change.apply names) names

theorem after_append (first second : List Change) (names : List String) :
    after (first ++ second) names = after second (after first names) :=
  List.foldl_append ..

theorem nodup_takeOut (distinct : names.Nodup) (name : String) : (takeOut name names).Nodup := by
  by_cases member : name ∈ names
  · obtain ⟨front, back, rfl, fresh⟩ := List.eq_append_cons_of_mem member
    rw [takeOut_append_cons fresh]
    have fewer : (front ++ back).Nodup :=
      distinct.sublist ((List.sublist_cons_self name back).append_left front)
    rcases List.eq_nil_or_concat back with rfl | ⟨between, last, rfl⟩
    · exact fewer
    · refine List.Perm.nodup (List.Perm.append_left front ?_) fewer
      simp
  · rwa [takeOut_of_not_mem member]

theorem nodup_apply (distinct : names.Nodup) (change : Change) : (change.apply names).Nodup := by
  cases change with
  | put name =>
      simp only [Change.apply]
      split
      next => exact distinct
      next fresh =>
        rw [List.nodup_append]
        refine ⟨distinct, List.nodup_singleton name, ?_⟩
        intro other member final single same
        exact fresh (List.mem_singleton.1 single ▸ same ▸ member)
  | drop name => exact nodup_takeOut distinct name

theorem nodup_after (distinct : names.Nodup) (changes : List Change) :
    (after changes names).Nodup := by
  induction changes generalizing names with
  | nil => exact distinct
  | cons change rest ih => exact ih (nodup_apply distinct change)

/-! ## Declared names -/

/-- If both names are declared, then the first one earlier. -/
def Precedes (declared : List String) (name other : String) : Prop :=
  name ∈ declared → other ∈ declared → declared.idxOf name < declared.idxOf other

/-- Those of the names that are declared stand in the order in which they are declared. -/
def InOrder (declared names : List String) : Prop :=
  names.Pairwise (Precedes declared)

/-- The names that stand behind a name. -/
def behind (name : String) (names : List String) : List String :=
  (names.dropWhile (· ≠ name)).tail

/-- The change moves a declared name past another one: a name that returns goes behind all others,
and the last name goes in front of those behind the one that is removed. -/
def Change.Displaces (declared names : List String) : Change → Prop
  | .put name => name ∉ names ∧ name ∈ declared ∧
      ∃ other ∈ names, other ∈ declared ∧ declared.idxOf name < declared.idxOf other
  | .drop name => ∃ last ∈ (behind name names).getLast?, last ∈ declared ∧
      ∃ other ∈ (behind name names).dropLast, other ∈ declared

instance (declared : List String) (name other : String) :
    Decidable (Precedes declared name other) :=
  inferInstanceAs (Decidable (name ∈ declared → other ∈ declared → _))

instance (declared names : List String) : Decidable (InOrder declared names) :=
  inferInstanceAs (Decidable (names.Pairwise (Precedes declared)))

instance (declared names : List String) (change : Change) :
    Decidable (change.Displaces declared names) :=
  match change with
  | .put name => inferInstanceAs (Decidable (name ∉ names ∧ name ∈ declared ∧ ∃ _ ∈ names, _))
  | .drop name => inferInstanceAs (Decidable (∃ _ ∈ (behind name names).getLast?, _))

variable {declared : List String} {other : String}

theorem behind_append_cons (fresh : name ∉ front) (back : List String) :
    behind name (front ++ name :: back) = back := by
  have passed : ∀ other ∈ front, decide (other ≠ name) = true := by
    intro other member
    exact decide_eq_true fun same => fresh (same ▸ member)
  rw [behind, List.dropWhile_append_of_pos passed, List.dropWhile_cons_of_neg (by simp),
    List.tail_cons]

theorem behind_of_not_mem (fresh : name ∉ names) : behind name names = [] := by
  have passed : ∀ other ∈ names, decide (other ≠ name) = true := by
    intro other member
    exact decide_eq_true fun same => fresh (same ▸ member)
  rw [behind, List.dropWhile_eq_nil_iff.2 passed, List.tail_nil]

theorem inOrder_self (distinct : declared.Nodup) : InOrder declared declared := by
  apply List.pairwise_iff_getElem.2
  intro i j hi hj less _ _
  rwa [distinct.idxOf_getElem, distinct.idxOf_getElem]

/-- Two declared names do not precede each other. -/
theorem Precedes.asymm (precedes : Precedes declared name other) (first : name ∈ declared)
    (second : other ∈ declared) : ¬ Precedes declared other name := by
  intro back
  exact Nat.lt_asymm (precedes first second) (back second first)

theorem precedes_or_lt (differ : name ≠ other) (known : name ∈ declared) :
    declared.idxOf name < declared.idxOf other ∨ declared.idxOf other < declared.idxOf name := by
  apply Nat.lt_or_gt_of_ne
  intro same
  exact differ ((List.idxOf_inj known).1 same)

/-- A name that is set keeps the order of the declared ones, unless it goes behind a later one. -/
theorem inOrder_put (ordered : InOrder declared names) (name : String) :
    InOrder declared ((Change.put name).apply names) ↔
      ¬ (Change.put name).Displaces declared names := by
  simp only [Change.apply, Change.Displaces]
  split
  next present =>
    constructor
    · rintro - ⟨fresh, -⟩
      exact fresh present
    · exact fun _ => ordered
  next fresh =>
    rw [InOrder, List.pairwise_append]
    constructor
    · rintro ⟨-, -, last⟩ ⟨-, known, other, member, knownOther, less⟩
      exact Nat.lt_asymm less (last other member name (List.mem_singleton_self name) knownOther
        known)
    · intro calm
      refine ⟨ordered, List.pairwise_singleton _ _, ?_⟩
      intro other member final single knownOther known
      obtain rfl := List.mem_singleton.1 single
      have differ : other ≠ final := fun same => fresh (same ▸ member)
      refine (precedes_or_lt differ knownOther).resolve_right fun less => calm ?_
      exact ⟨fresh, known, other, member, knownOther, less⟩

/-- A name that is removed keeps the order of the declared ones, unless the last name is one of them
and goes past another one. -/
theorem inOrder_drop (ordered : InOrder declared names) (name : String) :
    InOrder declared ((Change.drop name).apply names) ↔
      ¬ (Change.drop name).Displaces declared names := by
  simp only [Change.apply, Change.Displaces]
  by_cases member : name ∈ names
  · obtain ⟨front, back, rfl, fresh⟩ := List.eq_append_cons_of_mem member
    rw [takeOut_append_cons fresh, behind_append_cons fresh]
    have left : InOrder declared (front ++ back) :=
      ordered.sublist ((List.sublist_cons_self name back).append_left front)
    rcases List.eq_nil_or_concat back with rfl | ⟨between, last, rfl⟩
    · constructor
      · rintro - ⟨last, found, -⟩
        cases found
      · exact fun _ => left
    · simp only [List.concat_eq_append, List.getLast?_concat, List.dropLast_concat,
        Option.toList_some, List.singleton_append, Option.mem_some_iff, exists_eq_left'] at left ⊢
      obtain ⟨early, late, apart⟩ := List.pairwise_append.1 left
      obtain ⟨inner, -, ends⟩ := List.pairwise_append.1 late
      have towards : ∀ other ∈ between, Precedes declared other last := by
        intro other within
        exact ends other within last (List.mem_singleton_self last)
      rw [InOrder, List.pairwise_append, List.pairwise_cons]
      constructor
      · rintro ⟨-, ⟨moved, -⟩, -⟩ ⟨known, other, within, knownOther⟩
        exact (towards other within).asymm knownOther known (moved other within)
      · intro calm
        refine ⟨early, ⟨?_, inner⟩, ?_⟩
        · intro other within known knownOther
          exact absurd ⟨known, other, within, knownOther⟩ calm
        · intro first begins other within
          apply apart first begins
          rw [List.mem_append, List.mem_singleton]
          exact (List.mem_cons.1 within).symm
  · rw [takeOut_of_not_mem member, behind_of_not_mem member]
    constructor
    · rintro - ⟨last, found, -⟩
      cases found
    · exact fun _ => ordered

/-- A change keeps the order of the declared names exactly if it moves none of them past another. -/
theorem inOrder_apply (ordered : InOrder declared names) (change : Change) :
    InOrder declared (change.apply names) ↔ ¬ change.Displaces declared names := by
  cases change with
  | put name => exact inOrder_put ordered name
  | drop name => exact inOrder_drop ordered name

/-- The names after the first so many changes. -/
def stage (changes : List Change) (names : List String) (k : Nat) : List String :=
  after (changes.take k) names

theorem stage_succ (changes : List Change) (names : List String) (k : Nat) :
    stage changes names (k + 1) = after changes[k]?.toList (stage changes names k) := by
  rw [stage, List.take_add_one, after_append, stage]

theorem stage_length (changes : List Change) (names : List String) :
    stage changes names changes.length = after changes names := by
  rw [stage, List.take_length]

/-- The declared names stay in order all the time exactly if no change moves one of them past
another. -/
theorem inOrder_stages (ordered : InOrder declared names) (changes : List Change) :
    (∀ k, InOrder declared (stage changes names k)) ↔
      ∀ (k : Nat) (_ : k < changes.length),
        ¬ changes[k].Displaces declared (stage changes names k) := by
  constructor
  · intro always k within
    have next := always (k + 1)
    rw [stage_succ, List.getElem?_eq_getElem within] at next
    exact (inOrder_apply (always k) changes[k]).1 next
  · intro calm k
    induction k with
    | zero => exact ordered
    | succ k ih =>
        rw [stage_succ]
        by_cases within : k < changes.length
        · rw [List.getElem?_eq_getElem within]
          exact (inOrder_apply ih changes[k]).2 (calm k within)
        · rw [List.getElem?_eq_none (Nat.le_of_not_lt within)]
          exact ih

end UiDoc.Record
