import UiDoc.Registry

/-!
# Reading records

What a record says about a name after a change.  All other modules read records through these
equations, whatever the order of the fields.
-/

namespace UiDoc.Record

variable {α β : Type} {r : Record α} {name other : String} {value : α}

@[simp] theorem find?_nil (name : String) : find? ([] : Record α) name = none := rfl

@[simp] theorem find?_cons (key : String) (value : α) (r : Record α) (name : String) :
    find? ((key, value) :: r) name = if name = key then some value else find? r name := by
  by_cases same : name = key
  · subst same
    simp [find?]
  · have differs : (name == key) = false := by simpa using same
    simp [find?, List.lookup_cons, differs, same]

@[simp] theorem names_cons (field : String × α) (r : Record α) :
    names (field :: r) = field.1 :: names r := rfl

/-- Fields hide those behind them. -/
theorem find?_append (r s : Record α) (name : String) :
    find? (r ++ s) name = (find? r name).or (find? s name) := by
  induction r with
  | nil => rfl
  | cons field rest ih =>
      obtain ⟨key, value⟩ := field
      by_cases same : name = key <;> simp [same, ih]

/-- A name has no value exactly if no field has that name. -/
theorem find?_eq_none : find? r name = none ↔ name ∉ names r := by
  induction r with
  | nil => simp [names]
  | cons field rest ih =>
      obtain ⟨key, value⟩ := field
      by_cases same : name = key <;> simp [same, ih]

theorem mem_names_of_find? (found : find? r name = some value) : name ∈ names r := by
  cases present : decide (name ∈ names r) with
  | true => exact of_decide_eq_true present
  | false =>
      rw [find?_eq_none.2 (of_decide_eq_false present)] at found
      cases found

theorem mem_of_find? (found : find? r name = some value) : (name, value) ∈ r := by
  induction r with
  | nil => simp at found
  | cons field rest ih =>
      obtain ⟨key, old⟩ := field
      by_cases same : name = key
      · simp_all
      · simp only [find?_cons, same, if_false] at found
        exact List.mem_cons_of_mem _ (ih found)

/-- Setting a name changes the value of this name alone. -/
theorem find?_insert (r : Record α) (name : String) (value : α) (other : String) :
    find? (insert r name value) other = if other = name then some value else find? r other := by
  induction r with
  | nil => simp [insert]
  | cons field rest ih =>
      obtain ⟨key, old⟩ := field
      by_cases same : key = name
      · subst same
        by_cases sought : other = key <;> simp [insert, sought]
      · by_cases sought : other = key
        · subst sought
          simp [insert, same]
        · simp [insert, same, sought, ih]

@[simp] theorem find?_insert_self (r : Record α) (name : String) (value : α) :
    find? (insert r name value) name = some value := by
  simp [find?_insert]

theorem find?_insert_of_ne (value : α) (differs : other ≠ name) :
    find? (insert r name value) other = find? r other := by
  simp [find?_insert, differs]

@[simp] theorem without_cons (field : String × α) (r : Record α) (name : String) :
    without (field :: r) name =
      if field.1 = name then without r name else field :: without r name := by
  by_cases same : field.1 = name <;> simp [without, same]

/-- Leaving a name out changes the value of this name alone. -/
theorem find?_without (r : Record α) (name other : String) :
    find? (r.without name) other = if other = name then none else find? r other := by
  induction r with
  | nil => simp [without]
  | cons field rest ih =>
      obtain ⟨key, old⟩ := field
      by_cases same : key = name
      · subst same
        by_cases sought : other = key
        · subst sought
          simpa using ih
        · simpa [sought] using ih
      · by_cases sought : other = key
        · subst sought
          simp [same]
        · simp [same, sought, ih]

/-- Fields that are changed one by one, under the same names. -/
theorem find?_map_fields {change : String × α → String × β}
    (keeps : ∀ field, (change field).1 = field.1) (r : Record α) (name : String) :
    find? (r.map change) name = (find? r name).map fun value => (change (name, value)).2 := by
  induction r with
  | nil => simp
  | cons field rest ih =>
      obtain ⟨key, value⟩ := field
      rw [List.map_cons, find?_cons, find?_cons, keeps, ih]
      split
      · rename_i same
        rw [same, Option.map_some]
      · rfl

theorem find?_map (f : α → β) (r : Record α) (name : String) :
    find? (r.map fun field => (field.1, f field.2)) name = (find? r name).map f := by
  rw [find?_map_fields]
  exact fun _ => rfl

/-- The first field whose name passes a test is the field of the first such name. -/
theorem find?_name (test : String → Bool) (r : Record α) :
    List.find? (fun field => test field.1) r =
      (List.find? test (names r)).bind fun name =>
        (find? r name).map fun value => (name, value) := by
  induction r with
  | nil => rfl
  | cons field rest ih =>
      obtain ⟨key, value⟩ := field
      by_cases passes : test key = true
      · simp [passes]
      · simp only [Bool.not_eq_true] at passes
        simp only [List.find?_cons, passes, names_cons, ih]
        -- A name that passes is not the name of the first field.
        cases later : List.find? test (names rest) with
        | none => rfl
        | some name =>
            have differs : name ≠ key := by
              rintro rfl
              simp [List.find?_some later] at passes
            simp [differs]

theorem names_insert (r : Record α) (name : String) (value : α) :
    names (insert r name value) = if name ∈ names r then names r else names r ++ [name] := by
  induction r with
  | nil => rfl
  | cons field rest ih =>
      obtain ⟨key, old⟩ := field
      by_cases same : key = name
      · simp [insert, same]
      · by_cases member : name ∈ names rest <;>
          simp [insert, same, Ne.symm same, ih, member]

theorem names_insert_of_mem (value : α) (member : name ∈ names r) :
    names (insert r name value) = names r := by
  rw [names_insert, if_pos member]

/-- A name that is set for the first time goes to the end. -/
theorem insert_of_not_mem (value : α) (fresh : name ∉ names r) :
    insert r name value = r ++ [(name, value)] := by
  induction r with
  | nil => rfl
  | cons field rest ih =>
      obtain ⟨key, old⟩ := field
      simp only [names_cons, List.mem_cons, not_or] at fresh
      simp [insert, Ne.symm fresh.1, ih fresh.2]

theorem eq_or_mem_of_mem_insert {field : String × α} (member : field ∈ insert r name value) :
    field = (name, value) ∨ field ∈ r := by
  induction r with
  | nil => simpa [insert] using member
  | cons first rest ih =>
      obtain ⟨key, old⟩ := first
      by_cases same : key = name
      · simp only [insert, same, if_true, List.mem_cons] at member ⊢
        exact member.imp_right .inr
      · simp only [insert, same, if_false, List.mem_cons] at member ⊢
        rcases member with first | later
        · exact .inr (.inl first)
        · exact (ih later).imp_right .inr

theorem mem_or_mem_of_mem_extend {more : Record α} {field : String × α}
    (member : field ∈ extend r more) : field ∈ r ∨ field ∈ more := by
  induction more generalizing r with
  | nil => exact .inl member
  | cons first rest ih =>
      simp only [List.mem_cons]
      rcases ih (r := insert r first.1 first.2) member with early | late
      · rcases eq_or_mem_of_mem_insert early with new | old
        · exact .inr (.inl new)
        · exact .inl old
      · exact .inr (.inr late)

theorem mem_of_mem_ofFields {fields : List (String × α)} {field : String × α}
    (member : field ∈ ofFields fields) : field ∈ fields := by
  rcases mem_or_mem_of_mem_extend member with none | some
  · cases none
  · exact some

/-! ## Records without repetition -/

theorem nodup_names_insert (value : α) (distinct : (names r).Nodup) :
    (names (insert r name value)).Nodup := by
  rw [names_insert]
  split
  · exact distinct
  · rename_i fresh
    rw [List.nodup_append]
    refine ⟨distinct, by simp, fun key member last final same => fresh ?_⟩
    rw [List.mem_singleton] at final
    exact final ▸ same ▸ member

theorem nodup_names_extend (more : Record α) (distinct : (names r).Nodup) :
    (names (extend r more)).Nodup := by
  induction more generalizing r with
  | nil => exact distinct
  | cons field rest ih => exact ih (nodup_names_insert field.2 distinct)

/-- Fields that are added hide those that were there. -/
theorem find?_extend (r : Record α) {more : Record α} (distinct : (names more).Nodup)
    (name : String) : find? (extend r more) name = (find? more name).or (find? r name) := by
  induction more generalizing r with
  | nil => rfl
  | cons field rest ih =>
      obtain ⟨key, value⟩ := field
      rw [names_cons, List.nodup_cons] at distinct
      have step : extend r ((key, value) :: rest) = extend (insert r key value) rest := rfl
      rw [step, ih (insert r key value) distinct.2, find?_insert, find?_cons]
      by_cases same : name = key
      · rw [same, find?_eq_none.2 distinct.1]
        simp
      · simp [same]

/-- No name is repeated in a record that is made from fields. -/
theorem nodup_names_ofFields (fields : List (String × α)) : (names (ofFields fields)).Nodup :=
  nodup_names_extend fields .nil

theorem extend_eq_append {more : Record α} (distinct : (names (r ++ more)).Nodup) :
    extend r more = r ++ more := by
  induction more generalizing r with
  | nil => simp [extend]
  | cons field rest ih =>
      have split : r ++ field :: rest = (r ++ [field]) ++ rest := by simp
      have fresh : field.1 ∉ names r := by
        intro member
        simp only [names, List.map_append, List.nodup_append] at distinct
        exact distinct.2.2 field.1 member field.1 (by simp) rfl
      rw [split] at distinct ⊢
      rw [← ih distinct]
      simp only [extend, List.foldl_cons, insert_of_not_mem field.2 fresh]

/-- Making a record from its own fields changes nothing. -/
theorem ofFields_of_nodup (distinct : (names r).Nodup) : ofFields r = r :=
  extend_eq_append (r := []) distinct

/-! ## Removing a name -/

/-- Without repetition, a name has a value exactly if there is such a field. -/
theorem find?_eq_some (distinct : (names r).Nodup) :
    find? r name = some value ↔ (name, value) ∈ r := by
  refine ⟨mem_of_find?, fun member => ?_⟩
  induction r with
  | nil => cases member
  | cons field rest ih =>
      obtain ⟨key, old⟩ := field
      obtain ⟨new, distinct⟩ := List.nodup_cons.1 distinct
      rw [find?_cons]
      rcases List.mem_cons.1 member with same | later
      · cases same
        rw [if_pos rfl]
      · have differs : name ≠ key := by
          rintro rfl
          exact new (List.mem_map.2 ⟨_, later, rfl⟩)
        rw [if_neg differs, ih distinct later]

/-- Without repetition, the order of the fields does not matter. -/
theorem find?_perm {s : Record α} (perm : r.Perm s) (distinct : (names r).Nodup) (name : String) :
    find? r name = find? s name := by
  have distinctToo : (names s).Nodup := (perm.map Prod.fst).nodup distinct
  exact Option.ext fun value => by
    rw [find?_eq_some distinct, find?_eq_some distinctToo, perm.mem_iff]

theorem without_of_not_mem (fresh : name ∉ names r) : without r name = r := by
  refine List.filter_eq_self.2 fun field member => ?_
  have differs : field.1 ≠ name := fun same => fresh (List.mem_map.2 ⟨field, member, same⟩)
  simpa using differs

theorem replaceField_perm {field : String × α} (distinct : (names r).Nodup)
    (member : name ∈ names r) :
    (replaceField name (some field) r).Perm (field :: without r name) := by
  induction r with
  | nil => cases member
  | cons first rest ih =>
      obtain ⟨key, old⟩ := first
      obtain ⟨new, distinct⟩ := List.nodup_cons.1 distinct
      rw [replaceField, without_cons]
      by_cases same : key = name
      · subst same
        rw [if_pos rfl, if_pos rfl, without_of_not_mem new]
        rfl
      · have later : name ∈ names rest := (List.mem_cons.1 member).resolve_left (Ne.symm same)
        rw [if_neg same, if_neg same]
        exact ((ih distinct later).cons _).trans (.swap ..)

theorem has_eq_true : has r name = true ↔ name ∈ names r := by
  rw [has, Option.isSome_iff_ne_none, ne_eq, find?_eq_none, Decidable.not_not]

theorem erase_append_singleton (init : Record α) (last : String × α) (name : String) :
    erase (init ++ [last]) name =
      if last.1 = name then init
      else if has (init ++ [last]) name then replaceField name (some last) init
      else init ++ [last] := by
  simp [erase]

/-- To remove a name is to leave it out, up to the order of the fields. -/
theorem erase_perm (distinct : (names r).Nodup) (name : String) :
    (erase r name).Perm (without r name) := by
  rcases List.eq_nil_or_concat r with rfl | ⟨init, last, same⟩
  · rfl
  · rw [List.concat_eq_append] at same
    subst same
    have parts : without (init ++ [last]) name = without init name ++ without [last] name :=
      List.filter_append ..
    have split : names (init ++ [last]) = names init ++ [last.1] := List.map_append ..
    rw [split, List.nodup_append] at distinct
    obtain ⟨distinct, -, apart⟩ := distinct
    have fresh : last.1 ∉ names init := fun member => apart _ member _ (by simp) rfl
    rw [erase_append_singleton, parts]
    split
    next same =>
      subst same
      rw [without_of_not_mem fresh]
      simp [without]
    next differs =>
      have kept : without [last] name = [last] := by simp [without, differs]
      rw [kept]
      split
      next present =>
        rw [has_eq_true, split, List.mem_append, List.mem_singleton] at present
        have member := present.resolve_right (Ne.symm differs)
        exact (replaceField_perm distinct member).trans (List.perm_append_singleton ..).symm
      next absent =>
        rw [has_eq_true, split, List.mem_append] at absent
        rw [without_of_not_mem fun member => absent (.inl member)]

theorem nodup_names_erase (distinct : (names r).Nodup) (name : String) :
    (names (erase r name)).Nodup := by
  have perm := (erase_perm distinct name).map Prod.fst
  have fewer : (names (without r name)).Sublist (names r) := List.filter_sublist.map _
  exact perm.nodup_iff.2 (distinct.sublist fewer)

/-- Removing a name changes the value of this name alone. -/
theorem find?_erase (distinct : (names r).Nodup) (name other : String) :
    find? (erase r name) other = if other = name then none else find? r other := by
  rw [find?_perm (erase_perm distinct name) (nodup_names_erase distinct name), find?_without]

/-! ## Records as functions -/

/-- Without repetition, the record has these values. -/
structure Stores (r : Record α) (values : String → Option α) : Prop where
  distinct : (names r).Nodup
  find? : ∀ name, Record.find? r name = values name

variable {values : String → Option α}

theorem Stores.congr {others : String → Option α} (stores : Stores r values)
    (same : ∀ name, values name = others name) : Stores r others :=
  ⟨stores.distinct, fun name => (stores.find? name).trans (same name)⟩

theorem Stores.insert (stores : Stores r values) (name : String) (value : α) :
    Stores (insert r name value) fun other =>
      if other = name then some value else values other where
  distinct := nodup_names_insert value stores.distinct
  find? other := by rw [find?_insert, stores.find?]

theorem Stores.erase (stores : Stores r values) (name : String) :
    Stores (erase r name) fun other => if other = name then none else values other where
  distinct := nodup_names_erase stores.distinct name
  find? other := by rw [find?_erase stores.distinct, stores.find?]

end UiDoc.Record
