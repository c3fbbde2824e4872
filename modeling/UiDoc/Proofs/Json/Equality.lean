import UiDoc.Proofs.Binary64.Numbers
import UiDoc.Proofs.Record

/-!
# Equality of JSON values

Equality of values as data is an equivalence, as long as every double is a number and the names of
an object are distinct.  It compares arrays item by item, and objects name by name in any order.
-/

namespace UiDoc

namespace Num

variable {k m n : Num}

theorem same_symm (equal : m.same n = true) : n.same m = true := by
  cases m <;> cases n <;> first | cases equal | exact BEq.symm equal

theorem same_trans (equal : k.same m = true) (equal' : m.same n = true) : k.same n = true := by
  cases k <;> cases m <;> cases n <;>
    first | cases equal | cases equal' | exact BEq.trans equal equal'

end Num

namespace Json

/-- What holds of an array or an object if it holds of everything in it, holds of all values. -/
@[elab_as_elim]
theorem nested {motive : Json → Prop} (null : motive .null) (bool : ∀ b, motive (.bool b))
    (num : ∀ n, motive (.num n)) (str : ∀ s, motive (.str s))
    (arr : ∀ items, (∀ v ∈ items, motive v) → motive (.arr items))
    (obj : ∀ fields, (∀ field ∈ fields, motive field.2) → motive (.obj fields)) (v : Json) :
    motive v :=
  Json.rec null bool num str arr obj nofun
    (fun _ _ first rest => List.forall_mem_cons.2 ⟨first, rest⟩) nofun
    (fun _ _ first rest => List.forall_mem_cons.2 ⟨first, rest⟩) (fun _ _ value => value) v

/-! ## Well-formed values -/

mutual

/-- Whether every double in the value is a number, and no object in it has two fields of one
name. -/
def wellFormed : Json → Bool
  | .null | .bool _ | .str _ | .num (.int _) => true
  | .num (.float x) => !x.isNaN
  | .arr items => itemsWellFormed items
  | .obj fields => decide (Record.names fields).Nodup && fieldsWellFormed fields
termination_by structural v => v

/-- Whether all items are well-formed. -/
def itemsWellFormed : List Json → Bool
  | [] => true
  | v :: vs => wellFormed v && itemsWellFormed vs
termination_by structural vs => vs

/-- Whether the values of all fields are well-formed. -/
def fieldsWellFormed : List (String × Json) → Bool
  | [] => true
  | (_, v) :: fields => wellFormed v && fieldsWellFormed fields
termination_by structural fields => fields

end

variable {u v w : Json} {items : List Json} {fields : List (String × Json)}

theorem wellFormed_arr : wellFormed (.arr items) = true ↔ ∀ v ∈ items, wellFormed v = true := by
  rw [wellFormed]
  induction items with
  | nil => simp [itemsWellFormed]
  | cons v vs ih => simp [itemsWellFormed, ih]

theorem wellFormed_obj : wellFormed (.obj fields) = true ↔
    (Record.names fields).Nodup ∧ ∀ field ∈ fields, wellFormed field.2 = true := by
  have all : fieldsWellFormed fields = true ↔ ∀ field ∈ fields, wellFormed field.2 = true := by
    induction fields with
    | nil => simp [fieldsWellFormed]
    | cons field fields ih => simp [fieldsWellFormed, ih]
  rw [wellFormed, Bool.and_eq_true, decide_eq_true_iff, all]

/-- The double that stands for a number of a well-formed value is a number. -/
theorem isNaN_toFloat {n : Num} (sound : wellFormed (.num n) = true) : n.toFloat.isNaN = false := by
  cases n with
  | int n => exact Binary64.isNaN_ofInt n
  | float x => simpa [wellFormed, Num.toFloat] using sound

/-! ## What equal values have in common -/

theorem same_num {m : Num} : (Json.num m).same w = true ↔ ∃ n, w = .num n ∧ m.same n = true := by
  cases w <;> simp [same]

theorem sameItems_iff {vs ws : List Json} :
    sameItems vs ws = true ↔ List.Forall₂ (fun v w => v.same w = true) vs ws := by
  induction vs generalizing ws with
  | nil => cases ws <;> simp [sameItems]
  | cons v vs ih => cases ws <;> simp [sameItems, ih]

/-- Arrays are equal if they have equally many items, and equal ones at each place. -/
theorem same_arr : (Json.arr items).same w = true ↔
    ∃ others, w = .arr others ∧ items.length = others.length ∧
      ∀ i left right, (items.get ⟨i, left⟩).same (others.get ⟨i, right⟩) = true := by
  cases w with
  | arr others => simp [same, sameItems_iff, List.forall₂_iff_get]
  | null | bool | num | str | obj => simp [same]

theorem sameFields_iff {others : List (String × Json)} :
    sameFields fields others = true ↔
      ∀ field ∈ fields, ∃ w, Record.find? others field.1 = some w ∧ field.2.same w = true := by
  induction fields with
  | nil => simp [sameFields]
  | cons field fields ih =>
      obtain ⟨name, v⟩ := field
      rw [sameFields, Bool.and_eq_true, ih, List.forall_mem_cons]
      cases Record.find? others name <;> simp

/-- Objects are equal if they have equally many fields, and each field of one has an equal value in
the other. -/
theorem same_obj : (Json.obj fields).same w = true ↔
    ∃ others, w = .obj others ∧ fields.length = others.length ∧
      ∀ field ∈ fields, ∃ w, Record.find? others field.1 = some w ∧ field.2.same w = true := by
  cases w with
  | obj others => simp [same, sameFields_iff]
  | null | bool | num | str | arr => simp [same]

/-! ## Equality is an equivalence -/

theorem same_refl (v : Json) (sound : v.wellFormed = true) : v.same v = true := by
  induction v using nested with
  | null => rfl
  | bool b => exact beq_self_eq_true b
  | num n =>
      cases n with
      | int n => exact beq_self_eq_true n
      | float x => exact Float.beq_self_iff.2 (by simpa [wellFormed] using sound)
  | str s => exact beq_self_eq_true s
  | arr items ih =>
      have all := wellFormed_arr.1 sound
      exact same_arr.2 ⟨items, rfl, rfl, fun i inside _ =>
        ih _ (List.get_mem ..) (all _ (List.get_mem ..))⟩
  | obj fields ih =>
      obtain ⟨distinct, all⟩ := wellFormed_obj.1 sound
      refine same_obj.2 ⟨fields, rfl, rfl, fun field member => ⟨field.2, ?_, ?_⟩⟩
      · exact (Record.find?_eq_some distinct).2 member
      · exact ih field member (all field member)

theorem same_symm (sound : v.wellFormed = true) (sound' : w.wellFormed = true)
    (equal : v.same w = true) : w.same v = true := by
  induction v using nested generalizing w with
  | null | bool | str => cases w <;> simp_all [same]
  | num m =>
      obtain ⟨n, rfl, equal⟩ := same_num.1 equal
      exact Num.same_symm equal
  | arr items ih =>
      obtain ⟨others, rfl, length, equal⟩ := same_arr.1 equal
      have all := wellFormed_arr.1 sound
      have all' := wellFormed_arr.1 sound'
      exact same_arr.2 ⟨items, rfl, length.symm, fun i right left => ih _ (List.get_mem ..)
        (all _ (List.get_mem ..)) (all' _ (List.get_mem ..)) (equal i left right)⟩
  | obj fields ih =>
      obtain ⟨others, rfl, length, found⟩ := same_obj.1 equal
      obtain ⟨distinct, all⟩ := wellFormed_obj.1 sound
      obtain ⟨distinct', all'⟩ := wellFormed_obj.1 sound'
      -- Distinct names that the other object has, as many as it has, are all of its names.
      have subset : Record.names fields ⊆ Record.names others := by
        intro name named
        obtain ⟨field, member, rfl⟩ := List.mem_map.1 named
        obtain ⟨w, value, -⟩ := found field member
        exact Record.mem_names_of_find? value
      have perm : (Record.names fields).Perm (Record.names others) :=
        (distinct.subperm subset).perm_of_length_le (by simp [Record.names, length])
      refine same_obj.2 ⟨fields, rfl, length.symm, ?_⟩
      rintro ⟨name, w⟩ member
      have named : name ∈ Record.names fields := perm.mem_iff.2 (List.mem_map_of_mem member)
      obtain ⟨⟨key, v⟩, member', rfl⟩ := List.mem_map.1 named
      obtain ⟨w', value, equal⟩ := found (key, v) member'
      obtain rfl : w = w' :=
        Option.some.inj (((Record.find?_eq_some distinct').2 member).symm.trans value)
      exact ⟨v, (Record.find?_eq_some distinct).2 member',
        ih _ member' (all _ member') (all' _ member) equal⟩

theorem same_trans (equal : u.same v = true) (equal' : v.same w = true) : u.same w = true := by
  induction u using nested generalizing v w with
  | null | bool | str => cases v <;> cases w <;> simp_all [same]
  | num k =>
      obtain ⟨m, rfl, equal⟩ := same_num.1 equal
      obtain ⟨n, rfl, equal'⟩ := same_num.1 equal'
      exact Num.same_trans equal equal'
  | arr items ih =>
      obtain ⟨others, rfl, length, equal⟩ := same_arr.1 equal
      obtain ⟨last, rfl, length', equal'⟩ := same_arr.1 equal'
      exact same_arr.2 ⟨last, rfl, length.trans length', fun i left right =>
        ih _ (List.get_mem ..) (equal i left (length ▸ left)) (equal' i _ right)⟩
  | obj fields ih =>
      obtain ⟨others, rfl, length, found⟩ := same_obj.1 equal
      obtain ⟨last, rfl, length', found'⟩ := same_obj.1 equal'
      refine same_obj.2 ⟨last, rfl, length.trans length', fun field member => ?_⟩
      obtain ⟨v, value, equal⟩ := found field member
      obtain ⟨w, value', equal'⟩ := found' (field.1, v) (Record.mem_of_find? value)
      exact ⟨w, value', ih field member equal equal'⟩

end Json

end UiDoc
