import Mathlib.Data.List.Nodup
import UiDoc.Flow.Repetition
import UiDoc.Proofs.Keys
import UiDoc.Proofs.Record

/-!
# Slots of loops

Where the slots of a loop stand, under which keys and with which variables, can be told from the
items alone, one after the other.  So neither what follows an item nor the condition of the loop
moves its slot.  Two slots have the same key only if an item gives itself the key that a later item
is given because its own is taken.
-/

namespace UiDoc

open Decimal (natText)

/-- What is known of a slot before the condition of the loop is asked. -/
structure Slot.Place where
  index : Nat
  key : String
  context : Record Json

/-- The slot apart from the condition of the loop. -/
def Slot.place (s : Slot) : Slot.Place :=
  ⟨s.index, s.key, s.context⟩

namespace Loop

variable {l : Loop} {devMode : Bool} {scope : Scope} {j : Journal} {context : Record Json}
  {seen : List String} {index i : Nat} {item : Json} {items : List Json}

/-! ## Places -/

/-- The places of the items from an index on. -/
def places (l : Loop) (context : Record Json) :
    (seen : List String) → (index : Nat) → List Json → List Slot.Place
  | _, _, [] => []
  | seen, index, item :: items =>
      let key := freshKey seen (l.itemKey item index) index
      ⟨index, key, l.itemContext context item index⟩ ::
        l.places context (key :: seen) (index + 1) items

/-- The slots stand at the places of the items, whatever the condition of the loop gives. -/
theorem places_slots (l : Loop) (scope : Scope) (seen : List String) (index : Nat)
    (items : List Json) (j : Journal) :
    ((l.slots scope seen index items).run j).1.map Slot.place =
      l.places scope.context seen index items := by
  induction items generalizing seen index j with
  | nil => rfl
  | cons item rest ih => exact congrArg (_ :: ·) (ih _ _ _)

theorem run_expand (l : Loop) (devMode : Bool) (scope : Scope) (j : Journal) :
    (l.expand devMode scope).run j =
      (match ((l.source.resolve devMode scope).run j).1 with
        | some (.arr items) => l.slots scope [] 0 items
        | v => do
            Logged.warnOnce .loopSourceNotArray l.source.describe (sourceMessage v)
            pure []).run ((l.source.resolve devMode scope).run j).2 := rfl

/-- The slots of an array stand at the places of its items. -/
theorem places_expand
    (resolves : ((l.source.resolve devMode scope).run j).1 = some (.arr items)) :
    ((l.expand devMode scope).run j).1.map Slot.place = l.places scope.context [] 0 items := by
  rw [run_expand, resolves]
  exact places_slots l scope [] 0 items _

/-- What follows the items does not move them. -/
theorem take_places (l : Loop) (context : Record Json) (seen : List String) (index : Nat)
    (items more : List Json) :
    (l.places context seen index (items ++ more)).take items.length =
      l.places context seen index items := by
  induction items generalizing seen index with
  | nil => rfl
  | cons item rest ih => exact congrArg (_ :: ·) (ih _ _)

/-- Only which keys are seen counts, not in which order. -/
theorem freshKey_congr {other : List String} (same : ∀ key, key ∈ seen ↔ key ∈ other)
    (key : String) (index : Nat) : freshKey seen key index = freshKey other key index := by
  simp only [freshKey, same]

/-- The place of an item depends on the keys in front of it. -/
theorem getElem?_places (l : Loop) (context : Record Json) (seen : List String) (index : Nat)
    (items : List Json) (i : Nat) :
    (l.places context seen index items)[i]? = items[i]?.map fun item =>
      { index := index + i
        key := freshKey (((l.places context seen index items).map Slot.Place.key).take i ++ seen)
          (l.itemKey item (index + i)) (index + i)
        context := l.itemContext context item (index + i) } := by
  induction items generalizing seen index i with
  | nil => simp [places]
  | cons item rest ih =>
      cases i with
      | zero => simp [places]
      | succ i =>
          have onward : index + (i + 1) = index + 1 + i := by omega
          simp only [places, List.getElem?_cons_succ, List.map_cons, List.take_succ_cons, onward]
          rw [ih]
          congr 1
          funext item
          congr 1
          exact freshKey_congr (by simp [or_left_comm]) _ _

/-- Neither the source nor the condition counts for the places. -/
theorem places_with (l : Loop) (source : Binding) (condition : Option String)
    (context : Record Json) (seen : List String) (index : Nat) (items : List Json) :
    { l with source, condition }.places context seen index items =
      l.places context seen index items := by
  induction items generalizing seen index with
  | nil => rfl
  | cons item rest ih => exact congrArg (_ :: ·) (ih _ _)

theorem length_places (l : Loop) (context : Record Json) (seen : List String) (index : Nat)
    (items : List Json) : (l.places context seen index items).length = items.length := by
  induction items generalizing seen index with
  | nil => rfl
  | cons item rest ih => exact congrArg (· + 1) (ih _ _)

theorem length_expand
    (resolves : ((l.source.resolve devMode scope).run j).1 = some (.arr items)) :
    ((l.expand devMode scope).run j).1.length = items.length := by
  rw [← length_places l scope.context [] 0 items, ← places_expand resolves, List.length_map]

/-- What the variables of a loop are bound to; the index is bound last. -/
theorem itemContext_eq (l : Loop) (context : Record Json) (item : Json) (index : Nat) :
    l.itemContext context item index =
      (l.indexVar.filter (· ≠ "")).elim (context.insert l.itemVar item)
        fun name => (context.insert l.itemVar item).insert name (.nat index) := by
  simp only [itemContext]
  cases l.indexVar.filter (· ≠ "") <;> rfl

theorem find?_itemContext (l : Loop) (context : Record Json) (item : Json) (index : Nat)
    (name : String) :
    Record.find? (l.itemContext context item index) name =
      if l.indexVar = some name ∧ name ≠ "" then some (.nat index)
      else if name = l.itemVar then some item
      else context.find? name := by
  rw [itemContext_eq]
  cases declared : l.indexVar with
  | none => simp [Record.find?_insert]
  | some indexName =>
      by_cases blank : indexName = ""
      · simp [Option.filter, blank, Record.find?_insert]
      · by_cases same : indexName = name
        · subst same
          simp [Option.filter, blank]
        · have other : ¬ name = indexName := fun equal => same equal.symm
          simp [Option.filter, blank, Record.find?_insert, same, other]

/-- What is known of the slot of an item. -/
theorem getElem?_expand {slot : Slot}
    (resolves : ((l.source.resolve devMode scope).run j).1 = some (.arr items))
    (found : ((l.expand devMode scope).run j).1[i]? = some slot) :
    ∃ item, items[i]? = some item ∧ slot.index = i ∧
      slot.context = l.itemContext scope.context item i := by
  have stands : (l.places scope.context [] 0 items)[i]? = some slot.place := by
    rw [← places_expand resolves, List.getElem?_map, found]
    rfl
  rw [getElem?_places, Option.map_eq_some_iff] at stands
  obtain ⟨item, foundItem, same⟩ := stands
  rw [Nat.zero_add] at same
  exact ⟨item, foundItem, (congrArg Slot.Place.index same).symm,
    (congrArg Slot.Place.context same).symm⟩

/-- Of a longer array, the first slots are the slots of the first items.  Each item has one slot, in
order, whose context binds the variable of the item and after it the one of the index.  The
condition only decides what is shown. -/
theorem expand_append {source : Binding} {condition : Option String} {longMode : Bool}
    {long : Scope} {k : Journal} {xs ys : List Json} (sameContext : long.context = scope.context)
    (resolves : ((l.source.resolve devMode scope).run j).1 = some (.arr xs))
    (resolvesLong : ((source.resolve longMode long).run k).1 = some (.arr (xs ++ ys))) :
    let slots := ((l.expand devMode scope).run j).1
    let longSlots := ((Loop.expand longMode long { l with source, condition }).run k).1
    let ungated := ((Loop.expand devMode scope { l with condition }).run j).1
    (longSlots.take xs.length).map Slot.place = slots.map Slot.place ∧
      ungated.map Slot.place = slots.map Slot.place ∧
      slots.length = xs.length ∧ longSlots.length = (xs ++ ys).length ∧
      ∀ (i : Nat) (slot : Slot), slots[i]? = some slot → ∃ item, xs[i]? = some item ∧
        slot.index = i ∧
        slot.context = (l.indexVar.filter (· ≠ "")).elim (scope.context.insert l.itemVar item)
          (fun name => (scope.context.insert l.itemVar item).insert name (.nat i)) ∧
        ∀ name, slot.context.find? name =
          if l.indexVar = some name ∧ name ≠ "" then some (.nat i)
          else if name = l.itemVar then some item
          else scope.context.find? name := by
  have given := places_expand resolves
  have ungated := places_expand (l := { l with condition }) resolves
  have givenLong := places_expand (l := { l with source, condition }) resolvesLong
  have lengthLong := length_expand (l := { l with source, condition }) resolvesLong
  rw [sameContext] at givenLong
  refine ⟨?_, ?_, length_expand resolves, lengthLong, fun i slot found => ?_⟩
  · rw [List.map_take, givenLong, given, take_places, places_with]
  · rw [ungated, given, places_with]
  · obtain ⟨item, foundItem, index, context⟩ := getElem?_expand resolves found
    refine ⟨item, foundItem, index, ?_, fun name => ?_⟩
    · rw [context, itemContext_eq]
    · rw [context, find?_itemContext]

/-- One item more and a condition, which sees the items under the name of a data field: the first
slot is left out, and stays where it was. -/
theorem expand_append_rows :
    let l : Loop :=
      { source := .path "rows", itemVar := "row", indexVar := some "n", key := some "id" }
    let first : Json := .obj [("id", .str "a")]
    let second : Json := .obj [("id", .str "a"), ("size", .nat 4)]
    let short : Scope := { data := .obj [("rows", .arr [first])], context := [("n", .nat 7)] }
    let long : Scope :=
      { data := .obj [("row", .null), ("all", .arr [first, second])], context := [("n", .nat 7)] }
    let slots := ((l.expand false short).run {}).1
    let longSlots := ((Loop.expand false long
      { l with source := .path "all", condition := some "row.size == 4" }).run {}).1
    ((l.source.resolve false short).run {}).1 = some (.arr [first]) ∧
      (((Binding.path "all").resolve false long).run {}).1 = some (.arr ([first] ++ [second])) ∧
      longSlots.map Slot.included = [false, true] ∧
      (longSlots.take 1).map Slot.place = slots.map Slot.place := by
  intro l first second short long slots longSlots
  have resolves : ((l.source.resolve false short).run {}).1 = some (.arr [first]) := by
    with_unfolding_all rfl
  have resolvesLong :
      (((Binding.path "all").resolve false long).run {}).1 = some (.arr ([first] ++ [second])) := by
    with_unfolding_all rfl
  have included : longSlots.map Slot.included = [false, true] := by decide +kernel
  have sameContext : long.context = short.context := rfl
  exact ⟨resolves, resolvesLong, included, (expand_append sameContext resolves resolvesLong).1⟩

/-! ## Keys of slots -/

/-- The key of an item depends on the keys in front of it. -/
theorem getElem?_keys (found : items[i]? = some item) :
    ((l.places context [] 0 items).map Slot.Place.key)[i]? =
      some (freshKey (((l.places context [] 0 items).map Slot.Place.key).take i) (l.itemKey item i)
        i) := by
  rw [List.getElem?_map, getElem?_places, found]
  simp

/-- An item gives itself the key that a later one is given because its own is taken. -/
structure Clash (l : Loop) (items : List Json) (keys : List String) (early late : Nat) : Prop where
  before : early < late
  same : ∃ a b, items[early]? = some a ∧ items[late]? = some b ∧
    l.itemKey a early ∉ keys.take early ∧ l.itemKey b late ∈ keys.take late ∧
    l.itemKey a early = l.itemKey b late ++ "-" ++ natText late

/-- Keys are distinct exactly if none clashes with a later one. -/
theorem nodup_keys_places :
    ((l.places context [] 0 items).map Slot.Place.key).Nodup ↔
      ∀ early late,
        ¬ l.Clash items ((l.places context [] 0 items).map Slot.Place.key) early late := by
  generalize keysEq : (l.places context [] 0 items).map Slot.Place.key = keys
  have keyAt {i : Nat} {item : Json} (found : items[i]? = some item) :
      keys[i]? = some (freshKey (keys.take i) (l.itemKey item i) i) :=
    keysEq ▸ getElem?_keys found
  have length : keys.length = items.length := by
    rw [← keysEq, List.length_map, length_places]
  rw [List.nodup_iff_getElem?_ne_getElem?]
  constructor
  · rintro distinct early late ⟨before, a, b, foundA, foundB, free, taken, same⟩
    refine distinct early late before ?_ ?_
    · rw [length]
      exact (List.getElem?_eq_some_iff.1 foundB).1
    · rw [keyAt foundA, keyAt foundB, freshKey, if_neg free, freshKey, if_pos taken, same]
  · intro apart early late before inside same
    have foundA : items[early]? = some items[early] := List.getElem?_eq_getElem (by omega)
    have foundB : items[late]? = some items[late] := List.getElem?_eq_getElem (by omega)
    have given := keyAt foundA
    have member :
        freshKey (keys.take early) (l.itemKey items[early] early) early ∈ keys.take late :=
      List.mem_of_getElem? (by rw [List.getElem?_take_of_lt before, given])
    rw [given, keyAt foundB, Option.some_inj] at same
    by_cases taken : l.itemKey items[late] late ∈ keys.take late
    · rw [freshKey, freshKey, if_pos taken] at same
      split at same
      -- Keys that were both made longer end in different indices.
      · exact absurd (Key.lengthened_inj same) (by omega)
      · rename_i free
        exact apart early late ⟨before, _, _, foundA, foundB, free, taken, same⟩
    · rw [same, freshKey, if_neg taken] at member
      exact taken member

theorem itemKey_of_undeclared (undeclared : l.key.filter (· ≠ "") = none) (item : Json)
    (index : Nat) : l.itemKey item index = natText index := by
  simp only [itemKey, undeclared]
  rfl

/-- Without a declared key, items are told apart by their indices. -/
theorem nodup_keys_places_of_undeclared (undeclared : l.key.filter (· ≠ "") = none) :
    ((l.places context [] 0 items).map Slot.Place.key).Nodup := by
  rw [nodup_keys_places]
  rintro early late ⟨_, a, b, _, _, _, _, same⟩
  rw [itemKey_of_undeclared undeclared, itemKey_of_undeclared undeclared] at same
  have minus : '-' ∈ (natText early).toList := by simp [same]
  exact absurd (Decimal.isDigit_of_mem_natText minus) (by decide)

theorem keys_slots (l : Loop) (scope : Scope) (items : List Json) (j : Journal) :
    ((l.slots scope [] 0 items).run j).1.map Slot.key =
      (l.places scope.context [] 0 items).map Slot.Place.key := by
  rw [← places_slots, List.map_map]
  rfl

/-- Without a declared key, slots are told apart by their indices. -/
theorem nodup_keys_of_undeclared (undeclared : l.key.filter (· ≠ "") = none) (devMode : Bool)
    (scope : Scope) (j : Journal) : (((l.expand devMode scope).run j).1.map Slot.key).Nodup := by
  rw [run_expand]
  split
  · rw [keys_slots]
    exact nodup_keys_places_of_undeclared undeclared
  · exact List.nodup_nil

/-- The keys of the slots of an array are distinct, unless an item gives itself the key that a later
item is given because its own is taken.  Indices never do. -/
theorem nodup_keys_expand
    (resolves : ((l.source.resolve devMode scope).run j).1 = some (.arr items)) :
    let keys := ((l.expand devMode scope).run j).1.map Slot.key
    (keys.Nodup ↔ ∀ early late, ¬ l.Clash items keys early late) ∧
      (l.key.filter (· ≠ "") = none → keys.Nodup) := by
  have given : ((l.expand devMode scope).run j).1.map Slot.key =
      (l.places scope.context [] 0 items).map Slot.Place.key := by
    rw [run_expand, resolves]
    exact keys_slots l scope items _
  rw [given]
  exact ⟨nodup_keys_places, nodup_keys_places_of_undeclared⟩

/-- Two items of one key, and one whose index would have been the key of the first two. -/
theorem nodup_keys_expand_ones :
    let l : Loop := { source := .path "rows", key := some "id" }
    let one : Json := .obj [("id", .nat 1)]
    let scope : Scope := { data := .obj [("rows", .arr [one, one, .obj []])] }
    let keys := ((l.expand false scope).run {}).1.map Slot.key
    ((l.source.resolve false scope).run {}).1 = some (.arr [one, one, .obj []]) ∧
      keys = ["1", "1-1", "2"] ∧ keys.Nodup ∧
      ∀ early late, ¬ l.Clash [one, one, .obj []] keys early late := by
  intro l one scope keys
  have resolves : ((l.source.resolve false scope).run {}).1 = some (.arr [one, one, .obj []]) := by
    with_unfolding_all rfl
  have given : keys = ["1", "1-1", "2"] := by decide +kernel
  have distinct : keys.Nodup := by
    rw [given]
    decide
  exact ⟨resolves, given, distinct, (nodup_keys_expand resolves).1.1 distinct⟩

/-- The first item gives itself the key that the third is given because its own is taken. -/
theorem not_nodup_keys_expand :
    let l : Loop := { source := .path "rows", key := some "id" }
    let item (id : String) : Json := .obj [("id", .str id)]
    let scope : Scope := { data := .obj [("rows", .arr [item "a-2", item "a", item "a"])] }
    ((l.expand false scope).run {}).1.map Slot.key = ["a-2", "a", "a-2"] ∧
      ¬ (((l.expand false scope).run {}).1.map Slot.key).Nodup := by
  decide +kernel

end Loop

end UiDoc
