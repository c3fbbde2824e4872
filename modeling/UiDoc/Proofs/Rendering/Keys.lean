import UiDoc.Interpreter
import UiDoc.Proofs.Document.Ids
import UiDoc.Proofs.Flow.Slots
import UiDoc.Proofs.Registry.Composites
import UiDoc.Proofs.Rendering.Invariants
import UiDoc.Proofs.Rendering.NodeCount
import UiDoc.Proofs.Rendering.Results

/-!
# Keys of siblings

A component hands nodes to its parent under its key, under keys that go on with a point behind it,
and, where it is a conditional, under the ids inside of it.  What stands in front of the first sign
of a key tells ids from one another and from the key of the parent, and what follows the key of the
parent tells children without ids from each other.  So siblings have distinct keys where ids are
distinct and no definition brings nodes of other places along.
-/

namespace UiDoc

/-! ## Lists of siblings -/

namespace Node

/-- The key of an element or a group. -/
def key? : Node → Option String
  | .element e => some e.key
  | .fragment key _ => some key
  | .text _ => none
  | .fallback _ _ => none

/-- The nodes right inside of an element or a group. -/
def inner : Node → List Node
  | .element e => e.children
  | .fragment _ children => children
  | .text _ => []
  | .fallback _ _ => []

/-- The keys of nodes that have one, in order. -/
def keys (nodes : List Node) : List String :=
  nodes.filterMap key?

/-- The lists of siblings in a list of nodes: itself, and those inside of its nodes. -/
inductive Siblings : (nodes list : List Node) → Prop where
  | here (nodes : List Node) : Siblings nodes nodes
  | inside {nodes list : List Node} {node : Node} : node ∈ nodes → Siblings node.inner list →
      Siblings nodes list

/-- Siblings have distinct keys, here and inside. -/
def Tidy (nodes : List Node) : Prop :=
  ∀ list, Siblings nodes list → (keys list).Nodup

variable {nodes more inside : List Node} {key : String}

theorem tidy_iff : Tidy nodes ↔ (keys nodes).Nodup ∧ ∀ node ∈ nodes, Tidy node.inner := by
  constructor
  · exact fun tidy => ⟨tidy nodes (.here nodes),
      fun node member list siblings => tidy list (.inside member siblings)⟩
  · rintro ⟨distinct, tidy⟩ list siblings
    cases siblings with
    | here => exact distinct
    | inside member siblings => exact tidy _ member list siblings

theorem tidy_nil : Tidy [] :=
  tidy_iff.2 ⟨List.nodup_nil, nofun⟩

/-- A single node is tidy if its inside is. -/
theorem tidy_singleton {node : Node} (tidy : Tidy node.inner) : Tidy [node] := by
  refine tidy_iff.2 ⟨?_, List.forall_mem_singleton.2 tidy⟩
  cases key : node.key? <;> simp [keys, key]

theorem Tidy.append (first : Tidy nodes) (second : Tidy more)
    (apart : ∀ key ∈ keys nodes, key ∉ keys more) : Tidy (nodes ++ more) := by
  obtain ⟨distinct, tidy⟩ := tidy_iff.1 first
  obtain ⟨distinctMore, tidyMore⟩ := tidy_iff.1 second
  refine tidy_iff.2 ⟨?_, fun node member => ?_⟩
  · rw [keys, List.filterMap_append, List.nodup_append]
    refine ⟨distinct, distinctMore, ?_⟩
    rintro key member _ other rfl
    exact apart key member other
  · rcases List.mem_append.1 member with front | back
    · exact tidy node front
    · exact tidyMore node back

/-- The nodes are tidy, and their keys are under such keys. -/
structure Keyed (bases : String → Prop) (nodes : List Node) : Prop where
  tidy : Tidy nodes
  under : ∀ key ∈ keys nodes, ∃ base, bases base ∧ Key.Under base key

variable {bases others : String → Prop}

theorem keyed_nil (bases : String → Prop) : Keyed bases [] :=
  ⟨tidy_nil, nofun⟩

/-- A node without a key. -/
theorem keyed_unkeyed {node : Node} (bases : String → Prop) (unkeyed : node.key? = none) :
    Keyed bases [node] := by
  refine ⟨tidy_singleton ?_, fun key member => ?_⟩
  · cases node with
    | text | fallback => exact tidy_nil
    | element | fragment => cases unkeyed
  · simp [keys, unkeyed] at member

theorem keyed_singleton {node : Node} (keyed : node.key? = some key) (tidy : Tidy node.inner) :
    Keyed (· = key) [node] := by
  refine ⟨tidy_singleton tidy, fun other member => ?_⟩
  have same : other = key := by simpa [keys, keyed] using member
  exact ⟨key, rfl, same ▸ Key.under_refl key⟩

theorem Keyed.mono (keyed : Keyed bases nodes)
    (covers : ∀ base, bases base → ∃ wider, others wider ∧ Key.Under wider base) :
    Keyed others nodes := by
  refine ⟨keyed.tidy, fun key member => ?_⟩
  obtain ⟨base, has, under⟩ := keyed.under key member
  obtain ⟨wider, hasWider, underWider⟩ := covers base has
  exact ⟨wider, hasWider, underWider.trans under⟩

theorem Keyed.append (first : Keyed bases nodes) (second : Keyed others more)
    (apart : ∀ base other key, bases base → others other → Key.Under base key →
      ¬ Key.Under other key) : Keyed (fun base => bases base ∨ others base) (nodes ++ more) where
  tidy := by
    refine first.tidy.append second.tidy fun key member memberMore => ?_
    obtain ⟨base, has, under⟩ := first.under key member
    obtain ⟨other, hasOther, underOther⟩ := second.under key memberMore
    exact apart base other key has hasOther under underOther
  under key member := by
    rw [keys, List.filterMap_append] at member
    rcases List.mem_append.1 member with front | back
    · exact (first.under key front).imp fun base => And.imp_left .inl
    · exact (second.under key back).imp fun base => And.imp_left .inr

end Node

/-! ## Ids that tell components apart -/

/-- The ids in components are plain and distinct, and none of them stands at the head of a key. -/
structure Distinguishable (key : String) (list : List Component) : Prop where
  distinct : (list.flatMap Component.ids).Nodup
  plain : ∀ id ∈ list.flatMap Component.ids, Key.Plain id
  apart : ∀ id ∈ list.flatMap Component.ids, id.toList ≠ Key.head key

/-- What the keys of a child are under: an id in it, or what its key may be below its parent. -/
inductive Component.Based (parent : String) (c : Component) (index : Nat) : String → Prop where
  | ofId {id : String} : id ∈ c.ids → Based parent c index id
  | ofIndex : Based parent c index (parent ++ "." ++ Decimal.natText index)
  | ofPart {id : String} : id ∈ c.ids → Based parent c index (parent ++ "." ++ id)

theorem Component.based_childKey (c : Component) (parent : String) (repeated : Bool) (index : Nat) :
    c.Based parent index (c.childKey parent repeated index) := by
  unfold childKey
  split
  · exact .ofIndex
  · rename_i named
    split
    · exact .ofPart (id_mem_ids named)
    · exact .ofId (id_mem_ids named)

/-- The ids in the branch that is shown are ids inside of the component. -/
theorem Outcome.Of.ids_sublist {c : Component} {content : Content}
    (shown : (Outcome.branch content).Of c) :
    (content.components.flatMap Component.ids).Sublist c.innerIds := by
  obtain ⟨conditional, given, side⟩ := shown
  simp only [Component.innerIds, Component.parts, given, Option.map_some, Option.getD_some,
    Conditional.components, List.flatMap_append]
  rcases side with yes | no
  · rw [yes]
    exact ((List.sublist_append_left _ _).trans (List.sublist_append_left _ _))
  · rw [no]
    exact ((List.sublist_append_right _ _).trans (List.sublist_append_left _ _))

namespace Distinguishable

variable {key parent other : String} {list rest : List Component} {c d : Component}

theorem sublist {more : List Component} (distinguishable : Distinguishable key more)
    (sublist : (list.flatMap Component.ids).Sublist (more.flatMap Component.ids)) :
    Distinguishable key list where
  distinct := distinguishable.distinct.sublist sublist
  plain id member := distinguishable.plain id (sublist.subset member)
  apart id member := distinguishable.apart id (sublist.subset member)

theorem tail (distinguishable : Distinguishable key (c :: rest)) : Distinguishable key rest :=
  distinguishable.sublist (List.sublist_append_right c.ids _)

theorem of_head_eq (distinguishable : Distinguishable key list)
    (same : Key.head other = Key.head key) : Distinguishable other list where
  distinct := distinguishable.distinct
  plain := distinguishable.plain
  apart id member := same ▸ distinguishable.apart id member

theorem childNodes (distinguishable : Distinguishable key c.parts) :
    Distinguishable key c.childNodes := by
  apply distinguishable.sublist
  rw [Component.parts, List.flatMap_append]
  exact List.sublist_append_right _ _

/-- At its own id, and at any key with the head of the old one, what is inside of a component can be
told apart. -/
theorem parts (distinguishable : Distinguishable key list) (member : d ∈ list)
    (placed : Key.head other = Key.head key ∨ other = d.id ∧ d.id ≠ "") :
    Distinguishable other d.parts := by
  have sub : d.ids.Sublist (list.flatMap Component.ids) := Component.ids_sublist_of_mem member
  have inside : Distinguishable key d.parts :=
    distinguishable.sublist (d.innerIds_sublist.trans sub)
  rcases placed with same | ⟨rfl, named⟩
  · exact inside.of_head_eq same
  · have own := distinguishable.plain d.id (sub.subset (Component.id_mem_ids named))
    have absent := Component.id_not_mem_innerIds named (distinguishable.distinct.sublist sub)
    refine { inside with apart := fun id member same => ?_ }
    rw [own.head_eq, String.toList_inj] at same
    exact absent (same ▸ member)

theorem childKey (distinguishable : Distinguishable parent list) (member : d ∈ list)
    (repeated : Bool) (index : Nat) :
    Distinguishable (d.childKey parent repeated index) d.parts := by
  apply distinguishable.parts member
  unfold Component.childKey
  split
  · exact .inl (Key.head_point _ _)
  · split
    · exact .inl (Key.head_point _ _)
    · exact .inr ⟨rfl, ‹_›⟩

/-- An id in a component has another head than what is below the parent. -/
theorem head_ne (distinguishable : Distinguishable parent list) {id : String}
    (own : id ∈ list.flatMap Component.ids) (part : String) :
    Key.head id ≠ Key.head (parent ++ "." ++ part) := by
  rw [(distinguishable.plain id own).head_eq, Key.head_point]
  exact distinguishable.apart id own

/-- No key is under those of two children. -/
theorem not_under {index later : Nat} {base otherBase : String}
    (distinguishable : Distinguishable parent (c :: rest)) (member : d ∈ rest)
    (differ : index ≠ later) (based : c.Based parent index base)
    (basedOther : d.Based parent later otherBase) (under : Key.Under base key) :
    ¬ Key.Under otherBase key := by
  intro underOther
  have heads : Key.head base = Key.head otherBase := under.head_eq.symm.trans underOther.head_eq
  have sub := Component.ids_sublist_of_mem member
  have inFront {id : String} (own : id ∈ c.ids) : id ∈ (c :: rest).flatMap Component.ids :=
    List.mem_append_left _ own
  have inRest {id : String} (own : id ∈ d.ids) : id ∈ (c :: rest).flatMap Component.ids :=
    List.mem_append_right _ (sub.subset own)
  have plain {id : String} (own : id ∈ c.ids) : Key.Plain id :=
    distinguishable.plain id (inFront own)
  have plainOther {id : String} (own : id ∈ d.ids) : Key.Plain id :=
    distinguishable.plain id (inRest own)
  have ne {id idOther : String} (own : id ∈ c.ids) (ownOther : idOther ∈ d.ids) : id ≠ idOther :=
    (List.nodup_append.1 distinguishable.distinct).2.2 id own idOther (sub.subset ownOther)
  have unsigned (n : Nat) : ∀ c ∈ (Decimal.natText n).toList, Key.isSign c = false :=
    fun c => Key.isSign_of_mem_natText
  cases based with
  | ofId own =>
      cases basedOther with
      | ofId ownOther =>
          rw [(plain own).head_eq, (plainOther ownOther).head_eq, String.toList_inj] at heads
          exact ne own ownOther heads
      | ofIndex | ofPart => exact distinguishable.head_ne (inFront own) _ heads
  | ofIndex =>
      cases basedOther with
      | ofId ownOther => exact distinguishable.head_ne (inRest ownOther) _ heads.symm
      | ofIndex =>
          exact differ (Decimal.natText_inj
            (Key.part_eq_of_under (unsigned _) (unsigned _) under underOther))
      | ofPart ownOther =>
          exact (plainOther ownOther).ne_natText index
            (Key.part_eq_of_under (plainOther ownOther).unsigned (unsigned _) underOther under)
  | ofPart own =>
      cases basedOther with
      | ofId ownOther => exact distinguishable.head_ne (inRest ownOther) _ heads.symm
      | ofIndex =>
          exact (plain own).ne_natText later
            (Key.part_eq_of_under (plain own).unsigned (unsigned _) under underOther)
      | ofPart ownOther =>
          exact ne own ownOther (Key.part_eq_of_under (plain own).unsigned
            (plainOther ownOther).unsigned under underOther)

end Distinguishable

/-! ## Documents without definitions -/

namespace Registry

/-- None of these types stands for a definition, whichever of them have been asked for before. -/
def Elementary (files : Files) (kinds : String → Prop) (r : Registry) : Prop :=
  ∀ asked, (∀ kind ∈ asked, kinds kind) → ∀ kind, kinds kind →
    (r.asking files asked).Atomic files kind

variable {files : Files} {kinds : String → Prop} {r : Registry}

theorem Elementary.resolve (elementary : r.Elementary files kinds) {kind : String}
    (known : kinds kind) : ((Registry.resolve files kind).run r).2.Elementary files kinds :=
  fun asked all => elementary (kind :: asked) (List.forall_mem_cons.2 ⟨known, all⟩)

/-- Where modules always answer the same, it is enough to ask for each type once. -/
theorem Constant.elementary (constant : r.Constant) (coherent : Coherent files r)
    (atomic : ∀ kind, kinds kind → r.Atomic files kind) : r.Elementary files kinds := by
  intro asked _ kind known name definition
  obtain ⟨later, coherentLater⟩ := later_asking coherent asked
  rw [← resolve_alike later.toAlike constant coherent coherentLater kind]
  exact atomic kind known name definition

end Registry

namespace Component

/-- The types in a component are such types, and its loops declare no key. -/
def Ordinary (kinds : String → Prop) (c : Component) : Prop :=
  ∀ d, c.Contains d → kinds d.kind ∧ ∀ l, d.loop = some l → l.key.filter (· ≠ "") = none

variable {kinds : String → Prop} {c d : Component}

theorem ordinary_of_parts (known : kinds c.kind)
    (undeclared : ∀ l, c.loop = some l → l.key.filter (· ≠ "") = none)
    (parts : ∀ part ∈ c.parts, part.Ordinary kinds) : c.Ordinary kinds := by
  intro d contains
  cases contains with
  | self => exact ⟨known, undeclared⟩
  | inside part contains => exact parts _ part d contains

/-- A component that is rendered once. -/
theorem ordinary_of_once (known : kinds c.kind) (once : c.loop = none)
    (parts : ∀ part ∈ c.parts, part.Ordinary kinds) : c.Ordinary kinds := by
  refine ordinary_of_parts known (fun l repeats => ?_) parts
  rw [once] at repeats
  cases repeats

theorem Ordinary.part (ordinary : c.Ordinary kinds) (part : d ∈ c.parts) : d.Ordinary kinds :=
  fun e contains => ordinary e (.inside part contains)

theorem Ordinary.child (ordinary : c.Ordinary kinds) (child : d ∈ c.childNodes) :
    d.Ordinary kinds :=
  ordinary.part (List.mem_append_right _ child)

end Component

/-! ## Results of passes -/

namespace Rendering

/-- As long as types stand for no definitions, they never will, and there are only such results. -/
def Ensures (files : Files) (kinds : String → Prop) {α : Type} (x : Rendering α)
    (gives : α → Prop) : Prop :=
  ∀ p a q, p.registry.Elementary files kinds → x.run.run p = (.ok a, q) →
    q.registry.Elementary files kinds ∧ gives a

variable {files : Files} {kinds : String → Prop} {α β : Type} {x : Rendering α}
  {f : α → Rendering β} {gives : α → Prop} {givesNext : β → Prop}

theorem ensures_pure {a : α} (holds : gives a) : Ensures files kinds (pure a) gives :=
  delivers_pure holds

theorem Ensures.bind (first : Ensures files kinds x gives)
    (second : ∀ a, gives a → Ensures files kinds (f a) givesNext) :
    Ensures files kinds (x >>= f) givesNext :=
  Delivers.bind first second

theorem Ensures.mono {weaker : α → Prop} (ensures : Ensures files kinds x gives)
    (weaken : ∀ a, gives a → weaker a) : Ensures files kinds x weaker :=
  Delivers.mono ensures weaken

theorem ensures_logged {act : Logged α} (holds : ∀ j, gives (act.run j).1) :
    Ensures files kinds (logged act) gives :=
  delivers_logged holds

theorem ensures_resolve {kind : String} (known : kinds kind) :
    Ensures files kinds (resolve files kind)
      fun found => ∀ name definition, found ≠ some (.composite name definition) :=
  delivers_resolve (fun _ elementary => elementary.resolve known)
    fun _ elementary => elementary [] nofun kind known

theorem ensures_warnDeprecated (kind : String) :
    Ensures files kinds (Render.warnDeprecated kind) fun _ => True :=
  delivers_warnDeprecated kind

end Rendering

namespace Render

open Node (Keyed Tidy)
open Rendering (Ensures ensures_pure ensures_logged ensures_resolve ensures_warnDeprecated
  delivers_component)

/-- The renderer hands out tidy nodes, under the key that it is given and the ids inside. -/
def Keys (files : Files) (kinds : String → Prop) (below : Renderer) : Prop :=
  ∀ c scope key site, c.Ordinary kinds → Distinguishable key c.parts → site.slot = none →
    Ensures files kinds (below c scope key site)
      (Keyed fun base => base = key ∨ base ∈ c.innerIds)

variable {setting : Setting} {kinds : String → Prop} {below : Renderer} {site : Site}
  {key parent : String} {c : Component} {list : List Component}

namespace Keys

theorem components (inner : Keys setting.files kinds below)
    (ordinary : ∀ c ∈ list, c.Ordinary kinds) (distinguishable : Distinguishable parent list)
    (empty : site.slot = none) (scope : Scope) (repeated : Bool) (index : Nat) :
    Ensures setting.files kinds (components below scope parent repeated site index list)
      (Keyed fun base => ∃ (i : Nat) (d : Component), list[i]? = some d ∧
        d.Based parent (index + i) base) := by
  induction list generalizing index with
  | nil => exact ensures_pure (Node.keyed_nil _)
  | cons c rest ih =>
      have first := inner c scope (c.childKey parent repeated index) site
        (ordinary c (List.mem_cons_self ..))
        (distinguishable.childKey (List.mem_cons_self ..) repeated index) empty
      have others := ih (fun d member => ordinary d (List.mem_cons_of_mem c member))
        distinguishable.tail (index + 1)
      refine first.bind fun front keyed => others.bind fun back keyedBack => ensures_pure ?_
      have keyedFront : Keyed (c.Based parent index) front := by
        refine keyed.mono fun base has => ⟨base, ?_, Key.under_refl base⟩
        rcases has with rfl | inside
        · exact c.based_childKey parent repeated index
        · exact .ofId (c.innerIds_sublist.subset inside)
      refine (keyedFront.append keyedBack ?_).mono ?_
      · rintro base other key based ⟨i, d, found, basedOther⟩
        exact distinguishable.not_under (List.mem_of_getElem? found) (by omega) based basedOther
      · rintro base (based | ⟨i, d, found, based⟩)
        · exact ⟨base, ⟨0, c, rfl, based⟩, Key.under_refl base⟩
        · have onward : index + 1 + i = index + (i + 1) := by omega
          exact ⟨base, ⟨i + 1, d, found, onward ▸ based⟩, Key.under_refl base⟩

theorem text (scope : Scope) (template : String) (bases : String → Prop) :
    Ensures setting.files kinds (text scope template) (Keyed bases) := by
  have filled : Ensures setting.files kinds
      (Rendering.logged (Template.interpolate scope template)) fun _ => True :=
    ensures_logged fun _ => trivial
  exact filled.bind fun _ _ => ensures_pure (Node.keyed_unkeyed bases rfl)

theorem branch (inner : Keys setting.files kinds below) {content : Content}
    (ordinary : ∀ c ∈ content.components, c.Ordinary kinds)
    (distinguishable : Distinguishable key content.components) (empty : site.slot = none)
    (scope : Scope) :
    Ensures setting.files kinds (branch below scope key site content)
      (Keyed fun base => base = key ∨ base ∈ content.components.flatMap Component.ids) := by
  cases content with
  | text template => exact text scope template _
  | nodes list =>
      refine (inner.components ordinary distinguishable empty scope false 0).mono fun nodes keyed =>
        keyed.mono ?_
      rintro base ⟨i, d, found, based⟩
      have sub := Component.ids_sublist_of_mem (List.mem_of_getElem? found)
      cases based with
      | ofId own => exact ⟨base, .inr (sub.subset own), Key.under_refl base⟩
      | ofIndex | ofPart => exact ⟨key, .inl rfl, Key.under_append key _⟩
  | node c =>
      have member : c ∈ (Content.node c).components := List.mem_singleton_self c
      have sub := Component.ids_sublist_of_mem member
      have placed : Key.head (if c.id = "" then key else c.id) = Key.head key ∨
          (if c.id = "" then key else c.id) = c.id ∧ c.id ≠ "" := by
        split
        · exact .inl rfl
        · exact .inr ⟨rfl, ‹_›⟩
      refine (inner c scope _ site (ordinary c member) (distinguishable.parts member placed)
        empty).mono fun nodes keyed => keyed.mono ?_
      rintro base (rfl | inside)
      · refine ⟨_, ?_, Key.under_refl _⟩
        split
        · exact .inl rfl
        · exact .inr (sub.subset (Component.id_mem_ids ‹_›))
      · exact ⟨base, .inr (sub.subset (c.innerIds_sublist.subset inside)), Key.under_refl base⟩

theorem childList (inner : Keys setting.files kinds below) (ordinary : c.Ordinary kinds)
    (distinguishable : Distinguishable parent c.childNodes) (empty : site.slot = none)
    (scope : Scope) (repeated : Bool) :
    Ensures setting.files kinds (childList below c scope parent repeated site) Tidy := by
  simp only [Render.childList]
  split
  · exact ensures_pure Node.tidy_nil
  · exact (text scope _ fun _ => False).mono fun _ keyed => keyed.tidy
  · rename_i content _ declares
    have nodes : c.childNodes = content.components := by
      rw [Component.childNodes, declares]
      rfl
    rw [nodes] at distinguishable
    refine (inner.components (fun d member => ordinary.child ?_) distinguishable empty scope
      repeated 0).mono fun _ keyed => keyed.tidy
    rw [nodes]
    exact member

/-- One more group, under a key that no other group has. -/
theorem group {files : Files} {fill others : Rendering (List Node)} {slot : Slot}
    {list : List Slot} (filled : Ensures files kinds fill Tidy)
    (grouped : Ensures files kinds others fun nodes =>
      Tidy nodes ∧ Node.keys nodes = list.map Slot.key) (new : slot.key ∉ list.map Slot.key) :
    Ensures files kinds
      (fill >>= fun inside => others >>= fun outer => pure (.fragment slot.key inside :: outer))
      fun nodes => Tidy nodes ∧ Node.keys nodes = (slot :: list).map Slot.key := by
  refine filled.bind fun inside tidy => grouped.bind fun outer tidyOuter => ensures_pure ?_
  obtain ⟨tidyOuter, given⟩ := tidyOuter
  have single : Tidy [.fragment slot.key inside] := Node.tidy_singleton tidy
  refine ⟨single.append tidyOuter fun key member => ?_, congrArg (slot.key :: ·) given⟩
  rw [given]
  exact List.mem_singleton.1 member ▸ new

/-- There is one group for each slot, under the key of the slot. -/
theorem slots (inner : Keys setting.files kinds below) (ordinary : c.Ordinary kinds)
    (distinguishable : Distinguishable key c.childNodes) (empty : site.slot = none)
    (scope : Scope) (list : List Slot) (distinct : (list.map Slot.key).Nodup) :
    Ensures setting.files kinds (slots below c scope key site list)
      fun nodes => Tidy nodes ∧ Node.keys nodes = list.map Slot.key := by
  induction list with
  | nil => exact ensures_pure ⟨Node.tidy_nil, rfl⟩
  | cons slot rest ih =>
      obtain ⟨new, distinctRest⟩ := List.nodup_cons.1 distinct
      have others := ih distinctRest
      unfold Render.slots
      dsimp only
      split
      · exact group (inner.childList ordinary
          (distinguishable.of_head_eq (Key.head_bracket _ _)) empty _ true) others new
      · exact group (ensures_pure Node.tidy_nil) others new

theorem children (inner : Keys setting.files kinds below) (ordinary : c.Ordinary kinds)
    (distinguishable : Distinguishable key c.childNodes) (empty : site.slot = none)
    (scope : Scope) :
    Ensures setting.files kinds (children setting below c scope key site) Tidy := by
  simp only [Render.children]
  split
  · exact inner.childList ordinary distinguishable empty scope false
  · rename_i l repeats
    have undeclared := (ordinary c (.self c)).2 l repeats
    have expanded : Ensures setting.files kinds
        (Rendering.logged (l.expand setting.devMode scope)) fun list => (list.map Slot.key).Nodup :=
      ensures_logged fun j => Loop.nodup_keys_of_undeclared undeclared _ scope j
    exact expanded.bind fun list distinct =>
      (inner.slots ordinary distinguishable empty scope list distinct).mono fun _ => And.left

theorem typed (inner : Keys setting.files kinds below) (ordinary : c.Ordinary kinds)
    (distinguishable : Distinguishable key c.childNodes) (empty : site.slot = none)
    (props : Record Json) (handlers : List BoundHandler) (scope : Scope) :
    Ensures setting.files kinds (typed setting below c props handlers scope key site)
      (Keyed (· = key)) := by
  have deeper : site.deeper.slot = none := empty
  refine (ensures_resolve (ordinary c (.self c)).1).bind fun found elementary => ?_
  cases found with
  | none =>
      have warned : Ensures setting.files kinds
          (Rendering.logged (Logged.warnOnce .unknownComponentType c.kind
            ("no component registered for type '" ++ c.kind ++ "'"))) fun _ => True :=
        ensures_logged fun _ => trivial
      exact warned.bind fun _ _ => ensures_pure (Node.keyed_nil _)
  | some renderable =>
      refine (ensures_warnDeprecated c.kind).bind fun _ _ => ?_
      cases renderable with
      | composite name definition => exact absurd rfl (elementary name definition)
      | element tag tier | icon name =>
          exact (inner.children ordinary distinguishable deeper scope).bind
            fun _ tidy => ensures_pure (Node.keyed_singleton rfl tidy)

theorem itself (inner : Keys setting.files kinds below) (ordinary : c.Ordinary kinds)
    (distinguishable : Distinguishable key c.childNodes) (empty : site.slot = none)
    (scope : Scope) :
    Ensures setting.files kinds (itself setting below c scope key site) (Keyed (· = key)) := by
  have deeper : site.deeper.slot = none := empty
  have resolved : Ensures setting.files kinds
      (Rendering.logged (c.resolveProps setting.devMode scope)) fun _ => True :=
    ensures_logged fun _ => trivial
  refine resolved.bind fun props _ => ?_
  split
  · exact (inner.children ordinary distinguishable deeper scope).bind
      fun _ tidy => ensures_pure (Node.keyed_singleton rfl tidy)
  · exact inner.typed ordinary distinguishable empty props _ scope

/-- A component hands out the nodes of a branch, nothing, or one node under its key. -/
theorem admitted (inner : Keys setting.files kinds below) :
    Keys setting.files kinds (admitted setting below) := by
  intro c scope key site ordinary distinguishable empty
  have shown : Ensures setting.files kinds (Rendering.logged (c.outcome scope)) fun outcome =>
      outcome.Of c :=
    ensures_logged (c.outcome_of scope)
  refine shown.bind fun outcome declared => ?_
  cases outcome with
  | empty reason => exact ensures_pure (Node.keyed_nil _)
  | branch content =>
      have sub := declared.ids_sublist
      have deeper : site.deeper.slot = none := empty
      refine (inner.branch (fun d member => ordinary.part (declared.mem_parts member))
        (distinguishable.sublist sub) deeper scope).mono fun nodes keyed => keyed.mono ?_
      rintro base (same | inside)
      · exact ⟨base, .inl same, Key.under_refl base⟩
      · exact ⟨base, .inr (sub.subset inside), Key.under_refl base⟩
  | unconditional =>
      dsimp only
      split
      · rw [empty]
        exact ensures_pure (Node.keyed_nil _)
      · exact (inner.itself ordinary distinguishable.childNodes empty scope).mono fun nodes keyed =>
          keyed.mono fun base same => ⟨base, .inl same, Key.under_refl base⟩

theorem component (inner : Keys setting.files kinds below) :
    Keys setting.files kinds (component setting below) := by
  intro c scope key site ordinary distinguishable empty
  exact delivers_component (Node.keyed_nil _) (fun _ _ => Node.keyed_unkeyed _ rfl)
    (inner.admitted c scope key site ordinary distinguishable empty)

end Keys

theorem keys_upTo (setting : Setting) (kinds : String → Prop) (levels : Nat) :
    Keys setting.files kinds (upTo setting levels) := by
  induction levels with
  | zero =>
      refine Keys.component fun c scope key site _ _ _ => ?_
      exact ensures_pure (Node.keyed_nil _)
  | succ levels ih => exact ih.component

end Render

namespace Interpreter

variable {files : Files} {i : Interpreter} {request : Request}

/-- The root has a key that tells it apart from what is inside of it. -/
theorem distinguishable_root (distinct : request.root.ids.Nodup)
    (plain : ∀ id ∈ request.root.ids, Key.Plain id ∧ id ≠ "root") :
    Distinguishable request.key request.root.parts := by
  have sub := request.root.innerIds_sublist
  refine ⟨distinct.sublist sub, fun id member => (plain id (sub.subset member)).1, ?_⟩
  intro id member same
  unfold Request.key at same
  split at same
  · have root : Key.head "root" = "root".toList := by decide
    rw [root, String.toList_inj] at same
    exact (plain id (sub.subset member)).2 same
  · rename_i named
    rw [(plain _ (Component.id_mem_ids named)).1.head_eq, String.toList_inj] at same
    exact Component.id_not_mem_innerIds named distinct (same ▸ member)

/-- Where ids are plain and distinct, no type stands for a definition and no loop declares a key,
the siblings that come out of a pass have distinct keys, whatever it is given. -/
theorem nodup_keys_render (distinct : request.root.ids.Nodup)
    (plain : ∀ id ∈ request.root.ids, Key.Plain id ∧ id ≠ "root")
    (elementary : i.registry.Elementary files fun kind =>
      ∃ d, request.root.Contains d ∧ d.kind = kind)
    (undeclared : ∀ d, request.root.Contains d → ∀ l, d.loop = some l →
      l.key.filter (· ≠ "") = none) (now : Nat) :
    ∀ list, Node.Siblings (i.render files now request).1.nodes list → (Node.keys list).Nodup := by
  cases run : (i.rendering files request).run.run (i.beginPass now) with
  | mk result p =>
      rw [render_of_run run]
      cases result with
      | error h => exact Node.tidy_nil
      | ok nodes =>
          have ordinary : request.root.Ordinary fun kind =>
              ∃ d, request.root.Contains d ∧ d.kind = kind :=
            fun d contains => ⟨⟨d, contains, rfl⟩, undeclared d contains⟩
          have keyed := Render.keys_upTo ⟨files, i.config.devMode⟩ _ (i.guard.maxDepth + 1)
            request.root request.scope request.key {} ordinary
            (distinguishable_root distinct plain) rfl _ nodes p elementary run
          rw [Output.nodes_ofResult_ok]
          exact keyed.2.tidy

/-- A conditional without an id, whose branch puts a key of its own and one below that of the root
among the children of the root, in front of a loop.  There is a definition that nothing uses. -/
theorem nodup_keys_render_branch :
    let plain : Component := { id := "a", kind := "p" }
    let unnamed : Component := { kind := "p" }
    let shown : Branch := .content (.nodes [plain, unnamed])
    let choice : Component := {
      conditional := some { condition := "true", yes := shown, no := .absent } }
    let row : Component := { id := "row", kind := "li" }
    let rows : Component := {
      kind := "ul", loop := some { source := .path "rows" }, children := some (.nodes [row]) }
    let root : Component := { kind := "div", children := some (.nodes [choice, rows]) }
    let request : Request := { root, data := .obj [("rows", .arr [.null, .null])] }
    let registry := Registry.builtin.registerDefinition "Card" (.parsed { kind := "p" })
    let i : Interpreter := .ofConfig {} registry 0
    let nodes := (i.render {} 0 request).1.nodes
    nodes.flatMap (fun node => Node.keys node.inner) = ["a", "root.0.1", "root.1"] ∧
      ∀ list, Node.Siblings nodes list → (Node.keys list).Nodup := by
  intro plain unnamed shown choice row rows root request registry i nodes
  have reached : registry.Reached {} :=
    ⟨.builtin, [.component "Card" { kind := "p" }], .builtin, rfl⟩
  have constant : registry.Constant := fun path m found => nomatch found
  have plainIds : ∀ id ∈ request.root.ids, Key.Plain id ∧ id ≠ "root" := by
    have ids : request.root.ids = ["a", "row"] := rfl
    rw [ids]
    exact List.forall_mem_cons.2 ⟨⟨by decide, by decide⟩,
      List.forall_mem_singleton.2 ⟨by decide, by decide⟩⟩
  have group : registry.Atomic {} "" := Registry.atomic_of_tier (by decide +kernel)
  have div : registry.Atomic {} "div" := Registry.atomic_of_tier (by decide +kernel)
  have ul : registry.Atomic {} "ul" := Registry.atomic_of_tier (by decide +kernel)
  have li : registry.Atomic {} "li" := Registry.atomic_of_tier (by decide +kernel)
  have p : registry.Atomic {} "p" := Registry.atomic_of_tier (by decide +kernel)
  have nothing : ∀ part ∈ ([] : List Component), part.Ordinary (registry.Atomic {}) :=
    List.forall_mem_nil _
  have ordinaryPlain : plain.Ordinary (registry.Atomic {}) :=
    Component.ordinary_of_once p rfl nothing
  have ordinaryUnnamed : unnamed.Ordinary (registry.Atomic {}) :=
    Component.ordinary_of_once p rfl nothing
  have ordinaryRow : row.Ordinary (registry.Atomic {}) := Component.ordinary_of_once li rfl nothing
  have ordinaryChoice : choice.Ordinary (registry.Atomic {}) :=
    Component.ordinary_of_once group rfl (List.forall_mem_cons.2
      ⟨ordinaryPlain, List.forall_mem_singleton.2 ordinaryUnnamed⟩)
  have ordinaryRows : rows.Ordinary (registry.Atomic {}) := by
    refine Component.ordinary_of_parts ul ?_ (List.forall_mem_singleton.2 ordinaryRow)
    rintro l repeats
    cases repeats
    rfl
  have ordinary : root.Ordinary (registry.Atomic {}) :=
    Component.ordinary_of_once div rfl (List.forall_mem_cons.2
      ⟨ordinaryChoice, List.forall_mem_singleton.2 ordinaryRows⟩)
  have elementary : i.registry.Elementary {} fun kind => ∃ d, root.Contains d ∧ d.kind = kind := by
    refine constant.elementary reached.coherent ?_
    rintro kind ⟨d, contains, rfl⟩
    exact (ordinary d contains).1
  exact ⟨by decide +kernel, nodup_keys_render (by decide) plainIds elementary
    (fun d contains => (ordinary d contains).2) 0⟩

end Interpreter

end UiDoc
