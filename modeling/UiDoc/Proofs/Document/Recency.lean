import Mathlib.Data.Finset.Card
import Mathlib.Data.List.TakeWhile
import UiDoc.Document.Cache

/-!
# Which documents a cache keeps

A cache keeps the documents of the sources that were used last, as many as there is room for.  A
source is used when it is parsed without a mistake, and when it is found.  Hence a source is found
exactly if fewer other sources have been used behind its last use than there is room for, and what
is found is what the source says.
-/

namespace UiDoc

/-! ## The last use of each source -/

/-- Each source once, in the order of its first place: from the last use to the first, if the uses
are listed from the last one on. -/
def recent : List String → List String
  | [] => []
  | source :: uses => source :: (recent uses).filter (· ≠ source)

@[simp] theorem mem_recent {source : String} {uses : List String} :
    source ∈ recent uses ↔ source ∈ uses := by
  induction uses with
  | nil => simp [recent]
  | cons first rest ih => by_cases same : source = first <;> simp [recent, same, ih]

theorem nodup_recent (uses : List String) : (recent uses).Nodup := by
  induction uses with
  | nil => exact .nil
  | cons first rest ih => exact List.nodup_cons.2 ⟨by simp, ih.filter _⟩

/-- What stands in front of a source in the order of last uses has been used behind it. -/
theorem takeWhile_recent (source : String) (uses : List String) :
    (recent uses).takeWhile (· ≠ source) = recent (uses.takeWhile (· ≠ source)) := by
  induction uses with
  | nil => rfl
  | cons first rest ih =>
      by_cases same : first = source
      · simp [recent, same]
      · have commutes : (fun other => !decide (other ≠ first) || decide (other ≠ source)) =
            fun other => decide (other ≠ source) := by
          funext other
          by_cases repeated : other = first <;> simp [repeated, same]
        have ih : (recent rest).takeWhile (fun other => decide (other ≠ source)) =
            recent (rest.takeWhile fun other => decide (other ≠ source)) := ih
        simp only [recent, ne_eq, same, not_false_eq_true, decide_true, List.takeWhile_cons_of_pos,
          List.takeWhile_filter]
        simp only [ne_eq] at commutes ih
        rw [commutes, ih]

theorem mem_take_iff {source : String} {count : Nat} {sources : List String} :
    source ∈ sources.take count ↔
      source ∈ sources ∧ (sources.takeWhile (· ≠ source)).length < count := by
  induction sources generalizing count with
  | nil => simp
  | cons first rest ih =>
      cases count with
      | zero => simp
      | succ count =>
          by_cases same : source = first
          · simp [same]
          · simp [same, Ne.symm same, ih]

/-- A source is among the first ones in the order of last uses exactly if few others have been used
behind it. -/
theorem mem_take_recent {source : String} {count : Nat} {uses : List String} :
    source ∈ (recent uses).take count ↔
      source ∈ uses ∧ (uses.takeWhile (· ≠ source)).toFinset.card < count := by
  have distinct : (recent (uses.takeWhile (· ≠ source))).toFinset =
      (uses.takeWhile (· ≠ source)).toFinset := by
    ext other
    simp only [List.mem_toFinset, mem_recent]
  rw [mem_take_iff, mem_recent, takeWhile_recent, ← distinct,
    List.toFinset_card_of_nodup (nodup_recent _)]

/-- To leave out a source makes room for at most one other. -/
theorem take_filter_of_nodup (source : String) {sources : List String} (distinct : sources.Nodup)
    (room : Nat) :
    (sources.filter (· ≠ source)).take room =
      ((sources.take (room + 1)).filter (· ≠ source)).take room := by
  induction sources generalizing room with
  | nil => simp
  | cons first rest ih =>
      obtain ⟨fresh, distinct⟩ := List.nodup_cons.1 distinct
      by_cases same : first = source
      · subst same
        have keeps {others : List String} (within : others ⊆ rest) :
            others.filter (· ≠ first) = others :=
          List.filter_eq_self.2 fun other member =>
            decide_eq_true fun same => fresh (same ▸ within member)
        have whole := keeps (List.Subset.refl rest)
        have part := keeps (List.take_subset room rest)
        simp only [ne_eq, decide_not] at whole part
        simp [whole, part]
      · cases room with
        | zero => simp
        | succ room =>
            have ih := ih distinct room
            simp only [ne_eq, decide_not] at ih
            simp [same, ih]

/-- The sources in front once one more is used. -/
theorem take_recent_cons (source : String) (uses : List String) (room : Nat) :
    (recent (source :: uses)).take (room + 1) =
      source :: (((recent uses).take (room + 1)).filter (· ≠ source)).take room := by
  rw [recent, List.take_succ_cons, take_filter_of_nodup source (nodup_recent uses)]

namespace DocumentCache

/-! ## Calls -/

/-- What can be asked of a cache. -/
inductive Call where
  | parse (source : String)
  | get (source : String)
  | clear
  deriving DecidableEq, Repr

/-- The source that a call is about. -/
def Call.source? : Call → Option String
  | parse source | get source => some source
  | clear => none

/-- The cache after a call. -/
def Call.perform (cache : DocumentCache) : Call → DocumentCache
  | parse source => (cache.parse source).2
  | get source => (cache.get source).2
  | clear => cache.clear

/-- What has happened to a cache since it was cleared, from the last call on. -/
structure Log where
  /-- The sources that have been parsed without a mistake. -/
  parsed : List String := []
  /-- The sources that have been used: parsed without a mistake, or found. -/
  used : List String := []
  deriving DecidableEq, Repr

/-- The log behind a call of a cache. -/
def Log.next (log : Log) (cache : DocumentCache) : Call → Log
  | .parse source =>
      if (cache.parse source).1.isOk then ⟨source :: log.parsed, source :: log.used⟩ else log
  | .get source =>
      if (cache.get source).1.isSome then { log with used := source :: log.used } else log
  | .clear => {}

/-- How many other sources have been used behind the last use of a source. -/
def Log.usedBehind (log : Log) (source : String) : Nat :=
  (log.used.takeWhile (· ≠ source)).toFinset.card

/-- The cache and the log after calls. -/
def watch : List Call → DocumentCache → Log → DocumentCache × Log
  | [], cache, log => (cache, log)
  | call :: calls, cache, log => watch calls (call.perform cache) (log.next cache call)

/-! ## What is kept -/

/-- No two sources have the same digest. -/
def Apart (sources : List String) : Prop :=
  ∀ s ∈ sources, ∀ t ∈ sources, Sha256.hex s = Sha256.hex t → s = t

instance (sources : List String) : Decidable (Apart sources) :=
  inferInstanceAs (Decidable (∀ s ∈ sources, ∀ t ∈ sources, _ → s = t))

/-- The document of a source; an empty one stands for what is no document. -/
def documentOf (source : String) : Component :=
  (Component.ofText source).toOption.getD {}

/-- How the document of a source is kept. -/
def entryOf (source : String) : String × Component :=
  (Sha256.hex source, documentOf source)

/-- The cache keeps the documents of the sources that were used last, and only what is a document
has been used. -/
structure Remembers (sources : List String) (cache : DocumentCache) (log : Log) : Prop where
  documents :
    cache.documents = (((recent log.used).take cache.capacity).map entryOf).reverse
  known : log.used ⊆ sources
  read : ∀ source ∈ log.used, Component.ofText source = .ok (documentOf source)
  parsed : ∀ source, source ∈ log.parsed ↔ source ∈ log.used

variable {sources kept : List String} {cache : DocumentCache} {log : Log} {source : String}

theorem documentOf_eq {document : Component} (read : Component.ofText source = .ok document) :
    documentOf source = document := by
  simp only [documentOf, read, Except.toOption, Option.getD_some]

theorem lookup_entries (apart : ∀ other ∈ kept, Sha256.hex source = Sha256.hex other →
    source = other) :
    (kept.map entryOf).lookup (Sha256.hex source) =
      if source ∈ kept then some (documentOf source) else none := by
  induction kept with
  | nil => rfl
  | cons first rest ih =>
      have ih := ih fun other member => apart other (List.mem_cons_of_mem _ member)
      by_cases same : source = first
      · simp [entryOf, same]
      · have differs : (Sha256.hex source == Sha256.hex first) = false :=
          beq_eq_false_iff_ne.2 fun digests => same (apart first (List.mem_cons_self ..) digests)
        rw [List.map_cons, entryOf, List.lookup_cons, differs]
        simp only [ih, List.mem_cons, same, false_or]

/-- Whether a digest is that of a source is whether it is the digest of this source. -/
theorem others_entries (apart : ∀ other ∈ kept, Sha256.hex source = Sha256.hex other →
    source = other) :
    ((kept.map entryOf).filter fun entry => entry.1 ≠ Sha256.hex source) =
      (kept.filter (· ≠ source)).map entryOf := by
  rw [List.filter_map]
  congr 1
  apply List.filter_congr
  intro other member
  have digests : Sha256.hex other = Sha256.hex source ↔ other = source :=
    ⟨fun same => (apart other member same.symm).symm, congrArg _⟩
  simp [entryOf, digests]

namespace Remembers

theorem kept_apart (remembers : Remembers sources cache log) (apart : Apart sources)
    (asked : source ∈ sources) :
    ∀ other ∈ ((recent log.used).take cache.capacity).reverse,
      Sha256.hex source = Sha256.hex other → source = other := by
  intro other member
  have used : other ∈ log.used := mem_recent.1 (List.mem_of_mem_take (List.mem_reverse.1 member))
  exact apart source asked other (remembers.known used)

/-- A source is found if it is among those that were used last. -/
theorem find?_eq (remembers : Remembers sources cache log) (apart : Apart sources)
    (asked : source ∈ sources) :
    cache.find? (Sha256.hex source) =
      if source ∈ (recent log.used).take cache.capacity then some (documentOf source)
      else none := by
  rw [find?, remembers.documents, ← List.map_reverse,
    lookup_entries (remembers.kept_apart apart asked)]
  simp only [List.mem_reverse]

/-- The document of another source that is kept stays where it is. -/
theorem others_eq (remembers : Remembers sources cache log) (apart : Apart sources)
    (asked : source ∈ sources) :
    cache.others (Sha256.hex source) =
      ((((recent log.used).take cache.capacity).filter (· ≠ source)).map entryOf).reverse := by
  rw [others, remembers.documents, ← List.map_reverse,
    others_entries (remembers.kept_apart apart asked), List.filter_reverse, List.map_reverse]

/-- A source that has been used last stands in front, and as many of the others stand behind it as
there is room for. -/
theorem after_use (remembers : Remembers sources cache log) (asked : source ∈ sources)
    (read : Component.ofText source = .ok (documentOf source)) (after : DocumentCache)
    (capacity : after.capacity = cache.capacity)
    (documents : after.documents =
      (((((recent log.used).take cache.capacity).filter (· ≠ source)).take
        (cache.capacity - 1)).map entryOf).reverse ++ [entryOf source])
    {parsed : List String} (also : ∀ other, other ∈ parsed ↔ other ∈ source :: log.used) :
    Remembers sources after ⟨parsed, source :: log.used⟩ where
  documents := by
    obtain ⟨room, rooms⟩ : ∃ room, cache.capacity = room + 1 :=
      ⟨cache.capacity - 1, by have := cache.capacity_pos; omega⟩
    rw [documents, capacity, rooms, take_recent_cons]
    simp
  known := List.cons_subset.2 ⟨asked, remembers.known⟩
  read := List.forall_mem_cons.2 ⟨read, remembers.read⟩
  parsed := also

/-- What is found is what the source says, and it has been used last then. -/
theorem use (remembers : Remembers sources cache log) (apart : Apart sources)
    (asked : source ∈ sources) (found : source ∈ (recent log.used).take cache.capacity)
    {parsed : List String} (also : ∀ other, other ∈ parsed ↔ other ∈ source :: log.used) :
    Remembers sources (cache.use (Sha256.hex source) (documentOf source))
      ⟨parsed, source :: log.used⟩ := by
  have used : source ∈ log.used := mem_recent.1 (List.mem_of_mem_take found)
  refine remembers.after_use asked (remembers.read source used) (cache.use _ _) rfl ?_ also
  -- One of the sources that are kept is this one, so the others do not fill the room.
  have fewer : (((recent log.used).take cache.capacity).filter (· ≠ source)).length ≤
      cache.capacity - 1 := by
    have drops : (((recent log.used).take cache.capacity).filter (· ≠ source)).length <
        ((recent log.used).take cache.capacity).length :=
      List.length_filter_lt_length_iff_exists.2 ⟨source, found, by simp⟩
    have room : ((recent log.used).take cache.capacity).length ≤ cache.capacity := by simp
    omega
  rw [List.take_of_length_le fewer]
  exact congrArg (· ++ [entryOf source]) (remembers.others_eq apart asked)

/-- What is added has been used last. -/
theorem add (remembers : Remembers sources cache log) (apart : Apart sources)
    (asked : source ∈ sources) (read : Component.ofText source = .ok (documentOf source))
    {parsed : List String} (also : ∀ other, other ∈ parsed ↔ other ∈ source :: log.used) :
    Remembers sources (cache.add (Sha256.hex source) (documentOf source))
      ⟨parsed, source :: log.used⟩ := by
  refine remembers.after_use asked read (cache.add _ _) rfl ?_ also
  have positive := cache.capacity_pos
  rw [DocumentCache.add, remembers.others_eq apart asked]
  simp only [entryOf, List.append_cancel_right_eq]
  rw [List.length_reverse, List.length_map, List.drop_reverse, List.length_map, ← List.map_take]
  congr 2
  rw [List.take_eq_take_iff]
  omega

/-! ### Calls -/

theorem get_eq (remembers : Remembers sources cache log) (apart : Apart sources)
    (asked : source ∈ sources) :
    cache.get source =
      if source ∈ (recent log.used).take cache.capacity then
        (some (documentOf source), cache.use (Sha256.hex source) (documentOf source))
      else (none, cache) := by
  rw [DocumentCache.get, remembers.find?_eq apart asked]
  by_cases found : source ∈ (recent log.used).take cache.capacity
  · simp only [if_pos found]
  · simp only [if_neg found]

theorem parse_found (remembers : Remembers sources cache log) (apart : Apart sources)
    (asked : source ∈ sources) (found : source ∈ (recent log.used).take cache.capacity) :
    cache.parse source =
      (.ok (documentOf source), cache.use (Sha256.hex source) (documentOf source)) := by
  rw [DocumentCache.parse, remembers.get_eq apart asked, if_pos found]

theorem parse_missed (remembers : Remembers sources cache log) (apart : Apart sources)
    (asked : source ∈ sources) (missed : source ∉ (recent log.used).take cache.capacity) :
    cache.parse source =
      (Component.ofText source, match Component.ofText source with
        | .ok document => cache.add (Sha256.hex source) document
        | .error _ => cache) := by
  rw [DocumentCache.parse, remembers.get_eq apart asked, if_neg missed]
  cases Component.ofText source <;> rfl

/-- What has been used has been read. -/
theorem ofText_found (remembers : Remembers sources cache log)
    (found : source ∈ (recent log.used).take cache.capacity) :
    Component.ofText source = .ok (documentOf source) :=
  remembers.read source (mem_recent.1 (List.mem_of_mem_take found))

/-- To parse through the cache gives what the text says. -/
theorem parse_fst (remembers : Remembers sources cache log) (apart : Apart sources)
    (asked : source ∈ sources) : (cache.parse source).1 = Component.ofText source := by
  by_cases found : source ∈ (recent log.used).take cache.capacity
  · rw [remembers.parse_found apart asked found, remembers.ofText_found found]
  · rw [remembers.parse_missed apart asked found]

/-- A text that is no document leaves no trace. -/
theorem parse_error (remembers : Remembers sources cache log) (apart : Apart sources)
    (asked : source ∈ sources) {error : ReadError}
    (mistaken : Component.ofText source = .error error) : (cache.parse source).2 = cache := by
  have missed : source ∉ (recent log.used).take cache.capacity := fun found =>
    nomatch mistaken.symm.trans (remembers.ofText_found found)
  rw [remembers.parse_missed apart asked missed, mistaken]

/-- A source that is parsed without a mistake has been used last, whether it was there or not. -/
theorem parse_ok (remembers : Remembers sources cache log) (apart : Apart sources)
    (asked : source ∈ sources) {document : Component}
    (read : Component.ofText source = .ok document) :
    Remembers sources (cache.parse source).2 ⟨source :: log.parsed, source :: log.used⟩ := by
  obtain rfl := documentOf_eq read
  have also (other : String) : other ∈ source :: log.parsed ↔ other ∈ source :: log.used := by
    simp only [List.mem_cons, remembers.parsed]
  by_cases found : source ∈ (recent log.used).take cache.capacity
  · rw [remembers.parse_found apart asked found]
    exact remembers.use apart asked found also
  · rw [remembers.parse_missed apart asked found, read]
    exact remembers.add apart asked read also

/-- A source that is found has been used last. -/
theorem get_found (remembers : Remembers sources cache log) (apart : Apart sources)
    (asked : source ∈ sources) (found : source ∈ (recent log.used).take cache.capacity) :
    Remembers sources (cache.get source).2 { log with used := source :: log.used } := by
  rw [remembers.get_eq apart asked, if_pos found]
  refine remembers.use apart asked found fun other => ?_
  have used : source ∈ log.used := mem_recent.1 (List.mem_of_mem_take found)
  rw [remembers.parsed, List.mem_cons]
  exact ⟨.inr, fun either => either.elim (· ▸ used) id⟩

/-- Every call keeps what was used last. -/
theorem perform (remembers : Remembers sources cache log) (apart : Apart sources) (call : Call)
    (asked : ∀ source, call.source? = some source → source ∈ sources) :
    Remembers sources (call.perform cache) (log.next cache call) := by
  cases call with
  | parse source =>
      have asked := asked source rfl
      rw [Call.perform, Log.next, remembers.parse_fst apart asked]
      cases read : Component.ofText source with
      | ok document => exact remembers.parse_ok apart asked read
      | error error =>
          rw [remembers.parse_error apart asked read]
          exact remembers
  | get source =>
      have asked := asked source rfl
      have kept := remembers.get_found apart asked
      rw [Call.perform, Log.next]
      rw [remembers.get_eq apart asked] at kept ⊢
      by_cases found : source ∈ (recent log.used).take cache.capacity
      · rw [if_pos found] at kept ⊢
        exact kept found
      · rw [if_neg found]
        exact remembers
  | clear =>
      exact ⟨by simp [Call.perform, Log.next, DocumentCache.clear, recent],
        by simp [Log.next], by simp [Log.next], by simp [Log.next]⟩

theorem ofCapacity (sources : List String) (capacity : Nat) :
    Remembers sources (DocumentCache.ofCapacity capacity) {} :=
  ⟨by simp [DocumentCache.ofCapacity, recent], by simp, by simp, by simp⟩

/-- What is found is what the source says. -/
theorem ofText_of_get (remembers : Remembers sources cache log) (apart : Apart sources)
    (asked : source ∈ sources) {document : Component}
    (hit : (cache.get source).1 = some document) : Component.ofText source = .ok document := by
  rw [remembers.get_eq apart asked] at hit
  split at hit
  next found => exact Option.some.inj hit ▸ remembers.ofText_found found
  next => nomatch hit

/-- Any number of calls keep what was used last. -/
theorem watch (remembers : Remembers sources cache log) (apart : Apart sources)
    (calls : List Call) (asked : calls.filterMap Call.source? ⊆ sources) :
    Remembers sources (DocumentCache.watch calls cache log).1
      (DocumentCache.watch calls cache log).2 := by
  induction calls generalizing cache log with
  | nil => exact remembers
  | cons call calls ih =>
      have first (source : String) (about : call.source? = some source) : source ∈ sources :=
        asked (List.mem_filterMap.2 ⟨call, List.mem_cons_self .., about⟩)
      have others : calls.filterMap Call.source? ⊆ sources := fun source member => by
        obtain ⟨other, within, about⟩ := List.mem_filterMap.1 member
        exact asked (List.mem_filterMap.2 ⟨other, List.mem_cons_of_mem _ within, about⟩)
      exact ih (remembers.perform apart call first) others

theorem size_le (remembers : Remembers sources cache log) : cache.size ≤ cache.capacity := by
  rw [size, remembers.documents, List.length_reverse, List.length_map, List.length_take]
  exact Nat.min_le_left ..

/-- A source is found exactly if it was parsed and few others have been used behind its last use. -/
theorem isSome_get (remembers : Remembers sources cache log) (apart : Apart sources)
    (asked : source ∈ sources) :
    (cache.get source).1.isSome ↔
      source ∈ log.parsed ∧ log.usedBehind source < cache.capacity := by
  rw [remembers.parsed, Log.usedBehind, ← mem_take_recent, remembers.get_eq apart asked]
  split <;> simp_all

end Remembers

/-! ## The room -/

theorem capacity_get (source : String) (cache : DocumentCache) :
    (cache.get source).2.capacity = cache.capacity := by
  rw [get]
  cases cache.find? (Sha256.hex source) <;> rfl

theorem capacity_parse (source : String) (cache : DocumentCache) :
    (cache.parse source).2.capacity = cache.capacity := by
  rw [← capacity_get source cache, parse]
  obtain ⟨_ | document, cache⟩ := cache.get source
  · cases Component.ofText source <;> rfl
  · rfl

theorem capacity_perform (call : Call) (cache : DocumentCache) :
    (call.perform cache).capacity = cache.capacity := by
  cases call with
  | parse source => exact capacity_parse source cache
  | get source => exact capacity_get source cache
  | clear => rfl

theorem capacity_watch (calls : List Call) (cache : DocumentCache) (log : Log) :
    (watch calls cache log).1.capacity = cache.capacity := by
  induction calls generalizing cache log with
  | nil => rfl
  | cons call calls ih => rw [watch, ih, capacity_perform]

/-- Behind any calls of a cache that was empty at first, to parse gives what the text says, there
are no more documents than there is room for, a text that is no document leaves no trace, and a
source is found exactly if it was parsed since the cache was cleared and fewer others than there is
room for have been used behind its last use. -/
theorem recency_watch (capacity : Nat) (calls : List Call) (source : String)
    (apart : Apart (source :: calls.filterMap Call.source?)) :
    let cache := (watch calls (ofCapacity capacity) {}).1
    let log := (watch calls (ofCapacity capacity) {}).2
    (cache.parse source).1 = Component.ofText source ∧
      cache.size ≤ max capacity 1 ∧
      (∀ error, Component.ofText source = .error error → (cache.parse source).2 = cache) ∧
      (∀ document, (cache.get source).1 = some document →
        Component.ofText source = .ok document) ∧
      ((cache.get source).1.isSome ↔
        source ∈ log.parsed ∧ log.usedBehind source < max capacity 1) := by
  have asked : source ∈ source :: calls.filterMap Call.source? := List.mem_cons_self ..
  have remembers := (Remembers.ofCapacity _ capacity).watch apart calls
    (List.subset_cons_self source _)
  have room : (watch calls (ofCapacity capacity) {}).1.capacity = max capacity 1 :=
    capacity_watch calls _ _
  rw [← room]
  exact ⟨remembers.parse_fst apart asked, remembers.size_le,
    fun _ mistaken => remembers.parse_error apart asked mistaken,
    fun _ hit => remembers.ofText_of_get apart asked hit, remembers.isSome_get apart asked⟩

/-- With room for two, a document that is looked up again outlasts one that came behind it. -/
theorem recency_watch_two :
    let calls : List Call := [.parse "\x7b\"type\": \"p\"\x7d", .parse "\x7b\"type\": \"q\"\x7d",
      .get "\x7b\"type\": \"p\"\x7d", .parse "\x7b\"type\": \"b\"\x7d"]
    let cache := (watch calls (ofCapacity 2) {}).1
    (cache.get "\x7b\"type\": \"p\"\x7d").1.isSome ∧ ¬(cache.get "\x7b\"type\": \"q\"\x7d").1.isSome := by
  intro calls cache
  have first := recency_watch 2 calls "\x7b\"type\": \"p\"\x7d" (by decide +kernel)
  have second := recency_watch 2 calls "\x7b\"type\": \"q\"\x7d" (by decide +kernel)
  rw [first.2.2.2.2, second.2.2.2.2]
  decide +kernel

end DocumentCache

end UiDoc
