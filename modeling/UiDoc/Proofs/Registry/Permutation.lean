import UiDoc.Expr.Parser
import UiDoc.Proofs.Registry.Composites
import UiDoc.Proofs.Registry.History

/-!
# The order of a manifest

An entry of a manifest declares something about its own type, and no two entries of a manifest have
the same type.  So each table of the registry is determined by the entries as a set, and in whatever
order they are listed, every question about a type has the same answer.
-/

namespace UiDoc

namespace RegistryEntry

/-- The element that a type stands for by its entry alone. -/
def element? (e : RegistryEntry) : Option Renderable :=
  match e.sourceTier, e.wrapper with
  | .primitive, none | .ui, none => some (.element e.exported e.sourceTier)
  | _, _ => none

/-- The source of the definition that an entry names. -/
def source? (e : RegistryEntry) : Option DefinitionSource :=
  match e.sourceTier, e.loadPath with
  | .json, some path => some (.file path)
  | _, _ => none

end RegistryEntry

namespace Registry

variable {files : Files} {r s t : Registry} {e : RegistryEntry}
  {entries others : List RegistryEntry}

/-! ## Entries that are registered -/

/-- The entry of a type among some entries. -/
def declared (entries : List RegistryEntry) (name : String) : Option RegistryEntry :=
  Record.find? (entries.map fun e => (e.key, e)) name

@[simp] theorem declared_nil (name : String) : declared [] name = none := rfl

@[simp] theorem declared_cons (e : RegistryEntry) (entries : List RegistryEntry) (name : String) :
    declared (e :: entries) name = if name = e.key then some e else declared entries name :=
  Record.find?_cons ..

theorem names_declared (entries : List RegistryEntry) :
    Record.names (entries.map fun e => (e.key, e)) = entries.map RegistryEntry.key :=
  List.map_map ..

theorem declared_eq_none {name : String} :
    declared entries name = none ↔ name ∉ entries.map RegistryEntry.key := by
  rw [declared, Record.find?_eq_none, names_declared]

theorem declared_perm (perm : entries.Perm others)
    (distinct : (entries.map RegistryEntry.key).Nodup) (name : String) :
    declared entries name = declared others name :=
  Record.find?_perm (perm.map _) (by rwa [names_declared]) name

/-- The tables of a registry with some entries on top of those of another registry. -/
structure Extends (entries : List RegistryEntry) (r s : Registry) : Prop where
  entry : ∀ name, s.entry? name = (declared entries name).or (r.entry? name)
  eager : ∀ name, s.eager.find? name =
    ((declared entries name).bind RegistryEntry.element?).or (r.eager.find? name)
  definitions : ∀ name, s.definitions.find? name =
    ((declared entries name).bind RegistryEntry.source?).or (r.definitions.find? name)
  icons : ∀ icon, icon ∈ s.icons ↔
    icon ∈ r.icons ∨ ∃ e ∈ entries, e.sourceTier = .icon ∧ e.key = icon
  modules : s.modules = r.modules

theorem extends_nil (r : Registry) : Extends [] r r :=
  ⟨fun _ => rfl, fun _ => rfl, fun _ => rfl, fun _ => by simp, rfl⟩

/-! Of the tables, an entry changes the one of its tier. -/

theorem eager_registerTier (e : RegistryEntry) (r : Registry) :
    (r.registerTier e).eager = e.element?.elim r.eager (r.eager.insert e.key) := by
  unfold registerTier RegistryEntry.element?
  cases e.sourceTier
  case primitive | ui => cases e.wrapper <;> rfl
  case json => cases e.loadPath <;> rfl
  case icon | module => rfl

theorem definitions_registerTier (e : RegistryEntry) (r : Registry) :
    (r.registerTier e).definitions =
      e.source?.elim r.definitions (r.definitions.insert e.key) := by
  unfold registerTier RegistryEntry.source?
  cases e.sourceTier
  case primitive | ui => cases e.wrapper <;> rfl
  case json => cases e.loadPath <;> rfl
  case icon | module => rfl

theorem mem_icons_registerTier (e : RegistryEntry) (r : Registry) (icon : String) :
    icon ∈ (r.registerTier e).icons ↔ icon ∈ r.icons ∨ e.sourceTier = .icon ∧ e.key = icon := by
  unfold registerTier
  cases e.sourceTier
  case primitive | ui => cases e.wrapper <;> simp [register]
  case json => cases e.loadPath <;> simp [registerDefinition]
  case icon => simp [registerIcons, eq_comm]
  case module => simp

theorem kept_registerTier (e : RegistryEntry) (r : Registry) :
    (r.registerTier e).entries = r.entries ∧ (r.registerTier e).modules = r.modules := by
  unfold registerTier
  cases e.sourceTier
  case primitive | ui => cases e.wrapper <;> exact ⟨rfl, rfl⟩
  case json => cases e.loadPath <;> exact ⟨rfl, rfl⟩
  case icon | module => exact ⟨rfl, rfl⟩

theorem bind_declared_singleton {α : Type} (e : RegistryEntry) (f : RegistryEntry → Option α)
    (name : String) :
    (declared [e] name).bind f = if name = e.key then f e else none := by
  rw [declared_cons, declared_nil]
  split <;> rfl

theorem find?_elim_insert {α : Type} (table : Record α) (key : String) (o : Option α)
    (name : String) :
    Record.find? (o.elim table (table.insert key)) name =
      (if name = key then o else none).or (table.find? name) := by
  cases o with
  | none => rw [Option.elim_none, ite_self, Option.none_or]
  | some x =>
      rw [Option.elim_some, Record.find?_insert]
      split <;> rfl

theorem extends_registerEntry (e : RegistryEntry) (r : Registry) :
    Extends [e] r (r.registerEntry e) where
  entry name := by
    rw [declared_cons, declared_nil]
    simp only [registerEntry, entry?, kept_registerTier, Record.find?_insert]
    split <;> rfl
  eager name := by
    rw [bind_declared_singleton, ← find?_elim_insert, ← eager_registerTier]
    rfl
  definitions name := by
    rw [bind_declared_singleton, ← find?_elim_insert, ← definitions_registerTier]
    rfl
  icons icon := by
    have icons : (r.registerEntry e).icons = (r.registerTier e).icons := rfl
    simpa [icons] using mem_icons_registerTier e r icon
  modules := (kept_registerTier e r).2

/-- An entry that is registered before entries of other types stays as it is. -/
theorem Extends.cons (first : Extends [e] r s) (others : Extends entries s t)
    (fresh : e.key ∉ entries.map RegistryEntry.key) : Extends (e :: entries) r t := by
  have split (α : Type) (f : RegistryEntry → Option α) (o : Option α) (name : String) :
      ((declared entries name).bind f).or (((declared [e] name).bind f).or o) =
        ((declared (e :: entries) name).bind f).or o := by
    rw [bind_declared_singleton, declared_cons]
    split
    · rename_i same
      rw [declared_eq_none.2 (same ▸ fresh)]
      rfl
    · rw [Option.none_or]
  refine ⟨fun name => ?_, fun name => ?_, fun name => ?_, fun icon => ?_, ?_⟩
  · rw [others.entry, first.entry]
    simpa using split _ some (r.entry? name) name
  · rw [others.eager, first.eager, split]
  · rw [others.definitions, first.definitions, split]
  · rw [others.icons, first.icons]
    simp [or_assoc]
  · rw [others.modules, first.modules]

/-- The registry after entries have been registered one after the other. -/
def withEntries (entries : List RegistryEntry) (r : Registry) : Registry :=
  entries.foldl (fun r e => r.registerEntry e) r

theorem extends_withEntries (distinct : (entries.map RegistryEntry.key).Nodup) (r : Registry) :
    Extends entries r (r.withEntries entries) := by
  induction entries generalizing r with
  | nil => exact extends_nil r
  | cons e rest ih =>
      obtain ⟨fresh, distinct⟩ := List.nodup_cons.1 distinct
      exact (extends_registerEntry e r).cons (ih distinct _) fresh

/-! ## Manifests that make a registry -/

/-- Nothing is wrong with any of the entries. -/
structure Sound (entries : List RegistryEntry) : Prop where
  named : ∀ e ∈ entries, e.key ≠ ""
  wrapped : ∀ e ∈ entries, (e.wrapperRequired && e.wrapper.isNone) = false
  distinct : (entries.map RegistryEntry.key).Nodup

theorem Sound.perm (sound : Sound entries) (perm : entries.Perm others) : Sound others where
  named e member := sound.named e (perm.mem_iff.2 member)
  wrapped e member := sound.wrapped e (perm.mem_iff.2 member)
  distinct := (perm.map _).nodup sound.distinct

theorem sound_nil : Sound [] :=
  ⟨nofun, nofun, .nil⟩

theorem sound_cons :
    Sound (e :: entries) ↔
      (e.key ≠ "" ∧ (e.wrapperRequired && e.wrapper.isNone) = false) ∧
        e.key ∉ entries.map RegistryEntry.key ∧ Sound entries := by
  constructor
  · rintro ⟨named, wrapped, distinct⟩
    obtain ⟨named, othersNamed⟩ := List.forall_mem_cons.1 named
    obtain ⟨wrapped, othersWrapped⟩ := List.forall_mem_cons.1 wrapped
    obtain ⟨fresh, distinct⟩ := List.nodup_cons.1 distinct
    exact ⟨⟨named, wrapped⟩, fresh, othersNamed, othersWrapped, distinct⟩
  · rintro ⟨⟨named, wrapped⟩, fresh, others⟩
    exact ⟨List.forall_mem_cons.2 ⟨named, others.named⟩,
      List.forall_mem_cons.2 ⟨wrapped, others.wrapped⟩,
      List.nodup_cons.2 ⟨fresh, others.distinct⟩⟩

theorem entryError?_eq_none {seen : List String} :
    entryError? seen e = none ↔
      (e.key ≠ "" ∧ (e.wrapperRequired && e.wrapper.isNone) = false) ∧ e.key ∉ seen := by
  simp only [entryError?]
  grind

/-- Entries are registered exactly if nothing is wrong with any of them. -/
theorem registerEntries_eq_ok {seen : List String} :
    registerEntries seen entries r = .ok s ↔
      (Sound entries ∧ ∀ e ∈ entries, e.key ∉ seen) ∧ r.withEntries entries = s := by
  induction entries generalizing seen r with
  | nil =>
      rw [registerEntries, Except.ok.injEq]
      exact (and_iff_right ⟨sound_nil, List.forall_mem_nil _⟩).symm
  | cons e rest ih =>
      have apart : (∀ other ∈ rest, other.key ∉ e.key :: seen) ↔
          e.key ∉ rest.map RegistryEntry.key ∧ ∀ other ∈ rest, other.key ∉ seen := by
        simp only [List.mem_cons, not_or, List.mem_map]
        grind
      rw [registerEntries, sound_cons, List.forall_mem_cons]
      cases found : entryError? seen e with
      | some wrong =>
          refine iff_of_false (by simp) ?_
          rintro ⟨⟨⟨right, -, -⟩, new, -⟩, -⟩
          rw [entryError?_eq_none.2 ⟨right, new⟩] at found
          cases found
      | none =>
          obtain ⟨right, new⟩ := entryError?_eq_none.1 found
          have next : (r.registerEntry e).withEntries rest = r.withEntries (e :: rest) := rfl
          simp only [ih, apart, next]
          constructor
          · rintro ⟨⟨sound, fresh, others⟩, made⟩
            exact ⟨⟨⟨right, fresh, sound⟩, new, others⟩, made⟩
          · rintro ⟨⟨⟨-, fresh, sound⟩, -, others⟩, made⟩
            exact ⟨⟨sound, fresh, others⟩, made⟩

/-- The registry of a manifest, if nothing is wrong with it. -/
theorem ofManifest_eq_ok {m : Manifest} :
    ofManifest m = .ok r ↔
      Sound m.components ∧ (builtin.withEntries m.components).registerIcons m.icons = r := by
  have registers := @registerEntries_eq_ok builtin
  cases made : registerEntries [] m.components builtin with
  | error wrong =>
      have notSound : ¬ Sound m.components := by
        intro sound
        have succeeds : registerEntries [] m.components builtin =
            .ok (builtin.withEntries m.components) := registers.2 ⟨⟨sound, nofun⟩, rfl⟩
        rw [made] at succeeds
        cases succeeds
      simp [ofManifest, made, Except.map, notSound]
  | ok s =>
      obtain ⟨⟨sound, -⟩, rfl⟩ := registers.1 made
      simp [ofManifest, made, Except.map, sound]

/-! ## The same tables -/

/-- The tables of two registries say the same of every type. -/
structure SameTables (r s : Registry) : Prop where
  entry : ∀ name, r.entry? name = s.entry? name
  eager : ∀ name, r.eager.find? name = s.eager.find? name
  modules : r.modules = s.modules
  definitions : ∀ name, r.definitions.find? name = s.definitions.find? name
  icons : ∀ icon, icon ∈ r.icons ↔ icon ∈ s.icons

/-- Whether an icon matches a type. -/
def matchesIcon (name icon : String) : Bool :=
  sameLetters icon name || (withoutIcon? name).any (sameLetters icon)

/-- No type matches two icons. -/
def IconsApart (r : Registry) : Prop :=
  ∀ name, ∀ a ∈ r.icons, ∀ b ∈ r.icons,
    matchesIcon name a = true → matchesIcon name b = true → a = b

theorem length_of_sameLetters {a b : String} (same : sameLetters a b = true) :
    a.length = b.length := by
  have lengths := congrArg List.length (eq_of_beq same)
  rwa [List.length_map, List.length_map, String.length_toList, String.length_toList] at lengths

/-- A type has the length of an icon that it matches, or has `Icon` behind it. -/
theorem length_of_matchesIcon {name icon : String} (fits : matchesIcon name icon = true) :
    name.length = icon.length ∨ name.length = icon.length + 4 := by
  rcases Bool.or_eq_true_iff.1 fits with whole | part
  · exact .inl (length_of_sameLetters whole).symm
  · obtain ⟨bare, cut, letters⟩ := (Option.any_eq_true _ _).1 part
    obtain ⟨cs, kept, rfl⟩ := Option.map_eq_some_iff.1 cut
    have length := Expr.length_dropLeading? (Option.filter_eq_some_iff.1 kept).1
    have same := length_of_sameLetters letters
    simp only [List.length_reverse, String.length_toList, String.length_ofList] at length same
    exact .inr (by rw [same, ← length, Nat.add_comm]; rfl)

/-- No type matches two icons whose lengths differ by neither nothing nor the length of `Icon`. -/
theorem iconsApart_of_lengths
    (lengths : ∀ a ∈ r.icons, ∀ b ∈ r.icons, a ≠ b →
      a.length ≠ b.length ∧ a.length ≠ b.length + 4 ∧ b.length ≠ a.length + 4) : r.IconsApart := by
  intro name a member b memberToo fits fitsToo
  apply Decidable.byContradiction
  intro differ
  have apart := lengths a member b memberToo differ
  have length := length_of_matchesIcon fits
  have lengthToo := length_of_matchesIcon fitsToo
  omega

namespace SameTables

theorem wrapper? (same : SameTables r s) : r.wrapper? = s.wrapper? := by
  funext name
  simp only [Registry.wrapper?, same.entry]

/-- The only icon that matches is found wherever it stands. -/
theorem icon? (same : SameTables r s) (apart : r.IconsApart) (name : String) :
    r.icon? name = s.icon? name := by
  have first : r.icons.find? (matchesIcon name) = s.icons.find? (matchesIcon name) := by
    cases found : s.icons.find? (matchesIcon name) with
    | none =>
        rw [List.find?_eq_none] at found ⊢
        exact fun icon member => found icon ((same.icons icon).1 member)
    | some icon =>
        have member := (same.icons icon).2 (List.mem_of_find?_eq_some found)
        have fits := List.find?_some found
        cases foundToo : r.icons.find? (matchesIcon name) with
        | none => exact absurd fits (List.find?_eq_none.1 foundToo icon member)
        | some other =>
            rw [apart name other (List.mem_of_find?_eq_some foundToo) icon member
              (List.find?_some foundToo) fits]
  exact congrArg (Option.map Renderable.icon) first

/-- A table is read by the types in it, so its order does not matter. -/
theorem plain (same : SameTables r s) (apart : r.IconsApart) (files : Files) (answers : Answers)
    (name : String) : r.plain files answers name = s.plain files answers name := by
  have exported : r.exportedName = s.exportedName := by
    funext name
    simp only [exportedName, same.entry]
  have asked : r.asked answers = s.asked answers := by
    funext name
    simp only [Registry.asked, modulePath?, callFor, exported, same.entry, same.modules]
  have behind (state : LoadState) (name : String) :
      r.behind files name state = s.behind files name state := by
    cases state <;> simp only [Registry.behind, defined, same.definitions, same.icon? apart]
  simp only [Registry.plain, chainEnd_congr same.wrapper?, same.eager, asked, behind]

/-- The tables stay the same if the paths in them become relative to a file. -/
theorem besides (same : SameTables r s) (path : String) :
    SameTables (r.besides path) (s.besides path) where
  entry := same.entry
  eager := same.eager
  modules := same.modules
  definitions name := by
    simp only [Registry.besides]
    rw [Record.find?_map_fields, Record.find?_map_fields, same.definitions]
    all_goals exact fun _ => rfl
  icons := same.icons

/-- The tables of a manifest do not depend on its order. -/
theorem of_perm {m n : Manifest} (components : m.components.Perm n.components)
    (icons : m.icons.Perm n.icons) (sound : Sound m.components) :
    SameTables ((builtin.withEntries m.components).registerIcons m.icons)
      ((builtin.withEntries n.components).registerIcons n.icons) := by
  have first := extends_withEntries sound.distinct builtin
  have second := extends_withEntries (sound.perm components).distinct builtin
  have same := declared_perm components sound.distinct
  refine ⟨fun name => ?_, fun name => ?_, ?_, fun name => ?_, fun icon => ?_⟩
  · exact (first.entry name).trans ((same name).symm ▸ (second.entry name).symm)
  · exact (first.eager name).trans ((same name).symm ▸ (second.eager name).symm)
  · exact first.modules.trans second.modules.symm
  · exact (first.definitions name).trans ((same name).symm ▸ (second.definitions name).symm)
  · simp only [registerIcons, List.mem_eraseDups, List.mem_append, first.icons, second.icons,
      components.mem_iff, icons.mem_iff]

end SameTables

/-! ## The same answers -/

/-- Every question about a type has the same answer. -/
structure SameAnswers (files : Files) (r s : Registry) : Prop where
  resolve : ∀ name, ((resolve files name).run r).1 = ((resolve files name).run s).1
  has : ∀ name, ((has files name).run r).1 = ((has files name).run s).1
  entry : ∀ name, r.entry? name = s.entry? name
  deprecated : ∀ name, r.isDeprecated name = s.isDeprecated name

/-- Whatever has been asked before, a type stands for what the plain chain computes. -/
theorem resolve_asking (coherent : Coherent files r) (constant : r.Constant)
    (asked : List String) (name : String) :
    ((resolve files name).run (r.asking files asked)).1 = r.plain files r.answers name := by
  obtain ⟨later, coherentLater⟩ := later_asking coherent asked
  obtain ⟨found, s, run, -, -, agrees⟩ := resolve_run coherentLater name
  rw [run, agrees (later.toAlike.settled constant.settled), ← later.toAlike.plain,
    later.toAlike.answers_eq constant]

/-- A registry in which nothing has been found out, and that knows of no module. -/
structure Fresh (r : Registry) : Prop where
  memo : r.memo = []
  modules : r.modules = []

theorem Fresh.constant (fresh : r.Fresh) : r.Constant := by
  intro path m found
  rw [fresh.modules] at found
  cases found

theorem SameTables.sameAnswers (same : SameTables r s) (apart : r.IconsApart) (fresh : r.Fresh)
    (freshToo : s.Fresh) (files : Files) (asked askedToo : List String) :
    SameAnswers files (r.asking files asked) (s.asking files askedToo) := by
  have coherent : Coherent files r := .of_memo_eq_nil fresh.memo
  have coherentToo : Coherent files s := .of_memo_eq_nil freshToo.memo
  have found (name : String) : ((resolve files name).run (r.asking files asked)).1 =
      ((resolve files name).run (s.asking files askedToo)).1 := by
    have answers : r.answers = s.answers := by
      funext path call
      simp only [Registry.answers, same.modules]
    rw [resolve_asking coherent fresh.constant, resolve_asking coherentToo freshToo.constant,
      answers, same.plain apart]
  have entries (name : String) :
      entry? (r.asking files asked) name = entry? (s.asking files askedToo) name := by
    have alike := (later_asking coherent asked).1.toAlike
    have alikeToo := (later_asking coherentToo askedToo).1.toAlike
    rw [← alike.entry?, ← alikeToo.entry?, same.entry]
  exact ⟨found, fun name => congrArg Option.isSome (found name), entries,
    fun name => by rw [isDeprecated, isDeprecated, entries]⟩

theorem fresh_ofManifest {m : Manifest} (made : ofManifest m = .ok r) : r.Fresh := by
  refine ⟨memo_ofManifest made, ?_⟩
  obtain ⟨sound, rfl⟩ := ofManifest_eq_ok.1 made
  exact (extends_withEntries sound.distinct builtin).modules

/-- A manifest and the same manifest in another order either both make no registry, or they make
registries that answer every question about a type the same, whatever either has been asked before,
and also if their paths become relative to a file. -/
theorem ofManifest_perm {m n : Manifest} (components : m.components.Perm n.components)
    (icons : m.icons.Perm n.icons) :
    ((∃ e, ofManifest m = .error e) ∧ ∃ e, ofManifest n = .error e) ∨
      ∃ r s, ofManifest m = .ok r ∧ ofManifest n = .ok s ∧
        (r.IconsApart → ∀ files asked askedToo,
          SameAnswers files (r.asking files asked) (s.asking files askedToo) ∧
            ∀ path, SameAnswers files ((r.besides path).asking files asked)
              ((s.besides path).asking files askedToo)) := by
  cases made : ofManifest m with
  | error e =>
      cases madeToo : ofManifest n with
      | error e' => exact .inl ⟨⟨e, rfl⟩, e', rfl⟩
      | ok s =>
          have sound := (ofManifest_eq_ok.1 madeToo).1.perm components.symm
          rw [ofManifest_eq_ok.2 ⟨sound, rfl⟩] at made
          cases made
  | ok r =>
      obtain ⟨sound, tables⟩ := ofManifest_eq_ok.1 made
      have madeToo := ofManifest_eq_ok.2 ⟨sound.perm components, rfl⟩
      have same := SameTables.of_perm components icons sound
      have fresh := fresh_ofManifest made
      have freshToo := fresh_ofManifest madeToo
      rw [tables] at same
      refine .inr ⟨r, _, rfl, madeToo, fun apart files asked askedToo => ⟨?_, fun path => ?_⟩⟩
      · exact same.sameAnswers apart fresh freshToo files asked askedToo
      · have rebased : (r.besides path).Fresh := ⟨fresh.memo, fresh.modules⟩
        exact (same.besides path).sameAnswers apart rebased ⟨freshToo.memo, freshToo.modules⟩
          files asked askedToo

/-- A wrapper, its target, a type that replaces an element, a definition and icons, forwards and
backwards.  The definition is read from where the program runs, and if its path is relative to a
manifest, from beside the manifest. -/
theorem ofManifest_perm_reverse :
    let components : List RegistryEntry := [
      { key := "Card", wrapperRequired := true, wrapperComponent := some "Panel" },
      { key := "Panel", exportName := "section" }, { key := "div", exportName := "article" },
      { key := "Legacy", sourceTier := .json, loadPath := some "legacy.json",
        deprecated := some (.flag true) },
      { key := "home", sourceTier := .icon }]
    let stored : Files :=
      { texts := [(["legacy.json"], "\x7b\"type\": \"p\"\x7d"),
          (["ui", "legacy.json"], "\x7b\"type\": \"em\"\x7d")]
        directories := [["ui"]] }
    ∃ r s, ofManifest ⟨components, ["search", "add"]⟩ = .ok r ∧
      ofManifest ⟨components.reverse, ["add", "search"]⟩ = .ok s ∧
      (∀ files asked askedToo,
        SameAnswers files (r.asking files asked) (s.asking files askedToo) ∧
          ∀ path, SameAnswers files ((r.besides path).asking files asked)
            ((s.besides path).asking files askedToo)) ∧
      ∀ t, t = r ∨ t = s →
        (∃ definition, ((resolve stored "Legacy").run t).1 =
          some (.composite "Legacy" definition) ∧ definition.kind = "p") ∧
        ∃ definition, ((resolve stored "Legacy").run (t.besides "ui/manifest.json")).1 =
          some (.composite "Legacy" definition) ∧ definition.kind = "em" := by
  intro components stored
  have perm : components.Perm components.reverse := (List.reverse_perm _).symm
  have icons : ["search", "add"].Perm ["add", "search"] := .swap ..
  rcases ofManifest_perm (m := ⟨components, _⟩) (n := ⟨components.reverse, _⟩) perm icons with
    ⟨⟨e, wrong⟩, -⟩ | ⟨r, s, made, madeToo, same⟩
  · cases wrong
  · refine ⟨r, s, made, madeToo, ?_, ?_⟩
    · have icons : r.icons = ["home", "search", "add"] := by
        cases made
        rfl
      exact same (iconsApart_of_lengths (by rw [icons]; decide))
    · rintro t (rfl | rfl)
      · cases made
        exact ⟨Renderable.exists_composite (by decide +kernel),
          Renderable.exists_composite (by decide +kernel)⟩
      · cases madeToo
        exact ⟨Renderable.exists_composite (by decide +kernel),
          Renderable.exists_composite (by decide +kernel)⟩

end Registry

end UiDoc
