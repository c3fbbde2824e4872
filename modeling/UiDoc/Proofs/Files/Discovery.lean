import Mathlib.Data.List.Nodup
import UiDoc.Proofs.Files.Trees

/-!
# Definitions in a tree of files

The definitions below a directory come in the order of their paths, compared name by name, and under
different names.  Each name that some file defines is there once, with the least path of the files
that define it, and this path leads to the file.
-/

namespace UiDoc.Files

variable {files : Files} {path : List String}

/-! ## The first definition of each name -/

section First

variable {seen : List String} {paths : List (List String)} {name : String}

theorem definedName_of_mem_firstOfEach (mem : (name, path) ∈ firstOfEach seen paths) :
    definedName path = some name := by
  induction paths generalizing seen with
  | nil => simp [firstOfEach] at mem
  | cons first paths ih =>
      rw [firstOfEach] at mem
      split at mem
      · next defined =>
        split at mem
        · exact ih mem
        · rcases List.mem_cons.1 mem with eq | mem
          · cases eq; exact defined
          · exact ih mem
      · exact ih mem

theorem firstOfEach_sublist (seen : List String) (paths : List (List String)) :
    ((firstOfEach seen paths).map (·.2)).Sublist paths := by
  induction paths generalizing seen with
  | nil => simp [firstOfEach]
  | cons first paths ih =>
      rw [firstOfEach]
      split
      · split
        · exact (ih seen).cons _
        · exact (ih _).cons_cons _
      · exact (ih seen).cons _

/-- No name comes twice, and none that has been seen. -/
theorem nodup_firstOfEach (seen : List String) (paths : List (List String)) :
    ((firstOfEach seen paths).map (·.1)).Nodup ∧
      ∀ name ∈ (firstOfEach seen paths).map (·.1), name ∉ seen := by
  induction paths generalizing seen with
  | nil => simp [firstOfEach]
  | cons first paths ih =>
      rw [firstOfEach]
      split
      · next name defined =>
        split
        · exact ih seen
        · next fresh =>
          obtain ⟨nodup, unseen⟩ := ih (name :: seen)
          constructor
          · refine List.nodup_cons.2 ⟨fun mem => ?_, nodup⟩
            exact unseen name mem List.mem_cons_self
          · intro other mem
            rcases List.mem_cons.1 mem with rfl | mem
            · exact fresh
            · exact fun old => unseen other mem (List.mem_cons_of_mem _ old)
      · exact ih seen

/-- Each name that is defined comes, with a path that is not behind any other that defines it. -/
theorem exists_firstOfEach (sorted : paths.Pairwise fun a b => FilePath.partsLe a b)
    (mem : path ∈ paths) (defined : definedName path = some name) (fresh : name ∉ seen) :
    ∃ first, (name, first) ∈ firstOfEach seen paths ∧ FilePath.partsLe first path := by
  induction paths generalizing seen with
  | nil => simp at mem
  | cons first paths ih =>
      obtain ⟨least, sorted⟩ := List.pairwise_cons.1 sorted
      have later (other : definedName first ≠ some name) : path ∈ paths :=
        (List.mem_cons.1 mem).resolve_left fun eq => other (eq ▸ defined)
      rw [firstOfEach]
      split
      · next other eq =>
        by_cases same : other = name
        · subst same
          have before : FilePath.partsLe first path := by
            rcases List.mem_cons.1 mem with rfl | mem
            · exact FilePath.partsLe_iff.2 (.inl rfl)
            · exact least path mem
          exact ⟨first, by simp [fresh], before⟩
        · have mem := later fun found => same (Option.some.inj (eq.symm.trans found))
          split
          · exact ih sorted mem fresh
          · have unseen : name ∉ other :: seen := by simp [fresh, Ne.symm same]
            obtain ⟨first, found, before⟩ := ih sorted mem unseen
            exact ⟨first, List.mem_cons_of_mem _ found, before⟩
      · next eq => exact ih sorted (later (by simp [eq])) fresh

end First

/-! ## Files that define components -/

/-- The file to which these names lead from a directory defines a component of this name. -/
structure Defines (files : Files) (directory : List String) (name : String)
    (below : List String) : Prop where
  file : directory ++ below ∈ files.texts.map (·.1)
  named : name ≠ ""
  last : (directory ++ below).getLast? = some (name ++ ".json")

theorem isDefinition_iff :
    isDefinition path ↔ ∃ name, name ≠ "" ∧ path.getLast? = some (name ++ ".json") := by
  have json (stem : String) : stem ++ "." ++ "json" = stem ++ ".json" := by
    rw [String.append_assoc]
    rfl
  cases last : path.getLast? with
  | none => simp [isDefinition, last]
  | some full =>
      simp only [isDefinition, last, beq_iff_eq, Option.some.injEq]
      constructor
      · intro eq
        have split : FilePath.splitExtension full
            = ((FilePath.splitExtension full).1, some "json") := Prod.ext rfl eq
        obtain ⟨ne, -, eq⟩ := FilePath.splitExtension_eq_some.1 split
        exact ⟨_, ne, eq.trans (json _)⟩
      · rintro ⟨name, ne, rfl⟩
        rw [← json, FilePath.splitExtension_eq_some.2 ⟨ne, by decide, rfl⟩]

/-- A file is called after the component that it defines. -/
theorem definedName_eq {name : String} (proper : FilePath.Proper (name ++ ".json"))
    (named : name ≠ "") (last : path.getLast? = some (name ++ ".json")) :
    definedName path = some name := by
  have split : FilePath.splitExtension (name ++ ".json") = (name, some "json") := by
    refine FilePath.splitExtension_eq_some.2 ⟨named, by decide, ?_⟩
    rw [String.append_assoc]
    rfl
  have whole : FilePath.fileName? (name ++ ".json") = some (name ++ ".json") := by
    simp [FilePath.fileName?, FilePath.parts_name proper, proper.down]
  simp [definedName, last, FilePath.componentName?, FilePath.stem?, whole, split, named]

theorem mem_definitions {directory : List String} :
    path ∈ files.definitions directory ↔
      path ∈ files.texts.map (·.1) ∧ directory <+: path ∧ isDefinition path := by
  simp only [definitions, List.mem_mergeSort, List.mem_filter, Bool.and_eq_true,
    List.isPrefixOf_iff_prefix]

theorem pairwise_definitions (files : Files) (directory : List String) :
    (files.definitions directory).Pairwise fun a b => FilePath.partsLe a b := by
  rw [definitions]
  apply List.pairwise_mergeSort
  · exact fun a b c left right => FilePath.partsLe_trans left right
  · exact FilePath.partsLe_total

/-! ## What is found -/

variable {directory : List String} {name : String} {below : List String}

theorem Proper.definedName_eq (proper : files.Proper)
    (defines : files.Defines directory name below) :
    definedName (directory ++ below) = some name :=
  Files.definedName_eq
    (proper.names _ (List.mem_append_left _ defines.file) _ (List.mem_of_getLast? defines.last))
    defines.named defines.last

/-- What is kept are files that define what they are kept for. -/
theorem Proper.defines_of_mem (proper : files.Proper)
    (mem : (name, path) ∈ firstOfEach [] (files.definitions directory)) :
    ∃ below, path = directory ++ below ∧ files.Defines directory name below := by
  have listed : path ∈ files.definitions directory :=
    (firstOfEach_sublist [] _).subset (List.mem_map_of_mem (f := (·.2)) mem)
  obtain ⟨file, ⟨below, rfl⟩, definition⟩ := mem_definitions.1 listed
  obtain ⟨stem, named, last⟩ := isDefinition_iff.1 definition
  have defines : files.Defines directory stem below := ⟨file, named, last⟩
  obtain rfl : name = stem := Option.some.inj
    ((definedName_of_mem_firstOfEach mem).symm.trans (proper.definedName_eq defines))
  exact ⟨below, rfl, defines⟩

/-- Of the files that define a component of one name, one is kept that is not behind any other. -/
theorem Proper.exists_of_defines (proper : files.Proper)
    (defines : files.Defines directory name below) :
    ∃ first, (name, first) ∈ firstOfEach [] (files.definitions directory) ∧
      ∀ other, files.Defines directory name other →
        FilePath.partsLe first (directory ++ other) := by
  have least {other : List String} (defines : files.Defines directory name other) :
      ∃ first, (name, first) ∈ firstOfEach [] (files.definitions directory) ∧
        FilePath.partsLe first (directory ++ other) := by
    have listed : directory ++ other ∈ files.definitions directory :=
      mem_definitions.2 ⟨defines.file, List.prefix_append _ _,
        isDefinition_iff.2 ⟨name, defines.named, defines.last⟩⟩
    exact exists_firstOfEach (pairwise_definitions files directory) listed
      (proper.definedName_eq defines) (by simp)
  obtain ⟨first, kept, -⟩ := least defines
  refine ⟨first, kept, fun other defines => ?_⟩
  obtain ⟨second, keptSecond, before⟩ := least defines
  cases List.inj_on_of_nodup_map (nodup_firstOfEach [] _).1 kept keptSecond rfl
  exact before

theorem Proper.parts_joinAll (proper : files.Proper)
    (defines : files.Defines directory name below) {written : String} (given : written ≠ "") :
    FilePath.parts (FilePath.joinAll written below) = FilePath.parts written ++ below := by
  have names : ∀ name ∈ below, FilePath.Proper name :=
    fun name mem => proper.names_of_holds (.inl defines.file) name (List.mem_append_right _ mem)
  exact (FilePath.joinAll_spec given names).2.2

theorem mem_discover {written : String} (leads : files.resolve written = some directory)
    {f : Found} :
    f ∈ files.discover written ↔
      ∃ path, (f.name, path) ∈ firstOfEach [] (files.definitions directory) ∧
        f.path = FilePath.joinAll written (path.drop directory.length) := by
  simp only [discover, leads, List.mem_map, Prod.exists]
  constructor
  · rintro ⟨name, path, mem, rfl⟩
    exact ⟨path, mem, rfl⟩
  · rintro ⟨path, mem, eq⟩
    exact ⟨f.name, path, mem, by rw [← eq]⟩

/-- What is found comes in the order of the paths, and no path comes twice. -/
theorem Proper.pairwise_discover (proper : files.Proper) (written : String) :
    (files.discover written).Pairwise fun f g =>
      List.Lex (· < ·) (FilePath.parts f.path) (FilePath.parts g.path) := by
  cases leads : files.resolve written with
  | none => simp [discover, leads]
  | some directory =>
      have sorted := (pairwise_definitions files directory).sublist (firstOfEach_sublist [] _)
      have apart := (nodup_firstOfEach [] (files.definitions directory)).1
      rw [List.Nodup, List.pairwise_map] at apart
      rw [List.pairwise_map] at sorted
      simp only [discover, leads, List.pairwise_map]
      refine (apart.and sorted).imp_of_mem fun {a b} left right ⟨other, before⟩ => ?_
      obtain ⟨name, path⟩ := a
      obtain ⟨otherName, otherPath⟩ := b
      obtain ⟨below, rfl, defines⟩ := proper.defines_of_mem left
      obtain ⟨otherBelow, rfl, otherDefines⟩ := proper.defines_of_mem right
      have given := ne_empty_of_resolve leads
      simp only [List.drop_left, proper.parts_joinAll defines given,
        proper.parts_joinAll otherDefines given]
      rw [FilePath.partsLe_append_left] at before
      rw [← FilePath.partsLe_append_left (FilePath.parts written)] at before
      refine (FilePath.partsLe_iff.1 before).resolve_left fun same => other ?_
      rw [List.append_cancel_left same] at defines
      exact Option.some.inj ((proper.definedName_eq defines).symm.trans
        (proper.definedName_eq otherDefines))

/-- The components that are found below a directory have different names and come in the order of
their paths, compared name by name.  Each of them is defined by a file below the directory, to which
its path leads; and of all files that define a component of one name, exactly one is found, the one
with the least path.  Every directory of the tree is found at its path from the root and at its path
from where the program runs. -/
theorem discover_first (files : Files) (proper : files.Proper) (written : String) :
    ((files.discover written).map (·.name)).Nodup ∧
      ((files.discover written).Pairwise fun f g =>
        List.Lex (· < ·) (FilePath.parts f.path) (FilePath.parts g.path)) ∧
      (∀ f ∈ files.discover written, ∃ directory below,
        files.resolve written = some directory ∧ files.Defines directory f.name below ∧
          FilePath.parts f.path = FilePath.parts written ++ below ∧
          files.resolve f.path = some (directory ++ below)) ∧
      (∀ directory, files.resolve written = some directory →
        ∀ name, (∃ below, files.Defines directory name below) →
          ∃ f ∈ files.discover written, f.name = name ∧
            (∀ g ∈ files.discover written, g.name = name → g = f) ∧
            ∀ below, files.Defines directory name below →
              FilePath.parts f.path = FilePath.parts written ++ below ∨
                List.Lex (· < ·) (FilePath.parts f.path) (FilePath.parts written ++ below)) ∧
      (∀ directory, files.isDirectory directory →
        files.resolve (FilePath.joinAll "/" directory) = some directory) ∧
      ∀ below, files.isDirectory (files.working ++ below) →
        files.resolve (FilePath.joinAll "." below) = some (files.working ++ below) ∧
          (below ≠ [] → files.resolve ("/".intercalate below) = some (files.working ++ below)) := by
  have names : ((files.discover written).map (·.name)).Nodup := by
    cases leads : files.resolve written with
    | none => simp [discover, leads]
    | some directory =>
        simpa [discover, leads, Function.comp_def] using
          (nodup_firstOfEach [] (files.definitions directory)).1
  refine ⟨names, proper.pairwise_discover written, fun f mem => ?_, ?_,
    fun directory inside => proper.resolve_root (.inr inside),
    fun below inside => ⟨proper.resolve_working inside, proper.resolve_intercalate inside⟩⟩
  · cases leads : files.resolve written with
    | none => simp [discover, leads] at mem
    | some directory =>
        obtain ⟨path, kept, eq⟩ := (mem_discover leads).1 mem
        obtain ⟨below, rfl, defines⟩ := proper.defines_of_mem kept
        rw [List.drop_left] at eq
        refine ⟨directory, below, rfl, defines, ?_, ?_⟩
        · rw [eq, proper.parts_joinAll defines (ne_empty_of_resolve leads)]
        · rw [eq, proper.resolve_joinAll leads (.inl defines.file)]
  · rintro directory leads name ⟨below, defines⟩
    obtain ⟨first, kept, least⟩ := proper.exists_of_defines defines
    obtain ⟨firstBelow, rfl, firstDefines⟩ := proper.defines_of_mem kept
    have found : ⟨name, FilePath.joinAll written firstBelow⟩ ∈ files.discover written :=
      (mem_discover leads).2 ⟨_, kept, by rw [List.drop_left]⟩
    refine ⟨_, found, rfl, fun g mem same => List.inj_on_of_nodup_map names mem found same,
      fun other otherDefines => ?_⟩
    have before := least other otherDefines
    rw [FilePath.partsLe_append_left] at before
    rw [← FilePath.partsLe_append_left (FilePath.parts written)] at before
    rw [proper.parts_joinAll firstDefines (ne_empty_of_resolve leads)]
    exact FilePath.partsLe_iff.1 before

/-- Two files of one name, in two directories of which one is called like the other with a character
behind it that comes before the slash. -/
def beside : Files where
  texts := [(["ui", "a-b", "Card.json"], "{}"), (["ui", "a", "Card.json"], "[]")]
  directories := [["ui"], ["ui", "a-b"], ["ui", "a"]]

theorem discover_first_beside :
    beside.Proper ∧ ∃ f ∈ beside.discover "ui",
      f.name = "Card" ∧ FilePath.parts f.path = ["ui", "a", "Card.json"] ∧
        beside.resolve f.path = some ["ui", "a", "Card.json"] := by
  have first : write {} "ui/a-b/Card.json" "{}" =
      some ⟨[(["ui", "a-b", "Card.json"], "{}")], [["ui"], ["ui", "a-b"]], []⟩ := by decide +kernel
  have second : write ⟨[(["ui", "a-b", "Card.json"], "{}")], [["ui"], ["ui", "a-b"]], []⟩
      "ui/a/Card.json" "[]" = some beside := by decide +kernel
  have proper : beside.Proper := (Proper.empty.write first).write second
  have leads : beside.resolve "ui" = some ["ui"] := by decide +kernel
  have parts : FilePath.parts "ui" = ["ui"] := by decide +kernel
  have defines : beside.Defines ["ui"] "Card" ["a", "Card.json"] :=
    ⟨by decide +kernel, by decide +kernel, by decide +kernel⟩
  obtain ⟨-, -, defined, least, -⟩ := discover_first beside proper "ui"
  obtain ⟨f, found, named, -, before⟩ := least ["ui"] leads "Card" ⟨_, defines⟩
  obtain ⟨directory, below, same, ⟨file, -, -⟩, foundParts, reached⟩ := defined f found
  obtain rfl : ["ui"] = directory := Option.some.inj (leads.symm.trans same)
  refine ⟨proper, f, found, named, ?_⟩
  have before := FilePath.partsLe_iff.2 (before _ defines)
  obtain rfl | rfl : below = ["a-b", "Card.json"] ∨ below = ["a", "Card.json"] := by
    simpa [beside] using file
  · rw [foundParts, parts] at before
    exact absurd before (by decide +kernel)
  · rw [foundParts, parts]
    exact ⟨rfl, reached⟩

end UiDoc.Files
