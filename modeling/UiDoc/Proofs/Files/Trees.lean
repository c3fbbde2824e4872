import Mathlib.Data.List.Induction
import UiDoc.Files
import UiDoc.Proofs.Files.Names

/-!
# Trees of files

What has a place in a tree is found at its path, from the root and from where the program runs, and
a path that is relative to a file leads on from the directory of the file.  Writing to a tree and
removing from it keeps it in order.
-/

namespace UiDoc.Files

/-! ## Trees that can be stored -/

/-- Each name in the tree can be the name of a file, what holds something is a directory, and no
directory is a file. -/
structure Proper (files : Files) : Prop where
  names : ∀ path ∈ files.texts.map (·.1) ++ files.directories, ∀ name ∈ path, FilePath.Proper name
  above : ∀ path ∈ files.texts.map (·.1) ++ files.directories, files.isDirectory path.dropLast
  apart : ∀ path ∈ files.texts.map (·.1), files.isDirectory path = false

instance (files : Files) : Decidable files.Proper :=
  decidable_of_iff
    ((∀ path ∈ files.texts.map (·.1) ++ files.directories, ∀ name ∈ path, FilePath.Proper name) ∧
      (∀ path ∈ files.texts.map (·.1) ++ files.directories, files.isDirectory path.dropLast) ∧
      ∀ path ∈ files.texts.map (·.1), files.isDirectory path = false)
    ⟨fun ⟨names, above, apart⟩ => ⟨names, above, apart⟩,
      fun ⟨names, above, apart⟩ => ⟨names, above, apart⟩⟩

variable {files : Files} {path : List String}

theorem Proper.empty : Proper {} where
  names := by simp
  above := by simp
  apart := by simp

theorem isDirectory_eq_true : files.isDirectory path ↔ path = [] ∨ path ∈ files.directories := by
  simp [isDirectory]

/-- Something in the tree has these names on the way to it. -/
def Holds (files : Files) (path : List String) : Prop :=
  path ∈ files.texts.map (·.1) ∨ files.isDirectory path

namespace Proper

theorem names_of_holds (proper : files.Proper) (holds : files.Holds path) :
    ∀ name ∈ path, FilePath.Proper name := by
  rcases holds with file | directory
  · exact proper.names path (List.mem_append_left _ file)
  · rcases isDirectory_eq_true.1 directory with rfl | mem
    · simp
    · exact proper.names path (List.mem_append_right _ mem)

theorem names_of_isDirectory (proper : files.Proper) (directory : files.isDirectory path) :
    ∀ name ∈ path, FilePath.Proper name :=
  proper.names_of_holds (.inr directory)

theorem isDirectory_dropLast (proper : files.Proper) (holds : files.Holds path) :
    files.isDirectory path.dropLast := by
  rcases holds with file | directory
  · exact proper.above path (List.mem_append_left _ file)
  · rcases isDirectory_eq_true.1 directory with rfl | mem
    · rfl
    · exact proper.above path (List.mem_append_right _ mem)

/-- What contains a directory is a directory. -/
theorem isDirectory_of_append (proper : files.Proper) {above names : List String}
    (directory : files.isDirectory (above ++ names)) : files.isDirectory above := by
  induction names using List.reverseRecOn with
  | nil => simpa using directory
  | append_singleton names name ih =>
      apply ih
      simpa [← List.append_assoc] using proper.isDirectory_dropLast (.inr directory)

end Proper

/-! ## What a path leads to -/

theorem follow_append (files : Files) (above names others : List String) :
    files.follow above (names ++ others) =
      (files.follow above names).bind (files.follow · others) := by
  induction names generalizing above with
  | nil => rfl
  | cons name names ih =>
      simp only [List.cons_append, follow, ih]
      split
      · rfl
      · split <;> rfl

theorem ne_empty_of_resolve {written : String} (leads : files.resolve written = some path) :
    written ≠ "" := by
  rintro rfl
  simp [resolve] at leads

/-- A relative path leads on from the directory of a file if it stands behind the path to this
directory. -/
theorem resolve_join_parent {file written name : String}
    (leads : files.resolve file = some path) (named : FilePath.fileName? file = some name)
    (relative : FilePath.isAbsolute written = false) (given : written ≠ "") :
    ∃ directory, path = directory ++ [name] ∧ files.isDirectory directory ∧
      files.resolve (FilePath.join (FilePath.parent file) written) =
        (files.follow directory (FilePath.parts written)).filter fun names =>
          !FilePath.endsIdle written || files.isDirectory names := by
  have down : name ≠ ".." := by simpa using (Option.filter_eq_some_iff.1 named).2
  have ne : FilePath.join (FilePath.parent file) written ≠ "" := fun empty =>
    given ((FilePath.join_eq_empty relative).1 empty).2
  have begins : files.start (FilePath.join (FilePath.parent file) written) = files.start file := by
    rw [start, start, FilePath.isAbsolute_join_parent named relative]
  rw [resolve, if_neg (ne_empty_of_resolve leads), Option.filter_eq_some_iff,
    FilePath.parts_parent named, follow_append, Option.bind_eq_some_iff] at leads
  obtain ⟨⟨directory, followed, last⟩, -⟩ := leads
  simp only [follow, down, if_false] at last
  split at last
  · cases last
  · next inside =>
    obtain rfl : directory ++ [name] = path := by simpa using last
    refine ⟨directory, rfl, by simpa using inside, ?_⟩
    rw [resolve, if_neg ne, begins, FilePath.parts_join _ relative,
      FilePath.endsIdle_join _ relative, follow_append, followed, Option.bind_some]

namespace Proper

/-- The names on the way to something in the tree lead to it. -/
theorem follow_eq (proper : files.Proper) {above names : List String}
    (holds : files.Holds (above ++ names)) :
    files.follow above names = some (above ++ names) := by
  induction names generalizing above with
  | nil => simp [follow]
  | cons name names ih =>
      have down : name ≠ ".." := (proper.names_of_holds holds name (by simp)).down
      have around := proper.isDirectory_dropLast holds
      rw [List.dropLast_append_of_ne_nil (List.cons_ne_nil _ _)] at around
      have inside : files.Holds ((above ++ [name]) ++ names) := by simpa using holds
      simp [follow, proper.isDirectory_of_append around, down, ih inside]

/-- A path that leads to a directory and on by names leads to what has these names there. -/
theorem resolve_joinAll (proper : files.Proper) {written : String} {below : List String}
    (leads : files.resolve written = some path) (holds : files.Holds (path ++ below)) :
    files.resolve (FilePath.joinAll written below) = some (path ++ below) := by
  by_cases here : below = []
  · simpa [here, FilePath.joinAll] using leads
  · have given := ne_empty_of_resolve leads
    have names : ∀ name ∈ below, FilePath.Proper name :=
      fun name mem => proper.names_of_holds holds name (List.mem_append_right _ mem)
    obtain ⟨ne, absolute, parts⟩ := FilePath.joinAll_spec given names
    have followed : files.follow (files.start written) (FilePath.parts written) = some path := by
      rw [resolve, if_neg given] at leads
      exact (Option.filter_eq_some_iff.1 leads).1
    have begins : files.start (FilePath.joinAll written below) = files.start written := by
      rw [start, start, absolute]
    simp [resolve, ne, begins, parts, follow_append, followed, proper.follow_eq holds,
      FilePath.endsIdle_joinAll written names here]

/-- What is in the tree is found at its path from the root. -/
theorem resolve_root (proper : files.Proper) (holds : files.Holds path) :
    files.resolve (FilePath.joinAll "/" path) = some path := by
  have root : files.resolve "/" = some [] := rfl
  simpa using proper.resolve_joinAll root (by simpa using holds)

/-- A directory is found at its path from where the program runs. -/
theorem resolve_working (proper : files.Proper) {below : List String}
    (directory : files.isDirectory (files.working ++ below)) :
    files.resolve (FilePath.joinAll "." below) = some (files.working ++ below) := by
  have here : files.resolve "." = some files.working := by
    have working := proper.isDirectory_of_append directory
    have absolute : FilePath.isAbsolute "." = false := rfl
    have parts : FilePath.parts "." = [] := rfl
    simp [resolve, start, absolute, parts, follow, working]
  exact proper.resolve_joinAll here (.inr directory)

/-- A directory below where the program runs is found at its names alone. -/
theorem resolve_intercalate (proper : files.Proper) {below : List String}
    (directory : files.isDirectory (files.working ++ below)) (ne : below ≠ []) :
    files.resolve ("/".intercalate below) = some (files.working ++ below) := by
  have names (name : String) (mem : name ∈ below) : FilePath.Proper name :=
    proper.names_of_isDirectory directory name (List.mem_append_right _ mem)
  simp [resolve, start, FilePath.intercalate_ne_empty names ne,
    FilePath.isAbsolute_intercalate names, FilePath.parts_intercalate names,
    proper.follow_eq (.inr directory), directory]

/-! ## What changes a tree -/

/-- Making a directory where there is nothing keeps the tree in order. -/
theorem makeDirectory (proper : files.Proper) {above : List String} {name : String}
    (directory : files.isDirectory above) (named : FilePath.Proper name)
    (nothing : above ++ [name] ∉ files.texts.map (·.1)) :
    Proper { files with directories := files.directories ++ [above ++ [name]] } := by
  have wider (path : List String) (old : files.isDirectory path) :
      isDirectory { files with directories := files.directories ++ [above ++ [name]] } path := by
    rcases isDirectory_eq_true.1 old with rfl | mem
    · rfl
    · exact isDirectory_eq_true.2 (.inr (List.mem_append_left _ mem))
  have cases (path : List String)
      (mem : path ∈ files.texts.map (·.1) ++ (files.directories ++ [above ++ [name]])) :
      path ∈ files.texts.map (·.1) ++ files.directories ∨ path = above ++ [name] := by
    simpa [or_assoc] using mem
  refine ⟨fun path mem => ?_, fun path mem => ?_, fun path mem => ?_⟩
  · rcases cases path mem with mem | rfl
    · exact proper.names path mem
    · simpa [or_imp, forall_and] using ⟨proper.names_of_isDirectory directory, named⟩
  · rcases cases path mem with mem | rfl
    · exact wider _ (proper.above path mem)
    · exact wider _ (by simpa using directory)
  · have old := proper.apart path mem
    have other : path ≠ above ++ [name] := ne_of_mem_of_not_mem mem nothing
    simp_all [isDirectory]

/-- Making the directories on the way to a file keeps the tree in order. -/
theorem reach (names : List String) {above place : List String} {others : Files}
    (proper : files.Proper) (directory : files.isDirectory above)
    (busy : ∀ name ∈ names, FilePath.Bare name ∧ FilePath.isIdle name = false)
    (reached : Files.reach above names files = some (place, others)) :
    others.Proper ∧ others.isDirectory place := by
  induction names generalizing above files with
  | nil =>
      simp only [Files.reach, Option.some.injEq, Prod.mk.injEq] at reached
      obtain ⟨rfl, rfl⟩ := reached
      exact ⟨proper, directory⟩
  | cons name names ih =>
      have rest : ∀ name ∈ names, FilePath.Bare name ∧ FilePath.isIdle name = false :=
        fun name mem => busy name (List.mem_cons_of_mem _ mem)
      obtain ⟨bare, named⟩ := busy name List.mem_cons_self
      rw [Files.reach] at reached
      split at reached
      · exact ih proper (proper.isDirectory_dropLast (.inr directory)) rest reached
      · next down =>
        dsimp only at reached
        split at reached
        · next old => exact ih proper old rest reached
        · split at reached
          · simp at reached
          · next fresh =>
            have nothing : above ++ [name] ∉ files.texts.map (·.1) := by
              simpa [text?] using fresh
            refine ih (proper.makeDirectory directory ⟨bare, named, down⟩ nothing) ?_ rest reached
            exact isDirectory_eq_true.2 (.inr (by simp))

/-- Taking a file away keeps the tree in order. -/
theorem without (proper : files.Proper) (path : List String) : (files.without path).Proper := by
  have fewer (other : List String) (mem : other ∈ (files.without path).texts.map (·.1)) :
      other ∈ files.texts.map (·.1) := by
    obtain ⟨entry, found, rfl⟩ := List.mem_map.1 mem
    exact List.mem_map_of_mem (List.mem_of_mem_filter found)
  have all (other : List String)
      (mem : other ∈ (files.without path).texts.map (·.1) ++ (files.without path).directories) :
      other ∈ files.texts.map (·.1) ++ files.directories :=
    List.mem_append.2 ((List.mem_append.1 mem).imp_left (fewer other))
  exact ⟨fun other mem => proper.names other (all other mem),
    fun other mem => proper.above other (all other mem),
    fun other mem => proper.apart other (fewer other mem)⟩

theorem remove {path : String} {others : Files} (proper : files.Proper)
    (removed : files.remove path = some others) : others.Proper := by
  simp only [Files.remove, Option.bind_eq_bind, Option.bind_eq_some_iff] at removed
  obtain ⟨names, -, _, -, eq⟩ := removed
  cases eq
  exact proper.without names

/-- Putting a file into a directory keeps the tree in order. -/
theorem addFile (proper : files.Proper) {above : List String} {name : String}
    (directory : files.isDirectory above) (named : FilePath.Proper name)
    (nothing : files.isDirectory (above ++ [name]) = false) (text : String) :
    Proper { files with texts := files.texts ++ [(above ++ [name], text)] } := by
  have cases (path : List String)
      (mem : path ∈ (files.texts ++ [(above ++ [name], text)]).map (·.1) ++ files.directories) :
      path ∈ files.texts.map (·.1) ++ files.directories ∨ path = above ++ [name] := by
    simpa [or_assoc, or_comm, or_left_comm] using mem
  refine ⟨fun path mem => ?_, fun path mem => ?_, fun path mem => ?_⟩
  · rcases cases path mem with mem | rfl
    · exact proper.names path mem
    · simpa [or_imp, forall_and] using ⟨proper.names_of_isDirectory directory, named⟩
  · rcases cases path mem with mem | rfl
    · exact proper.above path mem
    · simpa [isDirectory] using directory
  · rw [List.map_append, List.mem_append] at mem
    rcases mem with mem | mem
    · exact proper.apart path mem
    · obtain rfl : path = above ++ [name] := by simpa using mem
      exact nothing

theorem write {path text : String} {others : Files} (proper : files.Proper)
    (written : files.write path text = some others) : others.Proper := by
  simp only [Files.write, Option.bind_eq_bind, Option.bind_eq_some_iff] at written
  obtain ⟨name, named, written⟩ := written
  split at written
  · simp at written
  · next begins =>
    obtain ⟨-, begins⟩ : FilePath.endsIdle path = false ∧ files.isDirectory (files.start path) := by
      simpa using begins
    simp only [Option.bind_eq_some_iff] at written
    obtain ⟨⟨above, made⟩, reached, written⟩ := written
    have names := FilePath.busy_of_mem_parts path
    obtain ⟨mem, down⟩ := Option.filter_eq_some_iff.1 named
    obtain ⟨ordered, directory⟩ := proper.reach _ begins
      (fun name mem => names name (List.dropLast_subset _ mem)) reached
    split at written
    · simp at written
    · next nothing =>
      cases written
      have last := names name (List.mem_of_getLast? mem)
      exact (ordered.without _).addFile directory ⟨last.1, last.2, by simpa using down⟩
        (Bool.eq_false_of_not_eq_true nothing) text

end Proper

end UiDoc.Files
