import UiDoc.Files.Path

/-!
# Files

A tree of files with text in them, without links.  A path starts from the root of the tree or from
the directory in which the program runs.
-/

namespace UiDoc

/-- A tree of files. -/
structure Files where
  /-- The names on the way to each file, and its text. -/
  texts : List (List String × String) := []
  /-- The names on the way to each directory below the root. -/
  directories : List (List String) := []
  /-- The names on the way to the directory in which the program runs. -/
  working : List String := []
  deriving DecidableEq, Repr

namespace Files

/-- Whether these names lead to a directory. -/
def isDirectory (files : Files) (names : List String) : Bool :=
  names.isEmpty || files.directories.contains names

/-- The text of the file to which these names lead. -/
def text? (files : Files) (names : List String) : Option String :=
  files.texts.lookup names

/-- Follows names from a directory.  A step upwards from the root stays there. -/
def follow (files : Files) : (above : List String) → List String → Option (List String)
  | above, [] => some above
  | above, name :: names =>
      if !files.isDirectory above then none
      else if name = ".." then files.follow above.dropLast names
      else files.follow (above ++ [name]) names

/-- The names on the way to where a path starts. -/
def start (files : Files) (path : String) : List String :=
  if FilePath.isAbsolute path then [] else files.working

/-- The names that a path leads to.  The empty path leads nowhere. -/
def resolve (files : Files) (path : String) : Option (List String) :=
  if path = "" then none
  else
    (files.follow (files.start path) (FilePath.parts path)).filter fun names =>
      !FilePath.endsIdle path || files.isDirectory names

/-- The text of the file at a path. -/
def textAt (files : Files) (path : String) : Option String :=
  (files.resolve path).bind files.text?

/-- The same tree without the file at these names. -/
def without (files : Files) (names : List String) : Files :=
  { files with texts := files.texts.filter fun (path, _) => path ≠ names }

/-- Follows names from a directory and makes the directories that are missing.  It fails at a
file. -/
def reach : (above names : List String) → Files → Option (List String × Files)
  | above, [], files => some (above, files)
  | above, name :: names, files =>
      if name = ".." then reach above.dropLast names files
      else
        let next := above ++ [name]
        if files.isDirectory next then reach next names files
        else if (files.text? next).isSome then none
        else reach next names { files with directories := files.directories ++ [next] }

/-- Sets the text of the file at a path, if there can be one. -/
def write (files : Files) (path text : String) : Option Files := do
  let name ← FilePath.fileName? path
  let start := files.start path
  if FilePath.endsIdle path || !files.isDirectory start then none
  else
    let (above, files) ← reach start (FilePath.parts path).dropLast files
    let names := above ++ [name]
    if files.isDirectory names then none
    else
      let others := files.without names
      some { others with texts := others.texts ++ [(names, text)] }

/-- Removes the file at a path, if there is one. -/
def remove (files : Files) (path : String) : Option Files := do
  let names ← files.resolve path
  let _ ← files.text? names
  some (files.without names)

/-- A definition of a component that has been found, and the path to it. -/
structure Found where
  name : String
  path : String
  deriving DecidableEq, Repr

/-- Whether a file holds a definition, which its extension tells. -/
def isDefinition (path : List String) : Bool :=
  match path.getLast? with
  | some name => (FilePath.splitExtension name).2 == some "json"
  | none => false

/-- The paths of definitions in a directory, or of a single file, in their order. -/
def definitions (files : Files) (directory : List String) : List (List String) :=
  ((files.texts.map (·.1)).filter fun path => directory.isPrefixOf path && isDefinition path)
    |>.mergeSort FilePath.partsLe

/-- The name of the component that a file defines. -/
def definedName (path : List String) : Option String :=
  path.getLast?.bind FilePath.componentName?

/-- Keeps the first definition of each name. -/
def firstOfEach : (seen : List String) → List (List String) → List (String × List String)
  | _, [] => []
  | seen, path :: paths =>
      match definedName path with
      | some name =>
          if name ∈ seen then firstOfEach seen paths
          else (name, path) :: firstOfEach (name :: seen) paths
      | none => firstOfEach seen paths

/-- The definitions below a directory, in the order of their paths; of several with one name the
first counts. -/
def discover (files : Files) (directory : String) : List Found :=
  match files.resolve directory with
  | some names =>
      (firstOfEach [] (files.definitions names)).map fun (name, path) =>
        ⟨name, FilePath.joinAll directory (path.drop names.length)⟩
  | none => []

end Files

end UiDoc
