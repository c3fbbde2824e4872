/-!
# Paths of files

A path is a list of names with slashes between them.  Empty names and names of a single point mean
nothing.
-/

namespace UiDoc.FilePath

/-- Cuts a text at the slashes. -/
def cut : List Char → List (List Char)
  | [] => [[]]
  | c :: cs =>
      if c = '/' then [] :: cut cs
      else
        match cut cs with
        | [] => [[c]]
        | piece :: pieces => (c :: piece) :: pieces

/-- What stands between the slashes of a path. -/
def pieces (path : String) : List String :=
  (cut path.toList).map String.ofList

/-- Whether what stands between two slashes means nothing. -/
def isIdle (piece : String) : Bool :=
  piece == "" || piece == "."

/-- The names of a path. -/
def parts (path : String) : List String :=
  (pieces path).filter fun piece => !isIdle piece

/-- Whether a path ends in a way that only directories have. -/
def endsIdle (path : String) : Bool :=
  (pieces path).getLast?.any isIdle

/-- Whether a path starts from the root of all files. -/
def isAbsolute (path : String) : Bool :=
  path.toList.head? == some '/'

/-- The path that leads on from where another one leads; an absolute path leads from the root. -/
def join (base path : String) : String :=
  if isAbsolute path then path
  else if base = "" ∨ base.toList.getLast? = some '/' then base ++ path
  else base ++ "/" ++ path

/-- The path that leads on by some names. -/
def joinAll (base : String) (names : List String) : String :=
  names.foldl join base

/-- The path to the directory of what a path leads to, with a slash behind it. -/
def parent (path : String) : String :=
  String.join ((((pieces path).reverse.dropWhile isIdle).drop 1).reverse.map (· ++ "/"))

/-- The name that a path ends with, unless it leads upwards. -/
def fileName? (path : String) : Option String :=
  (parts path).getLast?.filter (· ≠ "..")

/-- Splits a name at its last point: what stands before and behind it.  A point at the start does
not count. -/
def splitExtension (name : String) : String × Option String :=
  let cs := name.toList
  let behind := (cs.reverse.takeWhile (· ≠ '.')).reverse
  let before := cs.take (cs.length - behind.length - 1)
  if behind.length = cs.length ∨ before = [] then (name, none)
  else (String.ofList before, some (String.ofList behind))

/-- The name that a path ends with, without its extension. -/
def stem? (path : String) : Option String :=
  (fileName? path).map fun name => (splitExtension name).1

/-- Whether names come before other names, compared one by one. -/
def partsLe : List String → List String → Bool
  | [], _ => true
  | _ :: _, [] => false
  | a :: as, b :: bs => a < b || (a == b && partsLe as bs)

/-- The name of the component that a file defines. -/
def componentName? (path : String) : Option String :=
  (stem? path).filter (· ≠ "")

end UiDoc.FilePath
