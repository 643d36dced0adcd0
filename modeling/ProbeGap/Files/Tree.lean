import ProbeGap.Files.Path

/-!
# File trees

The directories and files below one directory, as a value. A place in the tree is the list
of names that leads to it. Paths are followed name by name: a name, also `..`, can only be
followed from a directory, and the last name of a path need not exist.

## Contents

  * `FileTree`, `FileTree.locate?`: trees, and the place that a path leads to.
  * `FileTree.content`: what is found at a path.
  * `FileTree.createDirectories?`, `FileTree.write?`: the ways to change a tree.
-/

namespace ProbeGap

/-! ## §1. Places -/

/-- The names that lead to a place, from the top of the tree. -/
abbrev FilePlace := List String

/-- A tree of directories and files. -/
structure FileTree where
  /-- The directories below the top. -/
  directories : List FilePlace := []
  /-- The files; of two at one place the first counts. -/
  files : List (FilePlace × ByteArray) := []

namespace FileTree

/-- Whether there is a directory at a place. -/
def isDirectory (t : FileTree) (place : FilePlace) : Bool :=
  place.isEmpty || t.directories.contains place

/-- Whether there is a file at a place. -/
def isFile (t : FileTree) (place : FilePlace) : Bool :=
  t.files.any (·.1 == place)

/-- Follow names from a place. -/
def follow? (t : FileTree) (place : FilePlace) : List String → Option FilePlace
  | [] => some place
  | name :: rest =>
    if !t.isDirectory place then none
    else if name == ".." then t.follow? place.dropLast rest
    else t.follow? (place ++ [name]) rest

/-- The place that a path leads to. -/
def locate? (t : FileTree) (path : String) : Option FilePlace :=
  if path == "" then none else t.follow? [] (pathParts path)

/-! ## §2. Reading -/

/-- What is found at a path. -/
def content (t : FileTree) (path : String) : PathContent :=
  match t.locate? path with
  | none => .nothing
  | some place =>
    if t.isDirectory place then .directory
    else if namesDirectory path then .nothing
    else
      match t.files.lookup place with
      | some bytes => .file bytes
      | none => .nothing

/-! ## §3. Changing -/

/-- Create the directories that lead to a place and are missing. -/
def create? (t : FileTree) (place : FilePlace) : List String → Option FileTree
  | [] => some t
  | name :: rest =>
    if name == ".." then t.create? place.dropLast rest
    else
      let place := place ++ [name]
      if t.isDirectory place then t.create? place rest
      else if t.isFile place then none
      else create? { t with directories := place :: t.directories } place rest

/-- Create the directory at a path, with those that lead to it. -/
def createDirectories? (t : FileTree) (path : String) : Option FileTree :=
  t.create? [] (pathParts path)

/-- Put a file at a path, in the place of the present one. -/
def write? (t : FileTree) (path : String) (bytes : ByteArray) : Option FileTree :=
  match t.locate? path with
  | none => none
  | some place =>
    if t.isDirectory place || namesDirectory path then none
    else some { t with files := (place, bytes) :: t.files }

/-- The tree of files given by their paths, with the directories that they need. -/
def ofList (files : List (String × ByteArray)) : FileTree :=
  files.foldl
    (fun t (path, bytes) =>
      let t := (t.create? [] (pathParts path).dropLast).getD t
      (t.write? path bytes).getD t)
    {}

end FileTree
end ProbeGap
