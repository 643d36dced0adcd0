/-!
# Paths

A path is a text of names with slashes between them. The name of the file that a path
leads to may have an extension, which tells the form of the file.
-/

namespace ProbeGap

/-! ## §1. Names and extensions -/

/-- The texts between the slashes of a text. -/
def splitSlashes : List Char → List (List Char)
  | [] => [[]]
  | c :: rest =>
    if c == '/' then [] :: splitSlashes rest
    else
      match splitSlashes rest with
      | [] => [[c]]
      | part :: parts => (c :: part) :: parts

/-- The parts of a path, without those that stay in place. -/
def pathParts (path : String) : List String :=
  ((splitSlashes path.toList).map String.ofList).filter fun part => part != "" && part != "."

/-- The name of the file that a path leads to. -/
def fileName? (path : String) : Option String :=
  match (pathParts path).getLast? with
  | some ".." => none
  | name => name

/-- What follows the last point of a name, unless the name starts with it. -/
def extension? (path : String) : Option String :=
  match fileName? path with
  | none => none
  | some name =>
    match name.toList.reverse.span (· != '.') with
    | (after, _ :: _ :: _) => some (String.ofList after.reverse)
    | _ => none

/-- The path of a name within a directory. -/
def childPath (directory name : String) : String :=
  if directory.toList.getLast?.all (· == '/') then directory ++ name
  else directory ++ "/" ++ name

/-- Whether a path can only lead to a directory. -/
def namesDirectory (path : String) : Bool :=
  match path.toList.reverse with
  | '/' :: _ => true
  | '.' :: '/' :: _ => true
  | _ => false

/-! ## §2. What is found at a path -/

/-- What is found at a path. -/
inductive PathContent where
  | nothing
  | directory
  | file (bytes : ByteArray)

/-- The bytes at a path, if there is a file. -/
def PathContent.bytes? : PathContent → Option ByteArray
  | .file bytes => some bytes
  | _ => none

/-- The text at a path, if there is a file of text. -/
def PathContent.text? (c : PathContent) : Option String :=
  c.bytes?.bind String.fromUTF8?

/-- A text that was put into a file is found there. -/
@[simp] theorem PathContent.text?_file (text : String) :
    (PathContent.file text.toUTF8).text? = some text := by
  simp [PathContent.text?, PathContent.bytes?, String.fromUTF8?, String.fromUTF8,
    text.isValidUTF8]

end ProbeGap
