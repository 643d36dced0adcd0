import ProbeGap.Json.Value
import ProbeGap.Numeric.Decimal

/-!
# Writing JSON

A value is written compactly, without any white space, or over several lines, with two
blanks for each level, one item or member a line, and a blank behind a colon. Empty
arrays and objects stay on their line. There is no line end behind the last line.

Quotes, backslashes and control characters are escaped, the latter by a letter if they
have one; all other characters stand for themselves. Doubles that are not finite are
written as null.
-/

namespace ProbeGap

/-! ## §1. Strings and numbers -/

/-- A hexadecimal digit, in lower case. -/
def hexDigit (n : Nat) : Char :=
  Nat.digitChar n

/-- A character within quotes. -/
def escapedCharacter (c : Char) : List Char :=
  if c = '"' then ['\\', '"']
  else if c = '\\' then ['\\', '\\']
  else if c = '\x08' then ['\\', 'b']
  else if c = '\x0c' then ['\\', 'f']
  else if c = '\n' then ['\\', 'n']
  else if c = '\r' then ['\\', 'r']
  else if c = '\t' then ['\\', 't']
  else if c.toNat < 0x20 then
    ['\\', 'u', '0', '0', hexDigit (c.toNat / 16), hexDigit (c.toNat % 16)]
  else [c]

/-- A text within quotes. -/
def quoted (s : String) : List Char :=
  '"' :: s.toList.flatMap escapedCharacter ++ ['"']

/-- The word for a missing value. -/
def nullWord : List Char := ['n', 'u', 'l', 'l']

/-- The word for a truth value. -/
def boolWord (b : Bool) : List Char :=
  if b then ['t', 'r', 'u', 'e'] else ['f', 'a', 'l', 's', 'e']

/-- A number. -/
def JsonNumber.written : JsonNumber → List Char
  | .whole value => signed (decide (value < 0)) (digits value.natAbs)
  | .float value =>
    match dataText? value with
    | some text => text.toList
    | none => nullWord

namespace Json

/-- A list of values, each behind a comma but the first. -/
def separated (separator : List Char) : List (List Char) → List Char
  | [] => []
  | x :: rest => x ++ rest.flatMap (separator ++ ·)

/-! ## §2. One line -/

mutual

/-- A value without white space. -/
def compact : Json → List Char
  | .null => nullWord
  | .bool b => boolWord b
  | .number n => n.written
  | .string s => quoted s
  | .array items => '[' :: separated [','] (compactItems items) ++ [']']
  | .object members => '\x7b' :: separated [','] (compactMembers members) ++ ['\x7d']

/-- The items of an array. -/
def compactItems : List Json → List (List Char)
  | [] => []
  | item :: rest => compact item :: compactItems rest

/-- The members of an object. -/
def compactMembers : List (String × Json) → List (List Char)
  | [] => []
  | (name, value) :: rest => (quoted name ++ ':' :: compact value) :: compactMembers rest

end

/-! ## §3. Several lines -/

/-- A line end and the blanks before the next line of a level. -/
def newLine (level : Nat) : List Char :=
  '\n' :: List.replicate (2 * level) ' '

mutual

/-- A value at a level. -/
def pretty (level : Nat) : Json → List Char
  | .null => nullWord
  | .bool b => boolWord b
  | .number n => n.written
  | .string s => quoted s
  | .array [] => ['[', ']']
  | .array items =>
    '[' :: newLine (level + 1) ++
      separated (',' :: newLine (level + 1)) (prettyItems (level + 1) items) ++
      newLine level ++ [']']
  | .object [] => ['\x7b', '\x7d']
  | .object members =>
    '\x7b' :: newLine (level + 1) ++
      separated (',' :: newLine (level + 1)) (prettyMembers (level + 1) members) ++
      newLine level ++ ['\x7d']

/-- The items of an array at a level. -/
def prettyItems (level : Nat) : List Json → List (List Char)
  | [] => []
  | item :: rest => pretty level item :: prettyItems level rest

/-- The members of an object at a level. -/
def prettyMembers (level : Nat) : List (String × Json) → List (List Char)
  | [] => []
  | (name, value) :: rest =>
    (quoted name ++ ':' :: ' ' :: pretty level value) :: prettyMembers level rest

end

/-- The text of a value over several lines. -/
def prettyText (j : Json) : String :=
  String.ofList (pretty 0 j)

/-- The text of a value on one line. -/
def compactText (j : Json) : String :=
  String.ofList (compact j)

end Json
end ProbeGap
