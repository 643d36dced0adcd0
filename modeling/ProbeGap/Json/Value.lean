import ProbeGap.Json.Number

/-!
# JSON values

A value is the meaning of a text: strings are texts, numbers are whole numbers or
doubles, and the members of an object are listed in the order of the text. Of members
with the same name the last one counts.

Not every text has a value. A string with an unpaired surrogate has none, nor has a
number beyond the range of doubles, nor a text nested more than `maxNesting` deep.
-/

namespace ProbeGap

/-! ## §1. Values -/

/-- A JSON value. -/
inductive Json where
  | null
  | bool (value : Bool)
  | number (value : JsonNumber)
  | string (value : String)
  | array (items : List Json)
  | object (members : List (String × Json))

namespace Json

/-- The members of an object; other values have none. -/
def members : Json → List (String × Json)
  | .object members => members
  | _ => []

/-- The last member with a name. -/
def get? (j : Json) (name : String) : Option Json :=
  j.members.reverse.lookup name

/-- The items of an array. -/
def items? : Json → Option (List Json)
  | .array items => some items
  | _ => none

/-- A number as a double. -/
def float? : Json → Option Float
  | .number n => some n.toFloat
  | _ => none

/-- A whole number of 64 bits without sign. -/
def uint64? : Json → Option UInt64
  | .number n => n.toUInt64?
  | _ => none

/-- A truth value. -/
def bool? : Json → Option Bool
  | .bool b => some b
  | _ => none

/-- A text. -/
def text? : Json → Option String
  | .string s => some s
  | _ => none

end Json

/-! ## §2. From texts to values -/

/-- How many arrays and objects may contain each other. -/
def maxNesting : Nat := 127

mutual

/-- The value of a tree with room for so many containers within each other. -/
def Literal.resolve? (room : Nat) : Literal → Option Json
  | .null => some .null
  | .bool b => some (.bool b)
  | .number n => n.resolve?.map .number
  | .string pieces => (stringText? pieces).map .string
  | .array items =>
    match room with
    | 0 => none
    | room + 1 => (resolveItems? room items).map .array
  | .object members =>
    match room with
    | 0 => none
    | room + 1 => (resolveMembers? room members).map .object

/-- The values of the items of an array. -/
def resolveItems? (room : Nat) : List Literal → Option (List Json)
  | [] => some []
  | item :: rest =>
    match Literal.resolve? room item with
    | some j => (resolveItems? room rest).map (j :: ·)
    | none => none

/-- The values of the members of an object. -/
def resolveMembers? (room : Nat) : List (List StringPiece × Literal) → Option (List (String × Json))
  | [] => some []
  | (key, value) :: rest =>
    match stringText? key, Literal.resolve? room value with
    | some name, some j => (resolveMembers? room rest).map ((name, j) :: ·)
    | _, _ => none

end

/-- The value of a text. -/
def Json.read? (text : List Char) : Option Json :=
  match Literal.read? text with
  | some literal => literal.resolve? maxNesting
  | none => none

end ProbeGap
