import ProbeGap.Json.Value

/-!
# Records in JSON

A record is written as an object with the fields under their names, or as an array of
the fields in their order. Both forms are turned into the list of the fields, absent ones
as `none`, so that a record is decoded in the same way from either.

Values and trees of a text differ in one rule. A value has lost repeated members, of
which the last counts. A tree still shows them, and there the repetition of a known field
is an error; members that are not fields are passed over without giving them a meaning.

## Contents

  * `Json.fields?`, `Literal.fields?`: the fields of a record.
  * `Literal.float?` and its companions: the typed meaning of a part of a tree.
-/

namespace ProbeGap

/-! ## §1. Fields of values -/

/-- The list of `count` entries that starts with the given ones. -/
def padded {α : Type} (count : Nat) (xs : List α) : List (Option α) :=
  xs.map some ++ List.replicate (count - xs.length) none

/-- The fields of a record. An array has at least the first `required` of them. -/
def Json.fields? (names : List String) (required : Nat) : Json → Option (List (Option Json))
  | .object members => some (names.map (Json.object members).get?)
  | .array items =>
    if required ≤ items.length ∧ items.length ≤ names.length then
      some (padded names.length items)
    else none
  | _ => none

/-! ## §2. Typed parts of a tree -/

namespace Literal

/-- A number as a double. -/
def float? : Literal → Option Float
  | .number n => n.resolve?.map (·.toFloat)
  | _ => none

/-- A whole number of 64 bits without sign. -/
def uint64? : Literal → Option UInt64
  | .number n => n.resolve?.bind (·.toUInt64?)
  | _ => none

/-- A text. -/
def text? : Literal → Option String
  | .string pieces => stringText? pieces
  | _ => none

/-- The items of an array. -/
def items? : Literal → Option (List Literal)
  | .array items => some items
  | _ => none

/-- The name of an alternative without content: a text, or an object with nothing but that
name and null under it. -/
def choice? : Literal → Option String
  | .string pieces => stringText? pieces
  | .object [(key, .null)] => stringText? key
  | _ => none

/-- A part that may be null or absent. -/
def optional? {α : Type} (decode : Literal → Option α) : Option Literal → Option (Option α)
  | none => some none
  | some .null => some none
  | some literal => (decode literal).map some

/-- The names of the members of an object with their trees. -/
def named? : List (List StringPiece × Literal) → Option (List (String × Literal))
  | [] => some []
  | (key, value) :: rest =>
    match stringText? key with
    | some name => (named? rest).map ((name, value) :: ·)
    | none => none

/-- The one member with a name, or none. Two are an error. -/
def onlyMember? (members : List (String × Literal)) (name : String) :
    Option (Option Literal) :=
  match members.filter (·.1 == name) with
  | [] => some none
  | [member] => some (some member.2)
  | _ => none

/-- The fields of a record. An array has at least the first `required` of them. -/
def fields? (names : List String) (required : Nat) : Literal → Option (List (Option Literal))
  | .object members =>
    match named? members with
    | some members => names.mapM (onlyMember? members)
    | none => none
  | .array items =>
    if required ≤ items.length ∧ items.length ≤ names.length then
      some (padded names.length items)
    else none
  | _ => none

end Literal
end ProbeGap
