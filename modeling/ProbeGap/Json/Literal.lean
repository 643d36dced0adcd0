import ProbeGap.Numeric.Count

/-!
# JSON text

A JSON text is read in two steps. The first one, here, follows the grammar alone and
keeps numbers and strings as they are spelled: `Literal` is the tree of a text. What a
spelling means, and how deep a text may be nested, is decided by those who use the tree.
A reader that passes over a member does not have to give a meaning to it.

The grammar is strict: no comments, no trailing commas, no leading zeros or plus signs, no
control characters within strings, nothing but white space after the value.

## Contents

  * `NumberLiteral`, `StringPiece`, `Literal`: texts as trees.
  * `readString`, `readNumberLiteral`, `readLiteral`: a tree from the front of a text.
  * `Literal.read?`: the tree of a whole text.
  * `plainCharacters?`: the characters that a string denotes.
-/

namespace ProbeGap

/-! ## §1. Trees -/

/-- The spelling of a number. -/
structure NumberLiteral where
  negative : Bool
  /-- The digits before the point. -/
  whole : List Char
  /-- The digits behind the point; none if there is no point. -/
  fraction : List Char
  /-- The sign and the digits of the exponent, if there is one. -/
  exponent : Option (Bool × List Char)
  deriving DecidableEq, Repr

/-- A piece of a string: a character, also an escaped one, or an escaped 16-bit unit. -/
inductive StringPiece where
  | character (c : Char)
  | unit (value : Nat)
  deriving DecidableEq, Repr

/-- The tree of a JSON text. -/
inductive Literal where
  | null
  | bool (value : Bool)
  | number (spelling : NumberLiteral)
  | string (pieces : List StringPiece)
  | array (items : List Literal)
  | object (members : List (List StringPiece × Literal))

/-! ## §2. Strings -/

/-- The value of a hexadecimal digit. -/
def hexValue? (c : Char) : Option Nat :=
  if '0' ≤ c ∧ c ≤ '9' then some (c.toNat - '0'.toNat)
  else if 'a' ≤ c ∧ c ≤ 'f' then some (c.toNat - 'a'.toNat + 10)
  else if 'A' ≤ c ∧ c ≤ 'F' then some (c.toNat - 'A'.toNat + 10)
  else none

/-- The 16-bit unit of four hexadecimal digits. -/
def unitOfHex? (a b c d : Char) : Option Nat := do
  let a ← hexValue? a
  let b ← hexValue? b
  let c ← hexValue? c
  let d ← hexValue? d
  return ((a * 16 + b) * 16 + c) * 16 + d

/-- The character that a letter after a backslash stands for. -/
def escaped? : Char → Option Char
  | '"' => some '"'
  | '\\' => some '\\'
  | '/' => some '/'
  | 'b' => some '\x08'
  | 'f' => some '\x0c'
  | 'n' => some '\n'
  | 'r' => some '\r'
  | 't' => some '\t'
  | _ => none

/-- The pieces of a string up to its closing quote, and the text behind it. The pieces
read so far are given in reverse. -/
def readString (done : List StringPiece) : List Char → Option (List StringPiece × List Char)
  | [] => none
  | '"' :: rest => some (done.reverse, rest)
  | '\\' :: 'u' :: a :: b :: c :: d :: rest =>
    match unitOfHex? a b c d with
    | some value => readString (.unit value :: done) rest
    | none => none
  | '\\' :: e :: rest =>
    match escaped? e with
    | some c => readString (.character c :: done) rest
    | none => none
  | c :: rest =>
    if c = '\\' ∨ c.toNat < 0x20 then none else readString (.character c :: done) rest

/-- The characters of a string. Escaped units below and above the surrogates stand for
themselves, a high and a low surrogate together for one character; any other surrogate
has no meaning. -/
def plainCharacters? : List StringPiece → Option (List Char)
  | [] => some []
  | .character c :: rest => (plainCharacters? rest).map (c :: ·)
  | .unit high :: .unit low :: rest =>
    if 0xD800 ≤ high ∧ high < 0xDC00 then
      if 0xDC00 ≤ low ∧ low < 0xE000 then
        (plainCharacters? rest).map
          (Char.ofNat (0x10000 + (high - 0xD800) * 0x400 + (low - 0xDC00)) :: ·)
      else none
    else if 0xDC00 ≤ high ∧ high < 0xE000 then none
    else (plainCharacters? (.unit low :: rest)).map (Char.ofNat high :: ·)
  | .unit value :: rest =>
    if 0xD800 ≤ value ∧ value < 0xE000 then none
    else (plainCharacters? rest).map (Char.ofNat value :: ·)

/-- The text of a string. -/
def stringText? (pieces : List StringPiece) : Option String :=
  (plainCharacters? pieces).map String.ofList

/-! ## §3. Numbers -/

/-- The digits behind a point, of which there must be one; none if there is no point. -/
def readFractionDigits : List Char → Option (List Char × List Char)
  | '.' :: rest =>
    let (ds, rest) := spanDigits rest
    if ds.isEmpty then none else some (ds, rest)
  | rest => some ([], rest)

/-- The sign of an exponent and the text behind it. -/
def readExponentSign : List Char → Bool × List Char
  | '-' :: rest => (true, rest)
  | '+' :: rest => (false, rest)
  | rest => (false, rest)

/-- An exponent, if there is one. -/
def readExponent (s : List Char) : Option (Option (Bool × List Char) × List Char) :=
  match s with
  | c :: rest =>
    if c = 'e' ∨ c = 'E' then
      let (negative, rest) := readExponentSign rest
      let (ds, rest) := spanDigits rest
      if ds.isEmpty then none else some (some (negative, ds), rest)
    else some (none, s)
  | [] => some (none, [])

/-- The digits before a point: a zero alone, or digits that do not start with one. -/
def readWholeDigits : List Char → Option (List Char × List Char)
  | '0' :: rest => some (['0'], rest)
  | rest =>
    let (ds, rest) := spanDigits rest
    if ds.isEmpty then none else some (ds, rest)

/-- A number without its sign. -/
def readUnsigned (negative : Bool) (s : List Char) : Option (NumberLiteral × List Char) := do
  let (whole, s) ← readWholeDigits s
  let (fraction, s) ← readFractionDigits s
  let (exponent, s) ← readExponent s
  return (⟨negative, whole, fraction, exponent⟩, s)

/-- A number. -/
def readNumberLiteral : List Char → Option (NumberLiteral × List Char)
  | '-' :: rest => readUnsigned true rest
  | rest => readUnsigned false rest

/-! ## §4. Values -/

/-- White space between the parts of a text. -/
def isJsonSpace (c : Char) : Bool :=
  c == ' ' || c == '\n' || c == '\t' || c == '\r'

/-- A text without the white space it starts with. -/
def dropSpaces (s : List Char) : List Char :=
  s.dropWhile isJsonSpace

mutual

/-- The tree at the front of a text, and the text behind it. The fuel bounds the number of
steps; twice the length of the text is enough. -/
def readLiteral : (fuel : Nat) → List Char → Option (Literal × List Char)
  | 0, _ => none
  | fuel + 1, s =>
    match dropSpaces s with
    | '\x7b' :: rest =>
      match dropSpaces rest with
      | '\x7d' :: rest => some (.object [], rest)
      | rest => readMembers fuel [] rest
    | '[' :: rest =>
      match dropSpaces rest with
      | ']' :: rest => some (.array [], rest)
      | rest => readItems fuel [] rest
    | '"' :: rest => (readString [] rest).map fun (pieces, rest) => (.string pieces, rest)
    | 't' :: 'r' :: 'u' :: 'e' :: rest => some (.bool true, rest)
    | 'f' :: 'a' :: 'l' :: 's' :: 'e' :: rest => some (.bool false, rest)
    | 'n' :: 'u' :: 'l' :: 'l' :: rest => some (.null, rest)
    | rest => (readNumberLiteral rest).map fun (n, rest) => (.number n, rest)

/-- The items of an array up to its closing bracket. The items read so far are given in
reverse. -/
def readItems : (fuel : Nat) → (done : List Literal) → List Char → Option (Literal × List Char)
  | 0, _, _ => none
  | fuel + 1, done, s =>
    match readLiteral fuel s with
    | none => none
    | some (item, rest) =>
      match dropSpaces rest with
      | ',' :: rest => readItems fuel (item :: done) rest
      | ']' :: rest => some (.array (item :: done).reverse, rest)
      | _ => none

/-- The members of an object up to its closing brace. The members read so far are given in
reverse. -/
def readMembers : (fuel : Nat) → (done : List (List StringPiece × Literal)) → List Char →
    Option (Literal × List Char)
  | 0, _, _ => none
  | fuel + 1, done, s =>
    match dropSpaces s with
    | '"' :: rest =>
      match readString [] rest with
      | none => none
      | some (key, rest) =>
        match dropSpaces rest with
        | ':' :: rest =>
          match readLiteral fuel rest with
          | none => none
          | some (value, rest) =>
            match dropSpaces rest with
            | ',' :: rest => readMembers fuel ((key, value) :: done) rest
            | '\x7d' :: rest => some (.object ((key, value) :: done).reverse, rest)
            | _ => none
        | _ => none
    | _ => none

end

/-- The tree of a text that holds one value and nothing else. -/
def Literal.read? (text : List Char) : Option Literal :=
  match readLiteral (2 * text.length + 2) text with
  | some (literal, rest) => if (dropSpaces rest).isEmpty then some literal else none
  | none => none

end ProbeGap
