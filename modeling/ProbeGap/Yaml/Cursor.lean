/-!
# Places in YAML text

YAML gives a meaning to the column at which a line starts, so its text is read with a
cursor that knows where it stands. This module holds the cursor and the classes of
characters that the structure of a text depends on.

A line ends with a line feed, a carriage return, both together, a next-line character or
one of the two Unicode separators. The first four are read as a line feed; the separators
are kept.
-/

namespace ProbeGap.Yaml

/-! ## §1. Characters -/

/-- Whether a character may stand in a text. -/
def isAllowed (c : Char) : Bool :=
  let n := c.toNat
  n == 0x09 || n == 0x0A || n == 0x0D || (0x20 ≤ n && n ≤ 0x7E) || n == 0x85 ||
    (0xA0 ≤ n && n ≤ 0xD7FF) || (0xE000 ≤ n && n ≤ 0xFFFD) || 0x10000 ≤ n

/-- Whether a character ends a line. -/
def isLineEnd (c : Char) : Bool :=
  c == '\n' || c == '\r' || c == '\u0085' || c == '\u2028' || c == '\u2029'

/-- Whether a character separates words within a line. -/
def isGap (c : Char) : Bool :=
  c == ' ' || c == '\t'

/-- Whether a character closes, opens or separates flow collections. -/
def isFlowMark (c : Char) : Bool :=
  c == ',' || c == '[' || c == ']' || c == '\x7b' || c == '\x7d'

/-- The byte order mark. -/
def byteOrderMark : Char := '\uFEFF'

/-! ## §2. Cursors -/

/-- A place in a text. -/
structure Cursor where
  /-- The text from here on. -/
  rest : List Char
  /-- The number of characters before this place. -/
  index : Nat := 0
  /-- The number of lines before this one. -/
  line : Nat := 0
  /-- The number of characters before this place in its line. -/
  column : Nat := 0

namespace Cursor

/-- The place behind the next character of the line. -/
def next (c : Cursor) : Cursor :=
  match c.rest with
  | [] => c
  | _ :: rest => { c with rest := rest, index := c.index + 1, column := c.column + 1 }

/-- The place a number of characters further on in the line. -/
def skip (n : Nat) (c : Cursor) : Cursor :=
  match n with
  | 0 => c
  | n + 1 => c.next.skip n

/-- The start of the next line, and what the end of this line is read as. -/
def nextLine (c : Cursor) : List Char × Cursor :=
  match c.rest with
  | '\r' :: '\n' :: rest => (['\n'], ⟨rest, c.index + 2, c.line + 1, 0⟩)
  | '\u2028' :: rest => (['\u2028'], ⟨rest, c.index + 1, c.line + 1, 0⟩)
  | '\u2029' :: rest => (['\u2029'], ⟨rest, c.index + 1, c.line + 1, 0⟩)
  | _ :: rest => (['\n'], ⟨rest, c.index + 1, c.line + 1, 0⟩)
  | [] => ([], c)

/-- Whether the text goes on with a gap, a line end or nothing. -/
def endsWord : List Char → Bool
  | [] => true
  | c :: _ => isGap c || isLineEnd c

/-- Whether a line starts here with one of the two marks around documents. -/
def atDocumentMark (c : Cursor) : Bool :=
  c.column == 0 &&
    match c.rest with
    | '-' :: '-' :: '-' :: rest => endsWord rest
    | '.' :: '.' :: '.' :: rest => endsWord rest
    | _ => false

end Cursor
end ProbeGap.Yaml
