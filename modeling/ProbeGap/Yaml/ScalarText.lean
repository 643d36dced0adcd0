import ProbeGap.Json.Literal
import ProbeGap.Yaml.Cursor

/-!
# Scalars in YAML text

A scalar is plain or quoted, and in each form it may go over several lines. The white space
between two lines is then folded: gaps around a line end are dropped, one line end becomes
a space, and of several the first is dropped.

`Fold` collects white space until it is known what follows it. `readPlain`,
`readSingleQuoted` and `readDoubleQuoted` read a scalar from a cursor and return its text
with the cursor behind it; they fail on a text that no scalar has.
-/

namespace ProbeGap.Yaml

/-! ## §1. Folding -/

/-- White space between words, as far as it has been read. -/
structure Fold where
  /-- Gaps within the line, in reverse. -/
  gaps : List Char := []
  /-- Whether a line end was among it. -/
  broken : Bool := false
  /-- What the first line end is read as. -/
  first : List Char := []
  /-- What further line ends are read as. -/
  further : List Char := []

namespace Fold

/-- The text that stands for the white space. -/
def text (f : Fold) : List Char :=
  if !f.broken then f.gaps.reverse
  else if f.first == ['\n'] then if f.further.isEmpty then [' '] else f.further
  else f.first ++ f.further

/-- One more gap. It counts only on the line of the word before it. -/
def addGap (f : Fold) (c : Char) : Fold :=
  if f.broken then f else { f with gaps := c :: f.gaps }

/-- One more line end. -/
def addLineEnd (f : Fold) (e : List Char) : Fold :=
  if f.broken then { f with further := f.further ++ e }
  else { gaps := [], broken := true, first := e, further := f.further }

end Fold

/-- Read white space from a cursor. With a tab on a later line before the column
`tabLimit` the text is in error. The fuel bounds the number of characters. -/
def readFold (tabLimit : Nat) : (fuel : Nat) → Fold → Cursor → Option (Fold × Cursor)
  | 0, fold, cursor => some (fold, cursor)
  | fuel + 1, fold, cursor =>
    match cursor.rest with
    | [] => some (fold, cursor)
    | c :: _ =>
      if isGap c then
        if fold.broken && c == '\t' && cursor.column < tabLimit then none
        else readFold tabLimit fuel (fold.addGap c) cursor.next
      else if isLineEnd c then
        let (e, cursor) := cursor.nextLine
        readFold tabLimit fuel (fold.addLineEnd e) cursor
      else some (fold, cursor)

/-! ## §2. Plain scalars -/

/-- Whether a plain scalar ends before the given text; nothing if the text is in error.
Within flow collections a colon must not touch a mark. -/
def plainEnds? (inFlow : Bool) : List Char → Option Bool
  | [] => some true
  | ':' :: rest =>
    if inFlow && (match rest with
        | c :: _ => isFlowMark c || c == '?'
        | [] => false) then none
    else some (Cursor.endsWord rest)
  | c :: _ => some (isGap c || isLineEnd c || (inFlow && isFlowMark c))

/-- Read the characters of a word of a plain scalar. -/
def readPlainWord (inFlow : Bool) : (fuel : Nat) → List Char → Cursor →
    Option (List Char × Cursor)
  | 0, done, cursor => some (done, cursor)
  | fuel + 1, done, cursor =>
    match plainEnds? inFlow cursor.rest, cursor.rest with
    | none, _ => none
    | some false, c :: _ => readPlainWord inFlow fuel (c :: done) cursor.next
    | some _, _ => some (done, cursor)

/-- Read words of a plain scalar; `done` is the text so far, in reverse, and `fold` the
white space behind it. -/
def readPlainWords (inFlow : Bool) (indent : Nat) : (fuel : Nat) → (done : List Char) →
    Fold → Cursor → Option (List Char × Fold × Cursor)
  | 0, done, fold, cursor => some (done, fold, cursor)
  | fuel + 1, done, fold, cursor =>
    if cursor.atDocumentMark || cursor.rest.head? == some '#' then some (done, fold, cursor)
    else
      match readPlainWord inFlow cursor.rest.length [] cursor with
      | none => none
      | some (word, cursor) =>
        let done := if word.isEmpty then done else word ++ fold.text.reverse ++ done
        let fold := if word.isEmpty then fold else {}
        match cursor.rest with
        | [] => some (done, fold, cursor)
        | c :: _ =>
          if isGap c || isLineEnd c then
            match readFold indent cursor.rest.length fold cursor with
            | none => none
            | some (fold, cursor) =>
              if !inFlow && cursor.column < indent then some (done, fold, cursor)
              else readPlainWords inFlow indent fuel done fold cursor
          else some (done, fold, cursor)

/-- A scalar that has been read. -/
structure ReadScalar where
  text : String
  /-- Whether the cursor is now on a line of which nothing but white space was read. -/
  onNewLine : Bool
  cursor : Cursor

/-- Read a plain scalar. Its lines are indented by at least `indent`, except within flow
collections. -/
def readPlain (inFlow : Bool) (indent : Nat) (cursor : Cursor) : Option ReadScalar :=
  (readPlainWords inFlow indent (cursor.rest.length + 1) [] {} cursor).map
    fun (done, fold, cursor) => ⟨String.ofList done.reverse, fold.broken, cursor⟩

/-! ## §3. Quoted scalars -/

/-- A stretch of a quoted scalar without unescaped white space: the text so far, in
reverse, where the stretch ends, and whether an escaped line end cut it short. -/
structure Stretch where
  done : List Char
  cursor : Cursor
  cut : Bool := false

/-- Read a stretch between single quotes. A quote is written twice. -/
def readSingleStretch : (fuel : Nat) → List Char → Cursor → Option Stretch
  | 0, done, cursor => some ⟨done, cursor, false⟩
  | fuel + 1, done, cursor =>
    match cursor.rest with
    | '\x27' :: '\x27' :: _ => readSingleStretch fuel ('\x27' :: done) (cursor.skip 2)
    | '\x27' :: _ => some ⟨done, cursor, false⟩
    | c :: _ =>
      if isGap c || isLineEnd c then some ⟨done, cursor, false⟩
      else readSingleStretch fuel (c :: done) cursor.next
    | [] => some ⟨done, cursor, false⟩

/-- The character that a letter after a backslash stands for. -/
def escapedCharacter? : Char → Option Char
  | '0' => some '\x00'
  | 'a' => some '\x07'
  | 'b' => some '\x08'
  | 't' => some '\t'
  | '\t' => some '\t'
  | 'n' => some '\n'
  | 'v' => some '\x0b'
  | 'f' => some '\x0c'
  | 'r' => some '\r'
  | 'e' => some '\x1b'
  | ' ' => some ' '
  | '"' => some '"'
  | '/' => some '/'
  | '\\' => some '\\'
  | 'N' => some '\u0085'
  | '_' => some '\u00A0'
  | 'L' => some '\u2028'
  | 'P' => some '\u2029'
  | _ => none

/-- How many hexadecimal digits follow a letter after a backslash. -/
def hexLength? : Char → Option Nat
  | 'x' => some 2
  | 'u' => some 4
  | 'U' => some 8
  | _ => none

/-- The character with the code point that hexadecimal digits denote. -/
def characterOfHex? (ds : List Char) : Option Char := do
  let values ← ds.mapM hexValue?
  let n := values.foldl (fun n d => n * 16 + d) 0
  if n < 0xD800 ∨ (0xDFFF < n ∧ n ≤ 0x10FFFF) then some (Char.ofNat n) else none

/-- The character that an escape behind a backslash stands for, and its length. -/
def readEscape? : List Char → Option (Char × Nat)
  | [] => none
  | c :: rest =>
    match hexLength? c with
    | some n =>
      if rest.length < n then none
      else (characterOfHex? (rest.take n)).map fun d => (d, n + 1)
    | none => (escapedCharacter? c).map fun d => (d, 1)

/-- Read a stretch between double quotes. -/
def readDoubleStretch : (fuel : Nat) → List Char → Cursor → Option Stretch
  | 0, done, cursor => some ⟨done, cursor, false⟩
  | fuel + 1, done, cursor =>
    match cursor.rest with
    | '"' :: _ => some ⟨done, cursor, false⟩
    | '\\' :: rest =>
      if rest.head?.any isLineEnd then some ⟨done, cursor.next.nextLine.2, true⟩
      else
        match readEscape? rest with
        | some (c, length) => readDoubleStretch fuel (c :: done) (cursor.skip (length + 1))
        | none => none
    | c :: _ =>
      if isGap c || isLineEnd c then some ⟨done, cursor, false⟩
      else readDoubleStretch fuel (c :: done) cursor.next
    | [] => some ⟨done, cursor, false⟩

/-- Read a quoted scalar behind its opening quote: stretches with white space between
them. A mark around documents must not stand within it. -/
def readQuoted (quote : Char) (stretch : List Char → Cursor → Option Stretch) :
    (fuel : Nat) → (done : List Char) → Cursor → Option ReadScalar
  | 0, _, _ => none
  | fuel + 1, done, cursor =>
    if cursor.atDocumentMark then none
    else
      match stretch done cursor with
      | none => none
      | some s =>
        match s.cursor.rest with
        | [] => none
        | c :: _ =>
          if c == quote then some ⟨String.ofList s.done.reverse, false, s.cursor.next⟩
          else
            match readFold 0 s.cursor.rest.length { broken := s.cut } s.cursor with
            | none => none
            | some (fold, cursor) =>
              readQuoted quote stretch fuel (fold.text.reverse ++ s.done) cursor

/-- Read a scalar between single quotes, from its opening quote on. -/
def readSingleQuoted (cursor : Cursor) : Option ReadScalar :=
  readQuoted '\x27' (readSingleStretch cursor.rest.length) (cursor.rest.length + 1) [] cursor.next

/-- Read a scalar between double quotes, from its opening quote on. -/
def readDoubleQuoted (cursor : Cursor) : Option ReadScalar :=
  readQuoted '"' (readDoubleStretch cursor.rest.length) (cursor.rest.length + 1) [] cursor.next

end ProbeGap.Yaml
