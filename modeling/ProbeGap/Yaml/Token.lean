import ProbeGap.Yaml.ScalarText

/-!
# Tokens of YAML text

A YAML text is read as a list of tokens: scalars, the marks that are written, and marks
for the collections that only indentation shows.

A key is not marked before it, but by the colon behind it. Wherever a key may start, an
empty slot is put among the tokens; the colon fills the slot with the mark of the key and,
if a block mapping starts with the key, the mark of the mapping. A slot that meets no
colon on its line stays empty.

Anchors, aliases, tags, directives and block scalars are refused.

## Contents

  * `Token`, `Scan`: tokens, and the state in which they are read.
  * `Scan.token?`: read the token at the cursor.
  * `Token.ofText?`: the tokens of a text.
-/

namespace ProbeGap.Yaml

/-! ## §1. Tokens and states -/

/-- A token. -/
inductive Token where
  | documentStart
  | documentEnd
  | blockSequenceStart
  | blockMappingStart
  | blockEnd
  | flowSequenceStart
  | flowSequenceEnd
  | flowMappingStart
  | flowMappingEnd
  | blockEntry
  | flowEntry
  | key
  | value
  | scalar (plain : Bool) (text : String)
  deriving DecidableEq, Repr

/-- A place where a key may have started. -/
structure OpenKey where
  /-- The slot for its mark. -/
  slot : Nat
  /-- Whether nothing but a key can start there. -/
  required : Bool
  index : Nat
  line : Nat
  column : Nat

/-- Whether a place is too far back for a key: on another line, or over 1024 characters. -/
def OpenKey.isStale (k : OpenKey) (c : Cursor) : Bool :=
  k.line < c.line || k.index + 1024 < c.index

/-- Give up an open key that is too far back; a text in which it is required is in error. -/
def OpenKey.dropStale? (c : Cursor) : Option OpenKey → Option (Option OpenKey)
  | none => some none
  | some k => if k.isStale c then if k.required then none else some none else some (some k)

/-- The state in which tokens are read. -/
structure Scan where
  cursor : Cursor
  /-- The tokens so far; some slots may still be filled. -/
  slots : Array (List Token) := #[]
  /-- The column of the innermost block collection, -1 outside of all. -/
  indent : Int := -1
  /-- The columns of the block collections around it. -/
  outerIndents : List Int := []
  /-- The open key of the innermost flow collection, or of the block around all. -/
  openKey : Option OpenKey := none
  /-- The open keys around the flow collections that the text is in. -/
  outerKeys : List (Option OpenKey) := []
  /-- Whether a key may start here. -/
  keyAllowed : Bool := true

namespace Scan

/-- Whether the text is within a flow collection. -/
def inFlow (s : Scan) : Bool :=
  !s.outerKeys.isEmpty

/-- Add a token. -/
def add (s : Scan) (t : Token) : Scan :=
  { s with slots := s.slots.push [t] }

/-- Move on in the line. -/
def skip (s : Scan) (n : Nat) : Scan :=
  { s with cursor := s.cursor.skip n }

/-- Allow a key to start here, or not. -/
def allowKey (s : Scan) (allowed : Bool) : Scan :=
  { s with keyAllowed := allowed }

/-! ## §2. Keys -/

/-- Give up all open keys that are too far back. -/
def dropStaleKeys? (s : Scan) : Option Scan := do
  let inner ← OpenKey.dropStale? s.cursor s.openKey
  let outer ← s.outerKeys.mapM (OpenKey.dropStale? s.cursor)
  return { s with openKey := inner, outerKeys := outer }

/-- Give up the open key. -/
def closeKey? (s : Scan) : Option Scan :=
  if s.openKey.any (·.required) then none else some { s with openKey := none }

/-- Open a key here, if one may start. -/
def openKeyHere? (s : Scan) : Option Scan :=
  if s.keyAllowed then do
    let s ← s.closeKey?
    let c := s.cursor
    let required := !s.inFlow && s.indent == (c.column : Int)
    return { s with
      openKey := some ⟨s.slots.size, required, c.index, c.line, c.column⟩
      slots := s.slots.push [] }
  else some s

/-! ## §3. Indentation -/

/-- End the block collections that are indented further than a column. -/
def unindent (column : Int) (s : Scan) : Scan :=
  if s.inFlow then s else go s.outerIndents s
where
  /-- End collections one by one, with the columns around them. -/
  go : List Int → Scan → Scan
    | [], s => s
    | i :: is, s =>
      if column < s.indent then
        go is { s.add .blockEnd with indent := i, outerIndents := is }
      else s

/-- Whether a block collection starts with an item at a column. -/
def startsBlock (s : Scan) (column : Nat) : Bool :=
  !s.inFlow && s.indent < (column : Int)

/-- Note the column of a block collection that starts. -/
def indentTo (s : Scan) (column : Nat) : Scan :=
  { s with indent := column, outerIndents := s.indent :: s.outerIndents }

/-- Start a block collection at the column of the cursor, unless it has started. -/
def startBlock (s : Scan) (t : Token) : Scan :=
  if s.startsBlock s.cursor.column then (s.indentTo s.cursor.column).add t else s

/-! ## §4. Reading tokens -/

/-- Move on over white space, line ends and comments. A tab must not stand where a block
collection may start. The fuel bounds the number of characters. -/
def toNextToken : (fuel : Nat) → Scan → Scan
  | 0, s => s
  | fuel + 1, s =>
    match s.cursor.rest with
    | [] => s
    | c :: rest =>
      if c == byteOrderMark && s.cursor.index == 0 then toNextToken fuel (s.skip 1)
      else if c == ' ' || (c == '\t' && (s.inFlow || !s.keyAllowed)) then
        toNextToken fuel (s.skip 1)
      else if c == '#' then
        toNextToken fuel (s.skip (rest.takeWhile (!isLineEnd ·)).length.succ)
      else if isLineEnd c then
        toNextToken fuel
          { s with cursor := s.cursor.nextLine.2, keyAllowed := s.keyAllowed || !s.inFlow }
      else s

/-- A mark around documents ends all block collections. -/
def documentMark? (s : Scan) (t : Token) : Option Scan := do
  let s ← (s.unindent (-1)).closeKey?
  return ((s.allowKey false).add t).skip 3

/-- The start of a flow collection, which may be a key. -/
def flowStart? (s : Scan) (t : Token) : Option Scan := do
  let s ← s.openKeyHere?
  return ({ s with
    openKey := none
    outerKeys := s.openKey :: s.outerKeys
    keyAllowed := true }.add t).skip 1

/-- The end of a flow collection. -/
def flowEnd? (s : Scan) (t : Token) : Option Scan := do
  let s ← s.closeKey?
  let s := match s.outerKeys with
    | [] => s
    | k :: ks => { s with openKey := k, outerKeys := ks }
  return ((s.allowKey false).add t).skip 1

/-- The comma between the items of a flow collection. -/
def flowEntry? (s : Scan) : Option Scan := do
  let s ← s.closeKey?
  return ((s.allowKey true).add .flowEntry).skip 1

/-- The dash before an item of a block sequence. -/
def blockEntry? (s : Scan) : Option Scan :=
  if !s.inFlow && !s.keyAllowed then none
  else do
    let s ← (s.startBlock .blockSequenceStart).closeKey?
    return ((s.allowKey true).add .blockEntry).skip 1

/-- The question mark before a key. -/
def markedKey? (s : Scan) : Option Scan :=
  if !s.inFlow && !s.keyAllowed then none
  else do
    let s ← (s.startBlock .blockMappingStart).closeKey?
    return ((s.allowKey !s.inFlow).add .key).skip 1

/-- The colon behind a key. It fills the slot of the open key, if there is one. -/
def value? (s : Scan) : Option Scan :=
  match s.openKey with
  | some k =>
    -- The mapping starts at the column of its first key, not at that of the colon.
    let starts := s.startsBlock k.column
    let s := if starts then s.indentTo k.column else s
    let marks := if starts then [Token.blockMappingStart, .key] else [.key]
    some (({ s with
      slots := s.slots.setIfInBounds k.slot marks
      openKey := none
      keyAllowed := false }.add .value).skip 1)
  | none =>
    -- Without a key before it, a colon follows a marked key or one that is left out.
    if s.inFlow then some (((s.allowKey false).add .value).skip 1)
    else if s.keyAllowed then
      some (((s.startBlock .blockMappingStart).add .value).skip 1)
    else none

/-- A scalar, which may be a key. -/
def scalar? (s : Scan) (plain : Bool) (read : Cursor → Option ReadScalar) : Option Scan := do
  let s ← s.openKeyHere?
  let scalar ← read s.cursor
  return { s with cursor := scalar.cursor, keyAllowed := scalar.onNewLine }.add
    (.scalar plain scalar.text)

/-- Whether a plain scalar may start with the given text. -/
def startsPlain (inFlow : Bool) : List Char → Bool
  | [] => false
  -- Only a gap makes a dash an entry mark here; a line end was looked at before.
  | '-' :: rest => !rest.head?.any isGap
  | '?' :: rest => !inFlow && !Cursor.endsWord rest
  | ':' :: rest => !inFlow && !Cursor.endsWord rest
  | c :: _ => !(isGap c || isLineEnd c || ",[]\x7b\x7d#&*!|>'\"%@\x60".toList.contains c)

/-- Read the token at the cursor. -/
def token? (s : Scan) : Option Scan :=
  let c := s.cursor
  -- The marks around documents come before all else, also within flow collections.
  if c.atDocumentMark then
    s.documentMark? (if c.rest.head? == some '-' then .documentStart else .documentEnd)
  else
    match c.rest with
    | [] => none
    | '[' :: _ => s.flowStart? .flowSequenceStart
    | '\x7b' :: _ => s.flowStart? .flowMappingStart
    | ']' :: _ => s.flowEnd? .flowSequenceEnd
    | '\x7d' :: _ => s.flowEnd? .flowMappingEnd
    | ',' :: _ => s.flowEntry?
    | '\x27' :: _ => s.scalar? false readSingleQuoted
    | '"' :: _ => s.scalar? false readDoubleQuoted
    | d :: rest =>
      if d == '-' && Cursor.endsWord rest then s.blockEntry?
      else if d == '?' && (s.inFlow || Cursor.endsWord rest) then s.markedKey?
      else if d == ':' && (s.inFlow || Cursor.endsWord rest) then s.value?
      else if startsPlain s.inFlow c.rest then
        s.scalar? true (readPlain s.inFlow (s.indent + 1).toNat)
      else none

/-- Move on to the next token and end what it ends. -/
def advance? (s : Scan) : Option Scan :=
  let s := toNextToken s.cursor.rest.length s
  s.dropStaleKeys?.map fun s => s.unindent s.cursor.column

/-- Read all tokens. The fuel bounds their number. -/
def run? : (fuel : Nat) → Scan → Option (List Token)
  | 0, _ => none
  | fuel + 1, s =>
    match s.advance? with
    | none => none
    | some s =>
      if s.cursor.rest.isEmpty then
        (s.unindent (-1)).closeKey?.map (·.slots.toList.flatten)
      else
        match s.token? with
        | none => none
        | some s => run? fuel s

end Scan

/-! ## §5. Texts -/

/-- A text without the byte order mark that it may start with. -/
def withoutMark : List Char → List Char
  | '\uFEFF' :: rest => rest
  | text => text

/-- The tokens of a text. -/
def Token.ofText? (text : String) : Option (List Token) :=
  let characters := withoutMark text.toList
  if characters.all isAllowed then
    Scan.run? (characters.length + 1) { cursor := { rest := characters } }
  else none

end ProbeGap.Yaml
