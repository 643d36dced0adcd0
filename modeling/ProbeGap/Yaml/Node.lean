import ProbeGap.Yaml.Token

/-!
# YAML nodes

The value of a YAML text is a scalar, a sequence or a mapping. `Node.ofText?` reads a text
that holds one document.

Collections are read from tokens by one function per form. Where an item, a key or a value
is left out, an empty plain scalar stands for it. A mapping keeps its members in the order
in which they are written, repeated keys included.
-/

namespace ProbeGap.Yaml

/-! ## §1. Nodes -/

/-- A YAML value. A scalar keeps its text and whether it was written without quotes. -/
inductive Node where
  | scalar (plain : Bool) (text : String)
  | sequence (items : List Node)
  | mapping (members : List (Node × Node))

/-- What stands for a node that is left out. -/
def Node.missing : Node := .scalar true ""

/-! ## §2. Reading nodes -/

/-- Where a node stands: within a flow collection, as an item of a block sequence, or as a
key or value of a block mapping. There a block sequence need not be indented. -/
inductive Place where
  | flow
  | item
  | member
  deriving DecidableEq, Repr

/-- Whether the next token is one of the given ones. -/
def startsWith (ts : List Token) (marks : List Token) : Bool :=
  ts.head?.any marks.contains

/-- The tokens that follow a left-out key or value of a block mapping. -/
def blockMemberStops : List Token := [.key, .value, .blockEnd]

mutual

/-- Read a node. The fuel bounds the number of steps; three times the number of tokens is
enough. -/
def readNode : (fuel : Nat) → Place → List Token → Option (Node × List Token)
  | 0, _, _ => none
  | fuel + 1, place, ts =>
    match ts with
    | .scalar plain text :: ts => some (.scalar plain text, ts)
    | .flowSequenceStart :: ts => readFlowItems fuel [] ts
    | .flowMappingStart :: ts => readFlowMembers fuel [] ts
    | .blockSequenceStart :: ts => if place = .flow then none else readBlockItems fuel [] ts
    | .blockMappingStart :: ts => if place = .flow then none else readBlockMembers fuel [] ts
    | .blockEntry :: _ => if place = .member then readPlainItems fuel [] ts else none
    | _ => none

/-- Read a node unless one of the given tokens comes first; then it is left out. -/
def readOptional : (fuel : Nat) → Place → (stops : List Token) → List Token →
    Option (Node × List Token)
  | 0, _, _, _ => none
  | fuel + 1, place, stops, ts =>
    if startsWith ts stops then some (.missing, ts) else readNode fuel place ts

/-- Read the items of an indented block sequence, up to its end. The items so far are
given in reverse. -/
def readBlockItems : (fuel : Nat) → List Node → List Token → Option (Node × List Token)
  | 0, _, _ => none
  | fuel + 1, done, ts =>
    match ts with
    | .blockEntry :: ts =>
      match readOptional fuel .item [.blockEntry, .blockEnd] ts with
      | some (item, ts) => readBlockItems fuel (item :: done) ts
      | none => none
    | .blockEnd :: ts => some (.sequence done.reverse, ts)
    | _ => none

/-- Read the items of a block sequence that is not indented, up to anything else. -/
def readPlainItems : (fuel : Nat) → List Node → List Token → Option (Node × List Token)
  | 0, _, _ => none
  | fuel + 1, done, ts =>
    match ts with
    | .blockEntry :: ts =>
      match readOptional fuel .item (.blockEntry :: blockMemberStops) ts with
      | some (item, ts) => readPlainItems fuel (item :: done) ts
      | none => none
    | ts => some (.sequence done.reverse, ts)

/-- Read the value of a member: left out unless a colon comes first. -/
def readValue : (fuel : Nat) → Place → (stops : List Token) → List Token →
    Option (Node × List Token)
  | 0, _, _, _ => none
  | fuel + 1, place, stops, ts =>
    match ts with
    | .value :: ts => readOptional fuel place stops ts
    | ts => some (.missing, ts)

/-- Read the members of a block mapping, up to its end. The members so far are given in
reverse. -/
def readBlockMembers : (fuel : Nat) → List (Node × Node) → List Token →
    Option (Node × List Token)
  | 0, _, _ => none
  | fuel + 1, done, ts =>
    match ts with
    | .key :: ts =>
      match readOptional fuel .member blockMemberStops ts with
      | none => none
      | some (key, ts) =>
        match readValue fuel .member blockMemberStops ts with
        | some (value, ts) => readBlockMembers fuel ((key, value) :: done) ts
        | none => none
    | .blockEnd :: ts => some (.mapping done.reverse, ts)
    | _ => none

/-- Read one member of a flow sequence that is written as a pair: a mapping of its own.
A mark behind a left-out key is passed over. -/
def readPair : (fuel : Nat) → List Token → Option (Node × List Token)
  | 0, _ => none
  | fuel + 1, ts =>
    let stops := [Token.flowEntry, .flowSequenceEnd]
    let key? :=
      if startsWith ts (.value :: stops) then some (.missing, ts.tail)
      else readNode fuel .flow ts
    match key? with
    | none => none
    | some (key, ts) =>
      match readValue fuel .flow stops ts with
      | some (value, ts) => some (.mapping [(key, value)], ts)
      | none => none

/-- Read the items of a flow sequence, up to its end. There is a comma between two of them
and may be one behind the last. -/
def readFlowItems : (fuel : Nat) → List Node → List Token → Option (Node × List Token)
  | 0, _, _ => none
  | fuel + 1, done, ts =>
    match ts with
    | .flowSequenceEnd :: ts => some (.sequence done.reverse, ts)
    | ts =>
      let item? :=
        match done.isEmpty, ts with
        | true, ts => some ts
        | false, .flowEntry :: ts => some ts
        | false, _ => none
      match item? with
      | none => none
      -- A comma before the bracket adds no item.
      | some (.flowSequenceEnd :: ts) => some (.sequence done.reverse, ts)
      | some (.key :: ts) =>
        match readPair fuel ts with
        | some (item, ts) => readFlowItems fuel (item :: done) ts
        | none => none
      | some ts =>
        match readNode fuel .flow ts with
        | some (item, ts) => readFlowItems fuel (item :: done) ts
        | none => none

/-- Read the members of a flow mapping, up to its end. A node without a key mark is a key
with its value left out. -/
def readFlowMembers : (fuel : Nat) → List (Node × Node) → List Token →
    Option (Node × List Token)
  | 0, _, _ => none
  | fuel + 1, done, ts =>
    match ts with
    | .flowMappingEnd :: ts => some (.mapping done.reverse, ts)
    | ts =>
      let stops := [Token.flowEntry, .flowMappingEnd]
      let member? :=
        match done.isEmpty, ts with
        | true, ts => some ts
        | false, .flowEntry :: ts => some ts
        | false, _ => none
      match member? with
      | none => none
      -- A comma before the brace adds no member.
      | some (.flowMappingEnd :: ts) => some (.mapping done.reverse, ts)
      | some (.key :: ts) =>
        match readOptional fuel .flow (.value :: stops) ts with
        | none => none
        | some (key, ts) =>
          match readValue fuel .flow stops ts with
          | some (value, ts) => readFlowMembers fuel ((key, value) :: done) ts
          | none => none
      | some ts =>
        match readNode fuel .flow ts with
        | some (key, ts) => readFlowMembers fuel ((key, .missing) :: done) ts
        | none => none

end

/-! ## §3. Documents -/

/-- The node of a document between its marks; nothing but end marks may follow it. -/
def Node.ofTokens? (ts : List Token) : Option Node :=
  let fuel := 3 * ts.length + 3
  let document? : Option (Node × List Token) :=
    match ts with
    | .documentStart :: ts =>
      if ts.isEmpty || startsWith ts [.documentStart, .documentEnd] then some (.missing, ts)
      else readNode fuel .item ts
    | ts => readNode fuel .item ts
  match document? with
  | some (node, ts) => if ts.all (· == .documentEnd) then some node else none
  | none => none

/-- The node of a text that holds one document. -/
def Node.ofText? (text : String) : Option Node :=
  (Token.ofText? text).bind Node.ofTokens?

end ProbeGap.Yaml
