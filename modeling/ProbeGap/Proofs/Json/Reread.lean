import ProbeGap.Json.Value
import ProbeGap.Proofs.Json.Number
import ProbeGap.Proofs.Json.Quoted

/-!
# Reading written values

The text of a value over several lines is read as that value, except for its numbers, which
become what their own texts are read as (`Json.reread?`). The nesting of the value has to stay
within the bounds of the reader.

The reader works with fuel, and needs no more of it than the text has characters. In the
induction over the value it is followed through arrays and objects item by item; white space
before an item is passed over, and behind a number there is always a character that ends it.

Main statement: `Json.read?_pretty`.
-/

namespace ProbeGap

/-! ## §1. White space -/

theorem dropSpaces_cons {c : Char} (h : isJsonSpace c = false) (s : List Char) :
    dropSpaces (c :: s) = c :: s := by
  simp [dropSpaces, h]

theorem dropSpaces_newLine (level : Nat) (s : List Char) :
    dropSpaces (Json.newLine level ++ s) = dropSpaces s := by
  have hblanks : ∀ c ∈ List.replicate (2 * level) ' ', isJsonSpace c = true := by
    intro c hc
    rw [List.eq_of_mem_replicate hc]
    rfl
  show ((List.replicate (2 * level) ' ') ++ s).dropWhile isJsonSpace = _
  rw [List.dropWhile_append_of_pos hblanks]
  rfl

/-- White space in front of a value is passed over. -/
theorem readLiteral_congr {s t : List Char} (h : dropSpaces s = dropSpaces t) (fuel : Nat) :
    readLiteral fuel s = readLiteral fuel t := by
  cases fuel with
  | zero => rfl
  | succ fuel => rw [readLiteral, readLiteral, h]

theorem readItems_congr {s t : List Char} (h : dropSpaces s = dropSpaces t) (fuel : Nat)
    (done : List Literal) : readItems fuel done s = readItems fuel done t := by
  cases fuel with
  | zero => rfl
  | succ fuel => rw [readItems, readItems, readLiteral_congr h]

theorem readMembers_congr {s t : List Char} (h : dropSpaces s = dropSpaces t) (fuel : Nat)
    (done : List (List StringPiece × Literal)) :
    readMembers fuel done s = readMembers fuel done t := by
  cases fuel with
  | zero => rfl
  | succ fuel => rw [readMembers, readMembers, h]

/-! ## §2. Numbers -/

theorem StartsNumber.isJsonSpace {c : Char} (hc : StartsNumber c) : isJsonSpace c = false := by
  simp [ProbeGap.isJsonSpace, hc.ne (d := ' ') (by decide), hc.ne (d := '\n') (by decide),
    hc.ne (d := '\t') (by decide), hc.ne (d := '\r') (by decide)]

/-- What starts like a number is read as one. -/
theorem readLiteral_of_startsNumber {c : Char} (hc : StartsNumber c) (fuel : Nat)
    (s : List Char) :
    readLiteral (fuel + 1) (c :: s)
      = (readNumberLiteral (c :: s)).map fun (n, rest) => (.number n, rest) := by
  rw [readLiteral, dropSpaces_cons hc.isJsonSpace]
  -- All other forms start with a character that no number starts with.
  split
  case h_7 => rfl
  all_goals
    next h => exact absurd (List.cons.inj h).1 (hc.ne (by decide))

/-- A spelling is read as a number. -/
theorem readLiteral_spelling {n : NumberLiteral} (hn : n.IsGrammatical) (fuel : Nat)
    {rest : List Char} (hrest : EndsNumber rest) :
    readLiteral (fuel + 1) (n.written ++ rest) = some (.number n, rest) := by
  obtain ⟨c, cs, hwritten, hc⟩ := hn.exists_written_eq_cons
  have hread := readNumberLiteral_written hn hrest
  rw [hwritten, List.cons_append] at hread ⊢
  rw [readLiteral_of_startsNumber hc, hread, Option.map_some]

/-- A spelling alone has the value that its number has. -/
theorem read?_spelling {n : NumberLiteral} (hn : n.IsGrammatical) :
    Json.read? n.written = n.resolve?.map .number := by
  have hread := readLiteral_spelling hn (2 * n.written.length + 1) endsNumber_nil
  rw [List.append_nil] at hread
  rw [Json.read?, Literal.read?, hread]
  rfl

theorem readLiteral_nullWord (fuel : Nat) (rest : List Char) :
    readLiteral (fuel + 1) (nullWord ++ rest) = some (.null, rest) := by
  rw [readLiteral]
  rfl

/-- A number is written as a spelling, or as null. -/
theorem JsonNumber.written_cases (n : JsonNumber) :
    (∃ spelling : NumberLiteral, spelling.IsGrammatical ∧ n.written = spelling.written) ∨
      n.written = nullWord := by
  cases n with
  | whole value =>
    obtain ⟨spelling, hspelling, hwritten, -⟩ := exists_spelling_whole value
    exact .inl ⟨spelling, hspelling, hwritten⟩
  | float x =>
    cases hx : x.isFinite with
    | true =>
      obtain ⟨spelling, hspelling, htext⟩ := exists_spelling_of_isFinite hx
      refine .inl ⟨spelling, hspelling, ?_⟩
      rw [JsonNumber.written, htext]
      exact String.toList_ofList
    | false =>
      right
      rw [JsonNumber.written, dataText?_eq_none hx]

/-- A number has the same tree within a text as alone. -/
theorem readLiteral_number (n : JsonNumber) :
    ∃ literal : Literal, (∀ room, literal.resolve? room = Json.read? n.written) ∧
      ∀ fuel rest, EndsNumber rest →
        readLiteral (fuel + 1) (n.written ++ rest) = some (literal, rest) := by
  rcases n.written_cases with ⟨spelling, hspelling, hwritten⟩ | hwritten
  · refine ⟨.number spelling, fun room => ?_, fun fuel rest hrest => ?_⟩
    · rw [hwritten, read?_spelling hspelling]
      rfl
    · rw [hwritten]
      exact readLiteral_spelling hspelling fuel hrest
  · refine ⟨.null, fun room => ?_, fun fuel rest _ => ?_⟩
    · rw [hwritten]
      rfl
    · rw [hwritten]
      exact readLiteral_nullWord fuel rest

/-- What the text of a double is read as, if it has a text that is read at all. -/
def rereadFloat? (x : Float) : Option Float :=
  (dataText? x).bind fun text => (Json.read? text.toList).bind (·.float?)

/-- A finite double comes back as a number, unless its text is refused. -/
theorem read?_float_of_isFinite {x : Float} (hx : x.isFinite = true) :
    (rereadFloat? x = none ∧ Json.read? (JsonNumber.float x).written = none) ∨
      ∃ j, Json.read? (JsonNumber.float x).written = some j ∧ j.float? = rereadFloat? x ∧
        (rereadFloat? x).isSome := by
  obtain ⟨spelling, hspelling, htext⟩ := exists_spelling_of_isFinite hx
  have hreread : rereadFloat? x = (spelling.resolve?.map Json.number).bind (·.float?) := by
    unfold rereadFloat?
    rw [htext, Option.bind_some, String.toList_ofList, read?_spelling hspelling]
  rw [JsonNumber.written, htext, hreread]
  simp only [String.toList_ofList, read?_spelling hspelling]
  cases spelling.resolve? with
  | none => exact .inl ⟨rfl, rfl⟩
  | some n => exact .inr ⟨.number n, rfl, rfl, rfl⟩

/-- A double that is not finite comes back as null. -/
theorem read?_float_of_not_isFinite {x : Float} (hx : x.isFinite = false) :
    Json.read? (JsonNumber.float x).written = some .null := by
  rw [JsonNumber.written, dataText?_eq_none hx]
  rfl

/-- A count comes back as it is. -/
theorem read?_whole {n : Nat} (h : n < countLimit) :
    Json.read? (JsonNumber.whole n).written = some (.number (.whole n)) := by
  obtain ⟨spelling, hspelling, hwritten, rfl⟩ := exists_spelling_whole n
  have hwhole : NumberLiteral.whole? ⟨decide ((n : Int) < 0), digits (n : Int).natAbs, [], none⟩
      = some (n : Int) := by
    have hpositive : ¬ (n : Int) < 0 := by omega
    simp [NumberLiteral.whole?, hpositive, h]
  rw [hwritten, read?_spelling hspelling, NumberLiteral.resolve?, hwhole]
  rfl

/-! ## §3. Values read again -/

mutual

/-- What a written value is read as, with room for so many containers within each other:
a number as its text is read alone, everything else as it is. -/
def Json.reread? (room : Nat) : Json → Option Json
  | .null => some .null
  | .bool b => some (.bool b)
  | .number n => Json.read? n.written
  | .string s => some (.string s)
  | .array items =>
    match room with
    | 0 => none
    | room + 1 => (rereadItems? room items).map .array
  | .object members =>
    match room with
    | 0 => none
    | room + 1 => (rereadMembers? room members).map .object

/-- What the items of an array are read as. -/
def rereadItems? (room : Nat) : List Json → Option (List Json)
  | [] => some []
  | item :: rest =>
    match Json.reread? room item with
    | some j => (rereadItems? room rest).map (j :: ·)
    | none => none

/-- What the members of an object are read as. -/
def rereadMembers? (room : Nat) : List (String × Json) → Option (List (String × Json))
  | [] => some []
  | (name, value) :: rest =>
    match Json.reread? room value with
    | some j => (rereadMembers? room rest).map ((name, j) :: ·)
    | none => none

end

theorem resolveItems?_cons (room : Nat) (item : Literal) (rest : List Literal) :
    resolveItems? room (item :: rest) = (item.resolve? room).bind fun j =>
      (resolveItems? room rest).map (j :: ·) := by
  rw [resolveItems?]
  cases item.resolve? room <;> rfl

theorem rereadItems?_cons (room : Nat) (item : Json) (rest : List Json) :
    rereadItems? room (item :: rest) = (item.reread? room).bind fun j =>
      (rereadItems? room rest).map (j :: ·) := by
  rw [rereadItems?]
  cases item.reread? room <;> rfl

theorem resolveMembers?_cons (room : Nat) {key : List StringPiece} {name : String}
    (hname : stringText? key = some name) (value : Literal)
    (rest : List (List StringPiece × Literal)) :
    resolveMembers? room ((key, value) :: rest) = (value.resolve? room).bind fun j =>
      (resolveMembers? room rest).map ((name, j) :: ·) := by
  rw [resolveMembers?, hname]
  cases value.resolve? room <;> rfl

theorem rereadMembers?_cons (room : Nat) (name : String) (value : Json)
    (rest : List (String × Json)) :
    rereadMembers? room ((name, value) :: rest) = (value.reread? room).bind fun j =>
      (rereadMembers? room rest).map ((name, j) :: ·) := by
  rw [rereadMembers?]
  cases value.reread? room <;> rfl

/-! ## §4. Texts of values -/

/-- A text that does not start with white space or the end of an array. -/
def StartsValue (s : List Char) : Prop :=
  ∃ c cs, s = c :: cs ∧ isJsonSpace c = false ∧ c ≠ ']'

theorem StartsValue.append {s : List Char} (h : StartsValue s) (rest : List Char) :
    StartsValue (s ++ rest) := by
  obtain ⟨c, cs, rfl, hspace, hbracket⟩ := h
  exact ⟨c, cs ++ rest, rfl, hspace, hbracket⟩

theorem startsValue_pretty (level : Nat) (j : Json) : StartsValue (Json.pretty level j) := by
  cases j with
  | null => exact ⟨'n', _, by rw [Json.pretty]; rfl, rfl, by decide⟩
  | bool b => cases b <;> exact ⟨_, _, by rw [Json.pretty]; rfl, rfl, by decide⟩
  | number n =>
    rw [Json.pretty]
    rcases n.written_cases with ⟨spelling, hspelling, hwritten⟩ | hwritten
    · obtain ⟨c, cs, hcs, hc⟩ := hspelling.exists_written_eq_cons
      exact ⟨c, cs, by rw [hwritten, hcs], hc.isJsonSpace, hc.ne (by decide)⟩
    · rw [hwritten]
      exact ⟨'n', _, rfl, rfl, by decide⟩
  | string s => exact ⟨'"', _, by rw [Json.pretty]; rfl, rfl, by decide⟩
  | array items =>
    cases items with
    | nil => exact ⟨'[', _, by rw [Json.pretty], rfl, by decide⟩
    | cons item items => exact ⟨'[', _, by simp only [Json.pretty]; rfl, rfl, by decide⟩
  | object members =>
    cases members with
    | nil => exact ⟨'\x7b', _, by rw [Json.pretty], rfl, by decide⟩
    | cons member members => exact ⟨'\x7b', _, by simp only [Json.pretty]; rfl, rfl, by decide⟩

/-- What sets the items of an array or an object apart. -/
def itemSeparator (level : Nat) : List Char :=
  ',' :: Json.newLine level

theorem endsNumber_itemSeparator (level : Nat) (s : List Char) :
    EndsNumber (itemSeparator level ++ s) := by
  show EndsNumber (',' :: _)
  simp

theorem endsNumber_newLine (level : Nat) (s : List Char) :
    EndsNumber (Json.newLine level ++ s) := by
  show EndsNumber ('\n' :: _)
  simp

theorem Json.separated_singleton (separator x : List Char) : separated separator [x] = x :=
  List.append_nil x

theorem Json.separated_cons_cons (separator x y : List Char) (rest : List (List Char)) :
    separated separator (x :: y :: rest) = x ++ (separator ++ separated separator (y :: rest)) := by
  rw [separated, separated, List.flatMap_cons, List.append_assoc]

/-! ## §5. Arrays -/

/-- A tree that a value at a level is read as, from the front of any text that goes on with
something else. -/
structure IsTree (level : Nat) (j : Json) (literal : Literal) : Prop where
  resolve : ∀ room, literal.resolve? room = j.reread? room
  read : ∀ fuel rest, (Json.pretty level j).length ≤ fuel → EndsNumber rest →
    readLiteral fuel (Json.pretty level j ++ rest) = some (literal, rest)

/-- A value without parts is read in one step. -/
theorem IsTree.of_step {level : Nat} {j : Json} {literal : Literal}
    (hresolve : ∀ room, literal.resolve? room = j.reread? room)
    (hread : ∀ fuel rest, EndsNumber rest →
      readLiteral (fuel + 1) (Json.pretty level j ++ rest) = some (literal, rest)) :
    IsTree level j literal where
  resolve := hresolve
  read := by
    intro fuel rest hfuel hends
    obtain ⟨c, cs, htext, -⟩ := startsValue_pretty level j
    rw [htext, List.length_cons] at hfuel
    obtain ⟨fuel, rfl⟩ := Nat.exists_eq_add_one_of_ne_zero (Nat.ne_zero_of_lt hfuel)
    exact hread fuel rest hends

/-- The items of an array as a text, set apart. -/
def itemsText (level : Nat) (items : List Json) : List Char :=
  Json.separated (itemSeparator level) (Json.prettyItems level items)

/-- Trees that the items of an array are read as, up to the closing bracket. -/
structure AreTrees (level : Nat) (items : List Json) (literals : List Literal) : Prop where
  resolve : ∀ room, resolveItems? room literals = rereadItems? room items
  read : ∀ fuel done close rest, (itemsText level items).length < fuel → EndsNumber close →
    dropSpaces close = ']' :: rest →
    readItems fuel done (itemsText level items ++ close)
      = some (.array (done.reverse ++ literals), rest)

theorem AreTrees.last {level : Nat} {item : Json} {literal : Literal}
    (h : IsTree level item literal) : AreTrees level [item] [literal] where
  resolve := by
    intro room
    rw [resolveItems?_cons, rereadItems?_cons, h.resolve]
    rfl
  read := by
    intro fuel done close rest hfuel hends hclose
    have htext : itemsText level [item] = Json.pretty level item := Json.separated_singleton _ _
    rw [htext] at hfuel ⊢
    obtain ⟨fuel, rfl⟩ := Nat.exists_eq_add_one_of_ne_zero (Nat.ne_zero_of_lt hfuel)
    simp only [readItems, h.read fuel close (by omega) hends, hclose]
    rw [List.reverse_cons]

theorem AreTrees.cons {level : Nat} {item next : Json} {items : List Json} {literal : Literal}
    {literals : List Literal} (h : IsTree level item literal)
    (hnext : AreTrees level (next :: items) literals) :
    AreTrees level (item :: next :: items) (literal :: literals) where
  resolve := by
    intro room
    rw [resolveItems?_cons, rereadItems?_cons, h.resolve, hnext.resolve]
  read := by
    intro fuel done close rest hfuel hends hclose
    have htext : itemsText level (item :: next :: items) = Json.pretty level item
        ++ (itemSeparator level ++ itemsText level (next :: items)) :=
      Json.separated_cons_cons _ _ _ _
    rw [htext] at hfuel ⊢
    obtain ⟨fuel, rfl⟩ := Nat.exists_eq_add_one_of_ne_zero (Nat.ne_zero_of_lt hfuel)
    rw [List.length_append, List.length_append] at hfuel
    rw [List.append_assoc, List.append_assoc]
    have hitem := h.read fuel (itemSeparator level ++ (itemsText level (next :: items) ++ close))
      (by omega) (endsNumber_itemSeparator _ _)
    have hcomma : dropSpaces (itemSeparator level ++ (itemsText level (next :: items) ++ close))
        = ',' :: (Json.newLine level ++ (itemsText level (next :: items) ++ close)) :=
      dropSpaces_cons rfl _
    -- The separator is what makes the text of the other items shorter by the step that is used.
    have hseparator : 0 < (itemSeparator level).length := Nat.succ_pos _
    simp only [readItems, hitem, hcomma]
    rw [readItems_congr (dropSpaces_newLine level _),
      hnext.read fuel (literal :: done) close rest (by omega) hends hclose,
      List.reverse_cons, List.append_assoc, List.singleton_append]

theorem startsValue_itemsText (level : Nat) {items : List Json} (h : items ≠ []) :
    StartsValue (itemsText level items) := by
  obtain ⟨item, items, rfl⟩ := List.exists_cons_of_ne_nil h
  exact (startsValue_pretty level item).append _

/-- What stands behind an opening bracket is read as items unless it is the closing one. -/
theorem readLiteral_openBracket (fuel level : Nat) {s : List Char} (h : StartsValue s) :
    readLiteral (fuel + 1) ('[' :: (Json.newLine level ++ s)) = readItems fuel [] s := by
  obtain ⟨c, cs, rfl, hspace, hbracket⟩ := h
  -- The reader looks for the closing bracket and leaves the white space, if there is none.
  rw [readLiteral, dropSpaces_cons rfl]
  simp only [dropSpaces_newLine, dropSpaces_cons hspace]
  split
  · next h => exact absurd (List.cons.inj h).1 hbracket
  · rfl

theorem IsTree.array {level : Nat} {items : List Json} {literals : List Literal}
    (hne : items ≠ []) (h : AreTrees (level + 1) items literals) :
    IsTree level (.array items) (.array literals) where
  resolve := by
    intro room
    cases room with
    | zero => rfl
    | succ room =>
      show (resolveItems? room literals).map Json.array = _
      rw [h.resolve]
      rfl
  read := by
    intro fuel rest hfuel hends
    have htext : Json.pretty level (.array items) = '[' :: (Json.newLine (level + 1)
        ++ (itemsText (level + 1) items ++ (Json.newLine level ++ [']']))) := by
      rw [Json.pretty]
      · simp [itemsText, itemSeparator]
      · exact hne
    rw [htext] at hfuel ⊢
    simp only [List.length_cons, List.length_append] at hfuel
    obtain ⟨fuel, rfl⟩ := Nat.exists_eq_add_one_of_ne_zero (Nat.ne_zero_of_lt hfuel)
    simp only [List.cons_append, List.append_assoc, List.nil_append]
    rw [readLiteral_openBracket fuel _ ((startsValue_itemsText _ hne).append _),
      h.read fuel [] _ rest (by omega) (endsNumber_newLine _ _)
        (by rw [dropSpaces_newLine, dropSpaces_cons rfl])]
    rfl

/-! ## §6. Objects -/

/-- The members of an object as a text, set apart. -/
def membersText (level : Nat) (members : List (String × Json)) : List Char :=
  Json.separated (itemSeparator level) (Json.prettyMembers level members)

/-- Trees that the members of an object are read as, up to the closing brace. -/
structure AreMembers (level : Nat) (members : List (String × Json))
    (literals : List (List StringPiece × Literal)) : Prop where
  resolve : ∀ room, resolveMembers? room literals = rereadMembers? room members
  read : ∀ fuel done close rest, (membersText level members).length < fuel → EndsNumber close →
    dropSpaces close = '\x7d' :: rest →
    readMembers fuel done (membersText level members ++ close)
      = some (.object (done.reverse ++ literals), rest)

/-- How the reader goes on behind a member. -/
def afterMember (fuel : Nat) (done : List (List StringPiece × Literal)) (rest : List Char) :
    Option (Literal × List Char) :=
  match dropSpaces rest with
  | ',' :: rest => readMembers fuel done rest
  | '\x7d' :: rest => some (.object done.reverse, rest)
  | _ => none

/-- One member is read. -/
theorem readMembers_member {level fuel : Nat} {name : String} {value : Json}
    {pieces : List StringPiece} {literal : Literal} (hname : ArePieces name pieces)
    (h : IsTree level value literal) (hfuel : (Json.pretty level value).length ≤ fuel)
    {rest : List Char} (hrest : EndsNumber rest) (done : List (List StringPiece × Literal)) :
    readMembers (fuel + 1) done (quoted name ++ ':' :: ' ' :: Json.pretty level value ++ rest)
      = afterMember fuel ((pieces, literal) :: done) rest := by
  have hquoted : quoted name ++ ':' :: ' ' :: Json.pretty level value ++ rest
      = '"' :: (name.toList.flatMap escapedCharacter
        ++ '"' :: ':' :: ' ' :: (Json.pretty level value ++ rest)) := by
    simp [quoted]
  have hblank : dropSpaces (' ' :: (Json.pretty level value ++ rest))
      = dropSpaces (Json.pretty level value ++ rest) := rfl
  have hvalue : readLiteral fuel (' ' :: (Json.pretty level value ++ rest))
      = some (literal, rest) := by
    rw [readLiteral_congr hblank]
    exact h.read fuel rest hfuel hrest
  rw [hquoted, readMembers, dropSpaces_cons rfl]
  simp only [hname.read, dropSpaces_cons (c := ':') rfl, hvalue]
  rfl

theorem AreMembers.last {level : Nat} {name : String} {value : Json}
    {pieces : List StringPiece} {literal : Literal} (hname : ArePieces name pieces)
    (h : IsTree level value literal) :
    AreMembers level [(name, value)] [(pieces, literal)] where
  resolve := by
    intro room
    rw [resolveMembers?_cons room hname.text, rereadMembers?_cons, h.resolve]
    rfl
  read := by
    intro fuel done close rest hfuel hends hclose
    have htext : membersText level [(name, value)]
        = quoted name ++ ':' :: ' ' :: Json.pretty level value := Json.separated_singleton _ _
    rw [htext] at hfuel ⊢
    obtain ⟨fuel, rfl⟩ := Nat.exists_eq_add_one_of_ne_zero (Nat.ne_zero_of_lt hfuel)
    simp only [List.length_append, List.length_cons] at hfuel
    rw [readMembers_member hname h (by omega) hends]
    simp only [afterMember, hclose, List.reverse_cons]

theorem AreMembers.cons {level : Nat} {name : String} {value : Json} {next : String × Json}
    {members : List (String × Json)} {pieces : List StringPiece} {literal : Literal}
    {literals : List (List StringPiece × Literal)} (hname : ArePieces name pieces)
    (h : IsTree level value literal) (hnext : AreMembers level (next :: members) literals) :
    AreMembers level ((name, value) :: next :: members) ((pieces, literal) :: literals) where
  resolve := by
    intro room
    rw [resolveMembers?_cons room hname.text, rereadMembers?_cons, h.resolve, hnext.resolve]
  read := by
    intro fuel done close rest hfuel hends hclose
    have htext : membersText level ((name, value) :: next :: members)
        = quoted name ++ ':' :: ' ' :: Json.pretty level value
          ++ (itemSeparator level ++ membersText level (next :: members)) :=
      Json.separated_cons_cons _ _ _ _
    have hseparator : 0 < (itemSeparator level).length := Nat.succ_pos _
    have hcomma : dropSpaces (itemSeparator level ++ (membersText level (next :: members) ++ close))
        = ',' :: (Json.newLine level ++ (membersText level (next :: members) ++ close)) :=
      dropSpaces_cons rfl _
    rw [htext] at hfuel ⊢
    obtain ⟨fuel, rfl⟩ := Nat.exists_eq_add_one_of_ne_zero (Nat.ne_zero_of_lt hfuel)
    simp only [List.length_append, List.length_cons] at hfuel
    rw [List.append_assoc _ _ close, List.append_assoc (itemSeparator level) _ close,
      readMembers_member hname h (by omega) (endsNumber_itemSeparator _ _)]
    simp only [afterMember, hcomma]
    rw [readMembers_congr (dropSpaces_newLine level _),
      hnext.read fuel ((pieces, literal) :: done) close rest (by omega) hends hclose,
      List.reverse_cons, List.append_assoc, List.singleton_append]

theorem exists_membersText_eq_cons (level : Nat) {members : List (String × Json)}
    (h : members ≠ []) : ∃ cs, membersText level members = '"' :: cs := by
  obtain ⟨⟨name, value⟩, members, rfl⟩ := List.exists_cons_of_ne_nil h
  exact ⟨_, rfl⟩

theorem IsTree.object {level : Nat} {members : List (String × Json)}
    {literals : List (List StringPiece × Literal)} (hne : members ≠ [])
    (h : AreMembers (level + 1) members literals) :
    IsTree level (.object members) (.object literals) where
  resolve := by
    intro room
    cases room with
    | zero => rfl
    | succ room =>
      show (resolveMembers? room literals).map Json.object = _
      rw [h.resolve]
      rfl
  read := by
    intro fuel rest hfuel hends
    have htext : Json.pretty level (.object members) = '\x7b' :: (Json.newLine (level + 1)
        ++ (membersText (level + 1) members ++ (Json.newLine level ++ ['\x7d']))) := by
      rw [Json.pretty]
      · simp [membersText, itemSeparator]
      · exact hne
    rw [htext] at hfuel ⊢
    simp only [List.length_cons, List.length_append] at hfuel
    obtain ⟨fuel, rfl⟩ := Nat.exists_eq_add_one_of_ne_zero (Nat.ne_zero_of_lt hfuel)
    simp only [List.cons_append, List.append_assoc, List.nil_append]
    have hread := h.read fuel [] (Json.newLine level ++ '\x7d' :: rest) rest (by omega)
      (endsNumber_newLine _ _) (by rw [dropSpaces_newLine, dropSpaces_cons rfl])
    obtain ⟨cs, hquote⟩ := exists_membersText_eq_cons (level + 1) hne
    rw [hquote, List.cons_append] at hread ⊢
    rw [readLiteral, dropSpaces_cons rfl]
    simp only [dropSpaces_newLine, dropSpaces_cons (c := '"') rfl]
    exact hread

/-! ## §7. All values -/

mutual

/-- Every value is read as some tree. -/
theorem exists_isTree (level : Nat) : ∀ j : Json, ∃ literal, IsTree level j literal
  | .null => ⟨.null, .of_step (fun _ => rfl) fun fuel rest _ => readLiteral_nullWord fuel rest⟩
  | .bool b => by
    refine ⟨.bool b, .of_step (fun _ => rfl) fun fuel rest _ => ?_⟩
    cases b <;> rw [readLiteral] <;> rfl
  | .number n => by
    obtain ⟨literal, hresolve, hread⟩ := readLiteral_number n
    exact ⟨literal, .of_step hresolve hread⟩
  | .string s => by
    obtain ⟨pieces, hs⟩ := exists_pieces s
    refine ⟨.string pieces, .of_step (fun room => ?_) fun fuel rest _ => ?_⟩
    · show (stringText? pieces).map Json.string = some (.string s)
      rw [hs.text, Option.map_some]
    · have htext : Json.pretty level (.string s) ++ rest
          = '"' :: (s.toList.flatMap escapedCharacter ++ '"' :: rest) := by
        simp [Json.pretty, quoted]
      rw [htext, readLiteral, dropSpaces_cons rfl]
      simp only [hs.read, Option.map_some]
  | .array [] => by
    refine ⟨.array [], .of_step (fun room => ?_) fun fuel rest _ => ?_⟩
    · cases room <;> rfl
    · rw [Json.pretty, readLiteral]
      rfl
  | .array (item :: items) => by
    obtain ⟨literals, h⟩ := exists_areTrees (level + 1) (item :: items) (List.cons_ne_nil _ _)
    exact ⟨.array literals, .array (List.cons_ne_nil _ _) h⟩
  | .object [] => by
    refine ⟨.object [], .of_step (fun room => ?_) fun fuel rest _ => ?_⟩
    · cases room <;> rfl
    · rw [Json.pretty, readLiteral]
      rfl
  | .object (member :: members) => by
    obtain ⟨literals, h⟩ :=
      exists_areMembers (level + 1) (member :: members) (List.cons_ne_nil _ _)
    exact ⟨.object literals, .object (List.cons_ne_nil _ _) h⟩

theorem exists_areTrees (level : Nat) : ∀ items : List Json, items ≠ [] →
    ∃ literals, AreTrees level items literals
  | [], hne => absurd rfl hne
  | [item], _ => by
    obtain ⟨literal, h⟩ := exists_isTree level item
    exact ⟨_, .last h⟩
  | item :: next :: items, _ => by
    obtain ⟨literal, h⟩ := exists_isTree level item
    obtain ⟨literals, hnext⟩ := exists_areTrees level (next :: items) (List.cons_ne_nil _ _)
    exact ⟨_, .cons h hnext⟩

theorem exists_areMembers (level : Nat) : ∀ members : List (String × Json), members ≠ [] →
    ∃ literals, AreMembers level members literals
  | [], hne => absurd rfl hne
  | [(name, value)], _ => by
    obtain ⟨pieces, hname⟩ := exists_pieces name
    obtain ⟨literal, h⟩ := exists_isTree level value
    exact ⟨_, .last hname h⟩
  | (name, value) :: next :: members, _ => by
    obtain ⟨pieces, hname⟩ := exists_pieces name
    obtain ⟨literal, h⟩ := exists_isTree level value
    obtain ⟨literals, hnext⟩ := exists_areMembers level (next :: members) (List.cons_ne_nil _ _)
    exact ⟨_, .cons hname h hnext⟩

end

/-- The text of a value is read as a tree that means what becomes of the value. -/
theorem Literal.exists_read?_pretty (j : Json) :
    ∃ literal, Literal.read? (Json.pretty 0 j) = some literal ∧
      ∀ room, literal.resolve? room = j.reread? room := by
  obtain ⟨literal, h⟩ := exists_isTree 0 j
  have hread := h.read (2 * (Json.pretty 0 j).length + 2) [] (by omega) endsNumber_nil
  rw [List.append_nil] at hread
  refine ⟨literal, ?_, h.resolve⟩
  rw [Literal.read?, hread]
  rfl

/-- The text of a value is read as the value, except for what becomes of its numbers. -/
theorem Json.read?_pretty (j : Json) : Json.read? (pretty 0 j) = j.reread? maxNesting := by
  obtain ⟨literal, hread, hresolve⟩ := Literal.exists_read?_pretty j
  rw [Json.read?, hread]
  exact hresolve maxNesting

end ProbeGap
