import ProbeGap.Proofs.Json.Locality
import ProbeGap.Proofs.Json.Typed

/-!
# Values placed in a text

Where a text has an array, another array may be put, and where it has an item, another item, or
none, or more than one: each is a text for itself. All that the rest of the text asks of it is that
it has a value, and that the value is not nested too deep for the place (`Json.nesting`).

Main statement: `exists_placing`, for the items of an array that is a member of an object. The
member is the one that counts, which is the last with its name.
-/

namespace ProbeGap

/-! ## §1. Whole texts -/

/-- The tree of a whole text is what is taken from it, but for white space at the end. -/
theorem Literal.read?_eq_some_iff {text : List Char} {literal : Literal} :
    Literal.read? text = some literal ↔ TakesLoosely readLiteral literal text := by
  unfold Literal.read?
  constructor
  · intro h
    cases hread : readLiteral (2 * text.length + 2) text with
    | none =>
      rw [hread] at h
      cases h
    | some one =>
      obtain ⟨literal', rest⟩ := one
      simp only [hread] at h
      split at h
      · rename_i hempty
        cases h
        obtain ⟨t, rfl, ht⟩ := takesParts_readLiteral _ _ _ _ hread
        exact ht.loosely (dropSpaces_eq_nil_iff.mp (List.isEmpty_iff.mp hempty))
      · cases h
  · intro h
    obtain ⟨spaces, hspaces, hread⟩ := h (2 * text.length + 2) [] (by omega) endsNumber_nil
    rw [List.append_nil, List.append_nil] at hread
    simp [hread, dropSpaces_eq_nil_iff.mpr hspaces]

namespace Brackets

variable {α : Type} (b : Brackets α)

/-- A text that starts with an opening bracket is things in brackets, with white space around. -/
theorem exists_parts_of_read? (hlocal : ∀ fuel, TakesParts b.readOne fuel) {text s : List Char}
    {literal : Literal} (h : Literal.read? text = some literal)
    (hopening : dropSpaces text = b.opening :: s) :
    ∃ lead before xs parts after trail, AreSpaces lead ∧ AreSpaces before ∧ AreSpaces after ∧
      AreSpaces trail ∧ List.Forall₂ (TakesLoosely b.readOne) xs parts ∧
      text = lead ++ (b.text before parts after ++ trail) ∧ literal = b.tree xs := by
  obtain ⟨lead, hlead, htext⟩ := exists_spaces text
  obtain ⟨trail, htrail, hread⟩ :=
    Literal.read?_eq_some_iff.mp h (text.length + 1) [] (by omega) endsNumber_nil
  rw [List.append_nil, List.append_nil, htext, readLiteral_congr (dropSpaces_append hlead _),
    hopening] at hread
  obtain ⟨before, xs, parts, after, hbefore, hafter, hparts, hs, hliteral⟩ :=
    b.exists_text (fun g _ => hlocal g) hread
  exact ⟨lead, before, xs, parts, after, trail, hlead, hbefore, hafter, htrail, hparts,
    by rw [htext, hopening, hs], hliteral⟩

/-- Conversely things in brackets, with white space around, are a text. -/
theorem read?_text {lead before after trail : List Char} (hlead : AreSpaces lead)
    (hbefore : AreSpaces before) (hafter : AreSpaces after) (htrail : AreSpaces trail)
    {xs : List α} {parts : List (List Char)}
    (hparts : List.Forall₂ (TakesLoosely b.readOne) xs parts) :
    Literal.read? (lead ++ (b.text before parts after ++ trail)) = some (b.tree xs) := by
  rw [Literal.read?_eq_some_iff, ← List.append_assoc]
  exact ((b.takes_text hparts hbefore hafter).spaces hlead).loosely htrail

end Brackets

/-- The tree tells the bracket that a text starts with, if it is an array or an object. -/
def Literal.opening? : Literal → Option Char
  | .array _ => some '['
  | .object _ => some '\x7b'
  | _ => none

theorem takesParts_objects (fuel : Nat) : TakesParts objects.readOne fuel :=
  takesParts_readMember (takesParts_readLiteral fuel)

theorem exists_opening {text : List Char} {literal : Literal} {c : Char}
    (h : Literal.read? text = some literal) (hc : literal.opening? = some c) :
    ∃ s, dropSpaces text = c :: s := by
  obtain ⟨spaces, -, hread⟩ :=
    Literal.read?_eq_some_iff.mp h (text.length + 1) [] (by omega) endsNumber_nil
  rw [List.append_nil] at hread
  have hform := hread
  rw [readLiteral] at hform
  split at hform
  case h_1 inside hopening =>
    rw [readLiteral_congr (t := dropSpaces text), hopening] at hread
    · obtain ⟨-, xs, -, -, -, -, -, -, rfl⟩ :=
        objects.exists_text (fun g _ => takesParts_objects g) hread
      cases hc
      exact ⟨inside, hopening⟩
    · rw [hopening, dropSpaces_cons rfl]
  case h_2 inside hopening =>
    rw [readLiteral_congr (t := dropSpaces text), hopening] at hread
    · obtain ⟨-, xs, -, -, -, -, -, -, rfl⟩ :=
        arrays.exists_text (fun g _ => takesParts_readLiteral g) hread
      cases hc
      exact ⟨inside, hopening⟩
    · rw [hopening, dropSpaces_cons rfl]
  -- Words, strings and numbers: their trees are no arrays and no objects.
  case h_4 | h_5 | h_6 =>
    cases hform
    cases hc
  case h_3 | h_7 =>
    obtain ⟨⟨_, _⟩, -, hone⟩ := Option.map_eq_some_iff.mp hform
    rw [← (Prod.mk.inj hone).1] at hc
    cases hc

/-! ## §2. Placing items -/

/-- Trees of texts, each for itself. -/
def AreTreesOf (items : List Literal) (rows : List (List Char)) : Prop :=
  List.Forall₂ (fun item row => Literal.read? row = some item) items rows

theorem takesLoosely_of_areTreesOf {items : List Literal} {rows : List (List Char)}
    (h : AreTreesOf items rows) : List.Forall₂ (TakesLoosely readLiteral) items rows :=
  h.imp fun _ _ => Literal.read?_eq_some_iff.mp

/-- An array is what is in front of its items, its items, and what is behind them. Between these
any other items may be placed. -/
theorem exists_placing_in_array {text : List Char} {items : List Literal}
    (h : Literal.read? text = some (.array items)) :
    ∃ head rows tail, AreTreesOf items rows ∧ text = head ++ (Brackets.content rows ++ tail) ∧
      ∀ items' rows', AreTreesOf items' rows' →
        Literal.read? (head ++ (Brackets.content rows' ++ tail)) = some (.array items') := by
  obtain ⟨s, hopening⟩ := exists_opening h rfl
  obtain ⟨lead, before, xs, rows, after, trail, hlead, hbefore, hafter, htrail, hrows, htext,
    hitems⟩ := arrays.exists_parts_of_read? takesParts_readLiteral h hopening
  cases hitems
  have hplaced : ∀ rows', lead ++ (arrays.text before rows' after ++ trail)
      = (lead ++ '[' :: before) ++ (Brackets.content rows' ++ (after ++ ']' :: trail)) := by
    intro rows'
    simp [Brackets.text, arrays]
  refine ⟨lead ++ '[' :: before, rows, after ++ ']' :: trail, ?_, ?_, ?_⟩
  · exact hrows.imp fun _ _ => Literal.read?_eq_some_iff.mpr
  · rw [htext, hplaced]
  · intro items' rows' hrows'
    rw [← hplaced]
    exact arrays.read?_text hlead hbefore hafter htrail (takesLoosely_of_areTreesOf hrows')

/-- Parts may be exchanged where they stand. -/
theorem Brackets.exists_content_eq (before after : List (List Char)) :
    ∃ head tail, ∀ part, content (before ++ part :: after) = head ++ (part ++ tail) := by
  cases before with
  | nil => exact ⟨[], after.flatMap ([','] ++ ·), fun part => rfl⟩
  | cons first before =>
    refine ⟨first ++ (before.flatMap ([','] ++ ·) ++ [',']), after.flatMap ([','] ++ ·), ?_⟩
    intro part
    simp [content, Json.separated]

/-- A member keeps its name when another value is placed in it. -/
theorem exists_placing_in_member {key : List StringPiece} {literal : Literal} {text : List Char}
    (h : TakesLoosely readMember (key, literal) text) :
    ∃ front value, text = front ++ value ∧ Literal.read? value = some literal ∧
      ∀ literal' value', Literal.read? value' = some literal' →
        TakesLoosely readMember (key, literal') (front ++ value') := by
  obtain ⟨spaces, hspaces, hread⟩ := h text.length [] (Nat.le_refl _) endsNumber_nil
  rw [List.append_nil, List.append_nil] at hread
  obtain ⟨front, value, rfl, hvalue, hfront⟩ := exists_front_of_readMember hread
  obtain ⟨t, rfl, ht⟩ := takesParts_readLiteral _ _ _ _ hvalue
  refine ⟨front, t ++ spaces, rfl, Literal.read?_eq_some_iff.mpr (ht.loosely hspaces), ?_⟩
  intro literal' value' hvalue' fuel rest hfuel hrest
  rw [List.length_append] at hfuel
  obtain ⟨spaces', hspaces', hread'⟩ :=
    Literal.read?_eq_some_iff.mp hvalue' fuel rest (by omega) hrest
  refine ⟨spaces', hspaces', ?_⟩
  rw [List.append_assoc, hfront, hread']
  rfl

/-- What is related to a list put together is put together of what is related to its parts. -/
theorem exists_append_of_forall₂ {α β : Type} {R : α → β → Prop} {xs₁ xs₂ : List α} {ys : List β}
    (h : List.Forall₂ R (xs₁ ++ xs₂) ys) :
    ∃ ys₁ ys₂, List.Forall₂ R xs₁ ys₁ ∧ List.Forall₂ R xs₂ ys₂ ∧ ys = ys₁ ++ ys₂ :=
  ⟨ys.take xs₁.length, ys.drop xs₁.length, (List.forall₂_take_append ys xs₁ xs₂ h.flip).flip,
    (List.forall₂_drop_append ys xs₁ xs₂ h.flip).flip, (List.take_append_drop _ _).symm⟩

/-- Where an object has an array as a member, any other items may be placed. -/
theorem exists_placing {text : List Char} {key : List StringPiece} {items : List Literal}
    {before after : List (List StringPiece × Literal)}
    (h : Literal.read? text = some (.object (before ++ (key, .array items) :: after))) :
    ∃ head rows tail, AreTreesOf items rows ∧ text = head ++ (Brackets.content rows ++ tail) ∧
      ∀ items' rows', AreTreesOf items' rows' →
        Literal.read? (head ++ (Brackets.content rows' ++ tail))
          = some (.object (before ++ (key, .array items') :: after)) := by
  obtain ⟨s, hopening⟩ := exists_opening h rfl
  obtain ⟨lead, front, xs, members, behind, trail, hlead, hfront, hbehind, htrail, hmembers, htext,
    hxs⟩ := objects.exists_parts_of_read? takesParts_objects h hopening
  cases hxs
  -- The text of the array is a part of that of its member, and that of the text.
  obtain ⟨first, more, hfirst, hmore, rfl⟩ := exists_append_of_forall₂ hmembers
  cases hmore with
  | @cons _ member _ last hmember hlast =>
    obtain ⟨start, value, rfl, hvalue, hstart⟩ := exists_placing_in_member hmember
    obtain ⟨head, rows, tail, hrows, rfl, hplace⟩ := exists_placing_in_array hvalue
    obtain ⟨outerHead, outerTail, houter⟩ := Brackets.exists_content_eq first last
    have hplaced : ∀ rows', lead ++ (objects.text front (first ++ (start ++ (head ++
        (Brackets.content rows' ++ tail))) :: last) behind ++ trail)
          = (lead ++ '\x7b' :: (front ++ (outerHead ++ (start ++ head)))) ++
            (Brackets.content rows' ++ (tail ++ (outerTail ++ (behind ++ '\x7d' :: trail)))) := by
      intro rows'
      simp [Brackets.text, houter, objects]
    refine ⟨_, rows, _, hrows, htext.trans (hplaced rows), ?_⟩
    intro items' rows' hrows'
    rw [← hplaced]
    have hmember' := hstart (.array items') _ (hplace items' rows' hrows')
    exact objects.read?_text hlead hfront hbehind htrail
      (List.rel_append hfirst (.cons hmember' hlast))

/-! ## §3. Nesting -/

mutual

/-- How many arrays and objects of a value are within each other. -/
def Json.nesting : Json → Nat
  | .null | .bool _ | .number _ | .string _ => 0
  | .array items => nestingOfItems items + 1
  | .object members => nestingOfMembers members + 1

/-- The greatest nesting of items. -/
def nestingOfItems : List Json → Nat
  | [] => 0
  | item :: rest => max item.nesting (nestingOfItems rest)

/-- The greatest nesting of the values of members. -/
def nestingOfMembers : List (String × Json) → Nat
  | [] => 0
  | (_, value) :: rest => max value.nesting (nestingOfMembers rest)

end

mutual

/-- A tree that has a value has it wherever there is room for the nesting of the value. -/
theorem Literal.resolve?_iff_nesting : ∀ (literal : Literal) {room : Nat} {j : Json},
    literal.resolve? room = some j →
      ∀ room', literal.resolve? room' = some j ↔ j.nesting ≤ room'
  | .null, _, _, h, _ => by
    cases h
    simp [Literal.resolve?, Json.nesting]
  | .bool b, _, _, h, _ => by
    cases h
    simp [Literal.resolve?, Json.nesting]
  | .number n, _, _, h, _ => by
    obtain ⟨value, hvalue, rfl⟩ := Option.map_eq_some_iff.mp h
    simp [Literal.resolve?, Json.nesting, hvalue]
  | .string pieces, _, _, h, _ => by
    obtain ⟨value, hvalue, rfl⟩ := Option.map_eq_some_iff.mp h
    simp [Literal.resolve?, Json.nesting, hvalue]
  | .array items, 0, _, h, _ => by cases h
  | .array items, room + 1, _, h, room' => by
    obtain ⟨values, hvalues, rfl⟩ := Option.map_eq_some_iff.mp h
    cases room' with
    | zero => simp [Literal.resolve?, Json.nesting]
    | succ room' =>
      have hiff := resolveItems?_iff_nesting items hvalues room'
      simp [Literal.resolve?, Json.nesting, hiff]
  | .object members, 0, _, h, _ => by cases h
  | .object members, room + 1, _, h, room' => by
    obtain ⟨values, hvalues, rfl⟩ := Option.map_eq_some_iff.mp h
    cases room' with
    | zero => simp [Literal.resolve?, Json.nesting]
    | succ room' =>
      have hiff := resolveMembers?_iff_nesting members hvalues room'
      simp [Literal.resolve?, Json.nesting, hiff]

theorem resolveItems?_iff_nesting : ∀ (items : List Literal) {room : Nat} {values : List Json},
    resolveItems? room items = some values →
      ∀ room', resolveItems? room' items = some values ↔ nestingOfItems values ≤ room'
  | [], _, _, h, _ => by
    cases h
    simp [resolveItems?, nestingOfItems]
  | item :: rest, _, _, h, room' => by
    rw [resolveItems?_cons] at h
    obtain ⟨value, hvalue, hrest⟩ := Option.bind_eq_some_iff.mp h
    obtain ⟨values, hvalues, rfl⟩ := Option.map_eq_some_iff.mp hrest
    have hitem := Literal.resolve?_iff_nesting item hvalue room'
    have hitems := resolveItems?_iff_nesting rest hvalues room'
    rw [resolveItems?_cons, nestingOfItems, Nat.max_le, ← hitem, ← hitems]
    simp [Option.bind_eq_some_iff]

theorem resolveMembers?_iff_nesting : ∀ (members : List (List StringPiece × Literal)) {room : Nat}
    {values : List (String × Json)}, resolveMembers? room members = some values →
      ∀ room', resolveMembers? room' members = some values ↔ nestingOfMembers values ≤ room'
  | [], _, _, h, _ => by
    cases h
    simp [resolveMembers?, nestingOfMembers]
  | (key, value) :: rest, _, _, h, room' => by
    rw [resolveMembers?.eq_def] at h
    simp only at h
    split at h
    · rename_i name j hname hj
      obtain ⟨values, hvalues, rfl⟩ := Option.map_eq_some_iff.mp h
      have hvalue := Literal.resolve?_iff_nesting value hj room'
      have hmembers := resolveMembers?_iff_nesting rest hvalues room'
      rw [resolveMembers?_cons room' hname, nestingOfMembers, Nat.max_le, ← hvalue, ← hmembers]
      simp [Option.bind_eq_some_iff]
    · cases h

end

/-! ## §4. Placing values -/

/-- Values of texts, each for itself. -/
def AreValuesOf (values : List Json) (rows : List (List Char)) : Prop :=
  List.Forall₂ (fun value row => Json.read? row = some value) values rows

theorem Json.read?_eq_some_iff {text : List Char} {j : Json} :
    Json.read? text = some j ↔
      ∃ literal, Literal.read? text = some literal ∧ literal.resolve? maxNesting = some j := by
  unfold Json.read?
  cases Literal.read? text with
  | none => simp
  | some literal => simp

/-- Texts of values are texts of trees that have these values. -/
theorem areValuesOf_iff {values : List Json} {rows : List (List Char)} :
    AreValuesOf values rows ↔
      ∃ items, AreTreesOf items rows ∧ resolveItems? maxNesting items = some values := by
  constructor
  · intro h
    induction h with
    | nil => exact ⟨[], .nil, rfl⟩
    | cons hrow _ ih =>
      obtain ⟨items, hitems, hvalues⟩ := ih
      obtain ⟨literal, hread, hvalue⟩ := Json.read?_eq_some_iff.mp hrow
      refine ⟨literal :: items, .cons hread hitems, ?_⟩
      rw [resolveItems?_cons, hvalue, Option.bind_some, hvalues]
      rfl
  · intro h
    obtain ⟨items, hitems, hvalues⟩ := h
    have hresolved := resolveItems?_eq_some_iff.mp hvalues
    clear hvalues
    induction hitems generalizing values with
    | nil =>
      cases hresolved
      exact .nil
    | cons hread _ ih =>
      cases hresolved with
      | cons hvalue hvalues =>
        exact .cons (Json.read?_eq_some_iff.mpr ⟨_, hread, hvalue⟩) (ih hvalues)

/-- Where there is less room, items keep their values as far as they have one. -/
theorem resolveItems?_eq_none {room : Nat} {items : List Literal} {values : List Json}
    (hvalues : resolveItems? maxNesting items = some values) (hroom : room ≤ maxNesting)
    (hdeep : ¬ nestingOfItems values ≤ room) : resolveItems? room items = none := by
  rw [Option.eq_none_iff_forall_ne_some]
  intro others hothers
  have hnesting := (resolveItems?_iff_nesting items hothers room).mp hothers
  have hsame := (resolveItems?_iff_nesting items hothers maxNesting).mpr
    (Nat.le_trans hnesting hroom)
  rw [hvalues] at hsame
  cases hsame
  exact hdeep hnesting

theorem exists_object_of_resolve? {literal : Literal} {room : Nat} {members : List (String × Json)}
    (h : literal.resolve? (room + 1) = some (.object members)) :
    ∃ literals, literal = .object literals ∧ resolveMembers? room literals = some members := by
  cases Literal.Means.alike ⟨_, h⟩ with
  | @object literals _ _ =>
    obtain ⟨values, hvalues, hj⟩ := Option.map_eq_some_iff.mp h
    cases hj
    exact ⟨literals, rfl, hvalues⟩

theorem exists_array_of_resolve? {literal : Literal} {room : Nat} {values : List Json}
    (h : literal.resolve? (room + 1) = some (.array values)) :
    ∃ items, literal = .array items ∧ resolveItems? room items = some values := by
  cases Literal.Means.alike ⟨_, h⟩ with
  | @array items _ _ =>
    obtain ⟨values, hvalues, hj⟩ := Option.map_eq_some_iff.mp h
    cases hj
    exact ⟨items, rfl, hvalues⟩

/-- Where the value of a text has an array as a member, any other values may be placed by their
texts. The text has a value then, unless there is no room for them within the array and the
object. -/
theorem Json.exists_placing {text : List Char} {name : String} {values : List Json}
    {before after : List (String × Json)}
    (h : Json.read? text = some (.object (before ++ (name, .array values) :: after))) :
    nestingOfItems values ≤ maxNesting - 2 ∧
      ∃ head rows tail, AreValuesOf values rows ∧ text = head ++ (Brackets.content rows ++ tail) ∧
        ∀ values' rows', AreValuesOf values' rows' →
          Json.read? (head ++ (Brackets.content rows' ++ tail)) =
            if nestingOfItems values' ≤ maxNesting - 2 then
              some (.object (before ++ (name, .array values') :: after))
            else none := by
  obtain ⟨literal, hread, hresolve⟩ := Json.read?_eq_some_iff.mp h
  obtain ⟨literals, rfl, hmembers⟩ := exists_object_of_resolve? hresolve
  obtain ⟨first, more, hfirst, hmore, rfl⟩ :=
    exists_append_of_forall₂ (resolveMembers?_eq_some_iff.mp hmembers).flip
  cases hmore with
  | @cons _ member _ last hmember hlast =>
    obtain ⟨key, literal⟩ := member
    obtain ⟨hname, hliteral⟩ := hmember
    -- The object takes one level, the array another, and the items have what is left.
    obtain ⟨items, rfl, hvalues⟩ := exists_array_of_resolve? hliteral
    obtain ⟨head, rows, tail, hrows, htext, hplace⟩ := ProbeGap.exists_placing hread
    have hnesting := (resolveItems?_iff_nesting items hvalues (maxNesting - 2)).mp hvalues
    have hwhole := (resolveItems?_iff_nesting items hvalues maxNesting).mpr
      (Nat.le_trans hnesting (by decide))
    refine ⟨hnesting, head, rows, tail, areValuesOf_iff.mpr ⟨items, hrows, hwhole⟩, htext, ?_⟩
    intro values' rows' hrows'
    obtain ⟨items', htrees, hvalues'⟩ := areValuesOf_iff.mp hrows'
    have hplaced : Json.read? (head ++ (Brackets.content rows' ++ tail))
        = (resolveMembers? (maxNesting - 1) (first ++ (key, .array items') :: last)).map
            Json.object := by
      unfold Json.read?
      rw [hplace items' rows' htrees]
      rfl
    have harray : (Literal.array items').resolve? (maxNesting - 1)
        = (resolveItems? (maxNesting - 2) items').map Json.array := rfl
    rw [hplaced]
    split
    · rename_i hroom
      rw [(resolveItems?_iff_nesting items' hvalues' (maxNesting - 2)).mpr hroom] at harray
      have hmembers' : resolveMembers? (maxNesting - 1) (first ++ (key, .array items') :: last)
          = some (before ++ (name, .array values') :: after) :=
        resolveMembers?_eq_some_iff.mpr
          (List.rel_append hfirst.flip (.cons ⟨hname, harray⟩ hlast.flip))
      rw [hmembers']
      rfl
    · rename_i hdeep
      rw [resolveItems?_eq_none hvalues' (by decide) hdeep] at harray
      rw [Option.map_eq_none_iff, Option.eq_none_iff_forall_ne_some]
      -- All members have values or the object has none, and the array has none.
      intro members hmembers'
      obtain ⟨_, _, -, hmore', -⟩ :=
        exists_append_of_forall₂ (resolveMembers?_eq_some_iff.mp hmembers')
      cases hmore' with
      | cons hmember' _ =>
        obtain ⟨-, hvalue'⟩ := hmember'
        rw [harray] at hvalue'
        cases hvalue'

end ProbeGap
