import Mathlib.Data.List.Forall2
import ProbeGap.Json.Fields
import ProbeGap.Proofs.Fallible
import ProbeGap.Proofs.Json.Reread

/-!
# Trees and their values

A record is decoded from a tree, while it is known what value a tree means. A tree that means a
value gives the same number or text as the value; if the value is an array, the tree has items
that mean its items, and if it is an object without repeated names, the fields of the tree mean
its members.

So what a decoder makes of a value can be said without trees (`DecodesTo`): all trees that mean
the value are decoded alike.

## Contents

  * `Literal.Means`: a tree and its value; `Literal.Means.cases` takes both apart.
  * `DecodesTo`: what every tree of a value is decoded to.
  * `HasFields`: the fields of a record whose value is an object.
  * `exists_items`: lists of values that are written and read item by item.
-/

namespace ProbeGap

/-! ## §1. Trees that mean a value -/

/-- A tree means a value if it is resolved to that with enough room. -/
def Literal.Means (l : Literal) (j : Json) : Prop :=
  ∃ room, l.resolve? room = some j

/-- A member of a tree and the member of an object that it means. -/
def MeansMember (member : List StringPiece × Literal) (meant : String × Json) : Prop :=
  stringText? member.1 = some meant.1 ∧ member.2.Means meant.2

/-- A tree beside its value. -/
inductive Literal.Alike : Literal → Json → Prop
  | null : Alike .null .null
  | bool (b : Bool) : Alike (.bool b) (.bool b)
  | number {n : NumberLiteral} {value : JsonNumber} (h : n.resolve? = some value) :
      Alike (.number n) (.number value)
  | string {pieces : List StringPiece} {s : String} (h : stringText? pieces = some s) :
      Alike (.string pieces) (.string s)
  | array {items : List Literal} {meant : List Json} (h : List.Forall₂ Means items meant) :
      Alike (.array items) (.array meant)
  | object {members : List (List StringPiece × Literal)} {meant : List (String × Json)}
      (h : List.Forall₂ MeansMember members meant) : Alike (.object members) (.object meant)

/-- An array has a value if its items have. -/
theorem resolveItems?_eq_some_iff {room : Nat} {items : List Literal} {values : List Json} :
    resolveItems? room items = some values ↔
      List.Forall₂ (fun item value => item.resolve? room = some value) items values := by
  induction items generalizing values with
  | nil => simp [resolveItems?, eq_comm]
  | cons item items ih =>
    rw [resolveItems?_cons]
    constructor
    · intro h
      obtain ⟨value, hvalue, hrest⟩ := Option.bind_eq_some_iff.mp h
      obtain ⟨values, hvalues, rfl⟩ := Option.map_eq_some_iff.mp hrest
      exact .cons hvalue (ih.mp hvalues)
    · intro h
      cases h with
      | cons hvalue hvalues =>
        rw [hvalue, Option.bind_some, ih.mpr hvalues]
        rfl

/-- An object has a value if its members have. -/
theorem resolveMembers?_eq_some_iff {room : Nat} {members : List (List StringPiece × Literal)}
    {values : List (String × Json)} :
    resolveMembers? room members = some values ↔
      List.Forall₂ (fun member value => stringText? member.1 = some value.1 ∧
        member.2.resolve? room = some value.2) members values := by
  induction members generalizing values with
  | nil => simp [resolveMembers?, eq_comm]
  | cons member members ih =>
    obtain ⟨key, literal⟩ := member
    constructor
    · intro h
      rw [resolveMembers?.eq_def] at h
      simp only at h
      split at h
      · rename_i name value hname hvalue
        obtain ⟨values, hvalues, rfl⟩ := Option.map_eq_some_iff.mp h
        exact .cons ⟨hname, hvalue⟩ (ih.mp hvalues)
      · cases h
    · intro h
      cases h with
      | cons hmember hmembers =>
        rw [resolveMembers?_cons room hmember.1, hmember.2, Option.bind_some, ih.mpr hmembers]
        rfl

section parts

variable {l : Literal} {j : Json}

theorem Literal.Means.alike (h : l.Means j) : l.Alike j := by
  obtain ⟨room, h⟩ := h
  cases l with
  | null =>
    cases h
    exact .null
  | bool b =>
    cases h
    exact .bool b
  | number n =>
    obtain ⟨value, hvalue, rfl⟩ := Option.map_eq_some_iff.mp h
    exact .number hvalue
  | string pieces =>
    obtain ⟨s, hs, rfl⟩ := Option.map_eq_some_iff.mp h
    exact .string hs
  | array items =>
    cases room with
    | zero => cases h
    | succ room =>
      obtain ⟨meant, hmeant, rfl⟩ := Option.map_eq_some_iff.mp h
      exact .array ((resolveItems?_eq_some_iff.mp hmeant).imp fun _ _ hitem => ⟨room, hitem⟩)
  | object members =>
    cases room with
    | zero => cases h
    | succ room =>
      obtain ⟨meant, hmeant, rfl⟩ := Option.map_eq_some_iff.mp h
      exact .object ((resolveMembers?_eq_some_iff.mp hmeant).imp
        fun _ _ hmember => ⟨hmember.1, room, hmember.2⟩)

theorem Literal.Means.float? (h : l.Means j) : l.float? = j.float? := by
  cases h.alike with
  | number hvalue => simp [Literal.float?, Json.float?, hvalue]
  | null | bool | string | array | object => rfl

theorem Literal.Means.uint64? (h : l.Means j) : l.uint64? = j.uint64? := by
  cases h.alike with
  | number hvalue => simp [Literal.uint64?, Json.uint64?, hvalue]
  | null | bool | string | array | object => rfl

theorem Literal.Means.text? (h : l.Means j) : l.text? = j.text? := by
  cases h.alike with
  | string hs => exact hs
  | null | bool | number | array | object => rfl

/-- An alternative may also be named by a text. -/
theorem Literal.Means.choice? {s : String} (h : l.Means (.string s)) : l.choice? = some s := by
  cases h.alike with
  | string hs => exact hs

theorem Literal.Means.items? {meant : List Json} (h : l.Means (.array meant)) :
    ∃ items, l.items? = some items ∧ List.Forall₂ Literal.Means items meant := by
  cases h.alike with
  | array hitems => exact ⟨_, rfl, hitems⟩

theorem Literal.Means.null (h : l.Means .null) : l = .null := by
  cases h.alike
  rfl

end parts

/-! ## §2. Decoding values -/

/-- All trees that mean a value are decoded to the same. -/
def DecodesTo {α : Type} (decode : Literal → Option α) (j : Json) (a : α) : Prop :=
  ∀ l : Literal, l.Means j → decode l = some a

theorem decodesTo_float {j : Json} {x : Float} (h : j.float? = some x) :
    DecodesTo Literal.float? j x :=
  fun _ hl => hl.float?.trans h

theorem decodesTo_uint64 {j : Json} {n : UInt64} (h : j.uint64? = some n) :
    DecodesTo Literal.uint64? j n :=
  fun _ hl => hl.uint64?.trans h

theorem decodesTo_text (s : String) : DecodesTo Literal.text? (.string s) s :=
  fun _ hl => hl.text?

theorem decodesTo_choice (s : String) : DecodesTo Literal.choice? (.string s) s :=
  fun _ hl => hl.choice?

/-- A list of values is decoded item by item. -/
theorem decodesTo_items {α : Type} {decode : Literal → Option α} {meant : List Json}
    {as : List α} (h : List.Forall₂ (DecodesTo decode) meant as) :
    DecodesTo (fun l => l.items?.bind (·.mapM decode)) (.array meant) as := by
  intro l hl
  obtain ⟨items, hitems, hmeans⟩ := hl.items?
  show l.items?.bind (·.mapM decode) = some as
  rw [hitems, Option.bind_some, mapM_eq_some_iff]
  clear hitems hl
  induction hmeans generalizing as with
  | nil =>
    cases h
    rfl
  | cons hitem hmeans ih =>
    cases h with
    | cons hdecode hrest => rw [List.map_cons, List.map_cons, hdecode _ hitem, ih hrest]

/-- Values that are written, read again and decoded one by one make lists of which the same can
be said. -/
theorem exists_items {α β : Type} {toJson : α → Json} {decode : Literal → Option β} {room : Nat}
    {P : α → β → Prop} {Q : α → Json → Prop} {xs : List α}
    (h : ∀ x ∈ xs, ∃ y j, (toJson x).reread? room = some j ∧ DecodesTo decode j y ∧ P x y ∧
      Q x j) :
    ∃ ys js, rereadItems? room (xs.map toJson) = some js ∧
      List.Forall₂ (DecodesTo decode) js ys ∧ List.Forall₂ P xs ys ∧ List.Forall₂ Q xs js := by
  induction xs with
  | nil => exact ⟨[], [], rfl, .nil, .nil, .nil⟩
  | cons x xs ih =>
    obtain ⟨y, j, hj, hdecode, hP, hQ⟩ := h x List.mem_cons_self
    obtain ⟨ys, js, hjs, hdecodes, hPs, hQs⟩ := ih fun x' hx' => h x' (List.mem_cons_of_mem x hx')
    refine ⟨y :: ys, j :: js, ?_, .cons hdecode hdecodes, .cons hP hPs, .cons hQ hQs⟩
    rw [List.map_cons, rereadItems?_cons, hj, hjs]
    rfl

/-! ## §3. Fields -/

/-- The names of the members of a tree are those of the object that it means. -/
theorem exists_named? {members : List (List StringPiece × Literal)}
    {meant : List (String × Json)} (h : List.Forall₂ MeansMember members meant) :
    ∃ named, Literal.named? members = some named ∧
      List.Forall₂ (fun m n => m.1 = n.1 ∧ m.2.Means n.2) named meant := by
  induction h with
  | nil => exact ⟨[], rfl, .nil⟩
  | @cons member meant members rest hmember hrest ih =>
    obtain ⟨key, value⟩ := member
    obtain ⟨named, hnamed, hmeans⟩ := ih
    refine ⟨(meant.1, value) :: named, ?_, .cons ⟨rfl, hmember.2⟩ hmeans⟩
    have hname : stringText? key = some meant.1 := hmember.1
    rw [Literal.named?, hname, hnamed]
    rfl

/-- Where no name is repeated, the only member with a name is found by look-up. -/
theorem onlyMember?_of_nodup {named : List (String × Literal)} (h : (named.map (·.1)).Nodup)
    (name : String) : Literal.onlyMember? named name = some (named.lookup name) := by
  unfold Literal.onlyMember?
  induction named with
  | nil => rfl
  | cons member named ih =>
    obtain ⟨key, value⟩ := member
    obtain ⟨hkey, hrest⟩ := List.nodup_cons.mp h
    by_cases hname : key = name
    · subst hname
      have hnone : named.filter (·.1 == key) = [] := by
        rw [List.filter_eq_nil_iff]
        intro other hother heq
        rw [beq_iff_eq] at heq
        exact hkey (List.mem_map.mpr ⟨other, hother, heq⟩)
      rw [List.filter_cons_of_pos (by simp), hnone]
      simp
    · rw [List.filter_cons_of_neg (by simpa using hname), ih hrest]
      have hother : (name == key) = false := by simpa using Ne.symm hname
      rw [List.lookup_cons, hother]

/-- The fields of a tree that means an object: under each name what means the member, or
nothing. -/
structure HasFields (l : Literal) (meant : List (String × Json))
    (field : String → Option Literal) : Prop where
  fields : ∀ names required, l.fields? names required = some (names.map field)
  means : ∀ name j, meant.lookup name = some j → ∃ m, field name = some m ∧ m.Means j
  missing : ∀ name, meant.lookup name = none → field name = none

/-- Look-up finds what means the member, as both lists have the same names. -/
theorem lookup_means {named : List (String × Literal)} {meant : List (String × Json)}
    (h : List.Forall₂ (fun m n => m.1 = n.1 ∧ m.2.Means n.2) named meant) (name : String) :
    (∀ j, meant.lookup name = some j → ∃ m, named.lookup name = some m ∧ m.Means j) ∧
      (meant.lookup name = none → named.lookup name = none) := by
  induction h with
  | nil => exact ⟨nofun, fun _ => rfl⟩
  | @cons m n named meant hmember _ ih =>
    obtain ⟨key, value⟩ := m
    obtain ⟨key', j⟩ := n
    obtain ⟨rfl, hmeans⟩ := hmember
    simp only [List.lookup_cons]
    cases name == key with
    | true =>
      refine ⟨?_, nofun⟩
      rintro j' ⟨⟩
      exact ⟨value, rfl, hmeans⟩
    | false => exact ih

theorem Literal.Means.exists_hasFields {l : Literal} {meant : List (String × Json)}
    (h : l.Means (.object meant)) (hnodup : (meant.map (·.1)).Nodup) :
    ∃ field, HasFields l meant field := by
  cases h.alike with
  | object hmembers =>
    obtain ⟨named, hnamed, hmeans⟩ := exists_named? hmembers
    have hnames : named.map (·.1) = meant.map (·.1) := by
      rw [← List.forall₂_eq_eq_eq, List.forall₂_map_left_iff, List.forall₂_map_right_iff]
      exact hmeans.imp fun _ _ hmember => hmember.1
    refine ⟨fun name => named.lookup name, ?_, fun name => (lookup_means hmeans name).1,
      fun name => (lookup_means hmeans name).2⟩
    intro names required
    rw [Literal.fields?, hnamed]
    show names.mapM (Literal.onlyMember? named) = _
    rw [mapM_eq_some_iff, List.map_map]
    apply List.map_congr_left
    intro name _
    exact onlyMember?_of_nodup (hnames ▸ hnodup) name

section fields

variable {α : Type} {l : Literal} {meant : List (String × Json)} {field : String → Option Literal}
  {decode : Literal → Option α}

theorem HasFields.bind_decode (h : HasFields l meant field) (name : String) {j : Json} {a : α}
    (hname : meant.lookup name = some j) (hj : DecodesTo decode j a) :
    (field name).bind decode = some a := by
  obtain ⟨m, hm, hmeans⟩ := h.means name j hname
  rw [hm, Option.bind_some, hj m hmeans]

theorem HasFields.optional_missing (h : HasFields l meant field) {name : String}
    (hname : meant.lookup name = none) : Literal.optional? decode (field name) = some none := by
  rw [h.missing name hname]
  rfl

theorem HasFields.optional_null (h : HasFields l meant field) {name : String}
    (hname : meant.lookup name = some .null) :
    Literal.optional? decode (field name) = some none := by
  obtain ⟨m, hm, hmeans⟩ := h.means name .null hname
  rw [hm, hmeans.null]
  rfl

theorem HasFields.optional_decode (h : HasFields l meant field) {name : String} {j : Json} {a : α}
    (hname : meant.lookup name = some j) (hnull : j ≠ .null) (hj : DecodesTo decode j a) :
    Literal.optional? decode (field name) = some (some a) := by
  obtain ⟨m, hm, hmeans⟩ := h.means name j hname
  have hne : m ≠ .null := by
    rintro rfl
    cases hmeans.alike
    exact hnull rfl
  rw [hm, Literal.optional?, hj m hmeans]
  · rfl
  · exact hne

end fields

end ProbeGap
