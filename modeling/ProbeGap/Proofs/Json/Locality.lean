import Mathlib.Data.List.Forall2
import Mathlib.Data.List.TakeWhile
import ProbeGap.Proofs.Json.Reread

/-!
# What is read is a part of the text

The reader of JSON goes through a text from the front. What it takes as a value depends on the
characters of that value alone: put in front of something else, they are taken as the same value
(`takesParts_readLiteral`). Only a number needs a look at what follows, as it goes on as long as
it can; so what follows must not go on with it (`EndsNumber`). Nor does it matter how much fuel
is left, as long as there is as much as the text is long.

So an array or an object is read from the texts of its parts, each of which is a text for itself
that may be replaced. Arrays and objects differ in their brackets and in what a part is. What they
have in common is said once (`Brackets`): how parts are set apart, in both directions.

## Contents

  * `AreSpaces`: white space.
  * Strings and numbers: where they end.
  * `Takes`, `TakesLoosely`, `TakesParts`: readers and what they take.
  * `Brackets`: parts in brackets, with `arrays` and `objects`.
  * `takesParts_readLiteral`: values.
-/

namespace ProbeGap

/-! ## §1. White space -/

/-- Nothing but white space. -/
def AreSpaces (s : List Char) : Prop :=
  ∀ c ∈ s, isJsonSpace c = true

theorem AreSpaces.nil : AreSpaces [] :=
  fun _ h => absurd h List.not_mem_nil

theorem dropSpaces_append {spaces : List Char} (h : AreSpaces spaces) (s : List Char) :
    dropSpaces (spaces ++ s) = dropSpaces s :=
  List.dropWhile_append_of_pos h

/-- A text is what is left of it behind its white space. -/
theorem exists_spaces (s : List Char) : ∃ spaces, AreSpaces spaces ∧ s = spaces ++ dropSpaces s :=
  ⟨s.takeWhile isJsonSpace, fun _ => List.mem_takeWhile_imp, List.takeWhile_append_dropWhile.symm⟩

theorem dropSpaces_eq_nil_iff {s : List Char} : dropSpaces s = [] ↔ AreSpaces s := by
  unfold dropSpaces
  rw [List.dropWhile_eq_nil_iff]
  rfl

/-- What is left starts with a character that is not white space. -/
theorem isJsonSpace_of_dropSpaces_eq_cons {s cs : List Char} {c : Char}
    (h : dropSpaces s = c :: cs) : isJsonSpace c = false := by
  unfold dropSpaces at h
  have hhead := List.head?_dropWhile_not isJsonSpace s
  rw [h] at hhead
  simpa using hhead

theorem dropSpaces_append_of_eq_cons {s cs : List Char} {c : Char} (h : dropSpaces s = c :: cs)
    (t : List Char) : dropSpaces (s ++ t) = c :: (cs ++ t) := by
  obtain ⟨spaces, hspaces, hs⟩ := exists_spaces s
  rw [hs, h, List.append_assoc, dropSpaces_append hspaces, List.cons_append,
    dropSpaces_cons (isJsonSpace_of_dropSpaces_eq_cons h)]

theorem endsNumber_of_isJsonSpace {c : Char} (h : isJsonSpace c = true) (s : List Char) :
    EndsNumber (c :: s) := by
  simp only [isJsonSpace, Bool.or_eq_true, beq_iff_eq] at h
  rw [endsNumber_cons]
  rcases h with ((rfl | rfl) | rfl) | rfl <;> decide

theorem EndsNumber.append_spaces {spaces rest : List Char} (hrest : EndsNumber rest)
    (hspaces : AreSpaces spaces) : EndsNumber (spaces ++ rest) := by
  cases spaces with
  | nil => exact hrest
  | cons c spaces => exact endsNumber_of_isJsonSpace (hspaces c List.mem_cons_self) _

/-! ## §2. Strings -/

/-- A string ends with its quote. -/
theorem exists_eq_append_of_readString {done pieces : List StringPiece} {s rest : List Char}
    (h : readString done s = some (pieces, rest)) :
    ∃ t, s = t ++ rest ∧ ∀ rest', readString done (t ++ rest') = some (pieces, rest') := by
  fun_induction readString done s with
  | case1 => cases h
  | case2 done rest =>
    cases h
    refine ⟨['"'], rfl, fun rest' => ?_⟩
    rw [List.singleton_append, readString]
  | case3 done a b c d s value hunit ih =>
    obtain ⟨t, rfl, hread⟩ := ih h
    refine ⟨'\\' :: 'u' :: a :: b :: c :: d :: t, rfl, fun rest' => ?_⟩
    simp only [List.cons_append]
    rw [readString, hunit]
    exact hread rest'
  | case4 => cases h
  | case5 done e s hnot c hescaped ih =>
    obtain ⟨t, rfl, hread⟩ := ih h
    refine ⟨'\\' :: e :: t, rfl, fun rest' => ?_⟩
    -- A letter that stands for a character is not the one that starts a unit.
    have hletter : e ≠ 'u' := by
      rintro rfl
      cases hescaped
    simp only [List.cons_append]
    rw [readString, hescaped]
    · exact hread rest'
    · intro a b c d rest'' hu
      exact absurd hu hletter
  | case6 => cases h
  | case7 => cases h
  | case8 done c s hquote hunit hescape hplain ih =>
    obtain ⟨t, rfl, hread⟩ := ih h
    refine ⟨c :: t, rfl, fun rest' => ?_⟩
    obtain ⟨hbackslash, hcontrol⟩ := not_or.mp hplain
    rw [List.cons_append, readString_plain hquote hbackslash hcontrol]
    exact hread rest'

/-! ## §3. Numbers -/

theorem eq_append_of_spanDigits {s ds rest : List Char} (h : spanDigits s = (ds, rest)) :
    s = ds ++ rest ∧ ∀ c ∈ ds, c.isDigit = true := by
  unfold spanDigits at h
  obtain ⟨rfl, rfl⟩ := Prod.mk.inj h
  exact ⟨List.takeWhile_append_dropWhile.symm, fun _ => List.mem_takeWhile_imp⟩

theorem eq_append_of_readWholeDigits {s whole rest : List Char}
    (h : readWholeDigits s = some (whole, rest)) :
    s = whole ++ rest ∧ (whole = ['0'] ∨ ∃ d ds, whole = d :: ds ∧ d ≠ '0') ∧
      ∀ c ∈ whole, c.isDigit = true := by
  unfold readWholeDigits at h
  split at h
  · cases h
    refine ⟨rfl, .inl rfl, ?_⟩
    simp
  · rename_i hzero
    rcases hspan : spanDigits s with ⟨ds, behind⟩
    obtain ⟨hs, hdigits⟩ := eq_append_of_spanDigits hspan
    rw [hspan] at h
    cases ds with
    | nil => cases h
    | cons d ds =>
      cases h
      refine ⟨hs, .inr ⟨d, ds, rfl, ?_⟩, hdigits⟩
      rintro rfl
      exact hzero _ hs

theorem eq_append_of_readFractionDigits {s fraction rest : List Char}
    (h : readFractionDigits s = some (fraction, rest)) :
    s = NumberLiteral.fractionText fraction ++ rest ∧ ∀ c ∈ fraction, c.isDigit = true := by
  unfold readFractionDigits at h
  split at h
  · rename_i behind
    rcases hspan : spanDigits behind with ⟨ds, behind'⟩
    obtain ⟨hbehind, hdigits⟩ := eq_append_of_spanDigits hspan
    rw [hspan] at h
    cases ds with
    | nil => cases h
    | cons d ds =>
      cases h
      exact ⟨congrArg ('.' :: ·) hbehind, hdigits⟩
  · cases h
    exact ⟨rfl, by simp⟩

/-- In front of digits a sign is taken, if there is one. -/
theorem exists_exponentSign (s : List Char) :
    ∃ sign, s = sign ++ (readExponentSign s).2 ∧ ∀ d ds, d.isDigit = true →
      readExponentSign (sign ++ d :: ds) = ((readExponentSign s).1, d :: ds) := by
  have hnoSign : ∀ d ds, d.isDigit = true → readExponentSign (d :: ds) = (false, d :: ds) := by
    intro d ds hdigit
    unfold readExponentSign
    split
    · rename_i hcons
      rw [(List.cons.inj hcons).1] at hdigit
      exact absurd hdigit (by decide)
    · rename_i hcons
      rw [(List.cons.inj hcons).1] at hdigit
      exact absurd hdigit (by decide)
    · rfl
  rw [readExponentSign.eq_def]
  split
  · exact ⟨['-'], rfl, fun _ _ _ => rfl⟩
  · exact ⟨['+'], rfl, fun _ _ _ => rfl⟩
  · exact ⟨[], rfl, hnoSign⟩

theorem exists_eq_append_of_readExponent {s rest : List Char} {e : Option (Bool × List Char)}
    (h : readExponent s = some (e, rest)) :
    ∃ t, s = t ++ rest ∧ StartsExponent t ∧
      ∀ rest', EndsNumber rest' → readExponent (t ++ rest') = some (e, rest') := by
  have habsent : ∀ rest', EndsNumber rest' → readExponent ([] ++ rest') = some (none, rest') :=
    fun rest' hrest' => readExponent_append (e := none) (by simp) hrest'
  cases s with
  | nil =>
    cases h
    exact ⟨[], rfl, by simp [StartsExponent], habsent⟩
  | cons c s =>
    by_cases hletter : c = 'e' ∨ c = 'E'
    · simp only [readExponent, if_pos hletter] at h
      -- The value does not tell how the sign was written, so the text of the sign is kept.
      obtain ⟨sign, hs, hsign⟩ := exists_exponentSign s
      rcases hparts : readExponentSign s with ⟨negative, behind⟩
      rw [hparts] at h hs hsign
      rcases hspan : spanDigits behind with ⟨ds, behind'⟩
      rw [hspan] at h
      obtain ⟨hbehind, hdigits⟩ := eq_append_of_spanDigits hspan
      cases ds with
      | nil => cases h
      | cons d ds =>
        cases h
        refine ⟨c :: (sign ++ d :: ds), ?_, by simpa [StartsExponent] using hletter, ?_⟩
        · rw [hs, hbehind]
          simp
        · intro rest' hrest'
          have hsigned := hsign d (ds ++ rest') (hdigits d List.mem_cons_self)
          have hspan' := spanDigits_append hdigits hrest'.endsDigits
          rw [List.cons_append] at hspan'
          simp only [List.cons_append, List.append_assoc, readExponent, if_pos hletter, hsigned,
            hspan']
          rfl
    · simp only [readExponent, if_neg hletter] at h
      cases h
      exact ⟨[], rfl, by simp [StartsExponent], habsent⟩

/-- A number ends where what follows does not go on with it. -/
theorem exists_eq_append_of_readUnsigned {negative : Bool} {s rest : List Char} {n : NumberLiteral}
    (h : readUnsigned negative s = some (n, rest)) :
    ∃ d t, s = d :: t ++ rest ∧ d.isDigit = true ∧ ∀ rest', EndsNumber rest' →
      readUnsigned negative (d :: t ++ rest') = some (n, rest') := by
  unfold readUnsigned at h
  simp only [Option.bind_eq_bind, Option.bind_eq_some_iff] at h
  obtain ⟨⟨whole, s₁⟩, hwhole, ⟨fraction, s₂⟩, hfraction, ⟨e, s₃⟩, hexponent, hn⟩ := h
  cases hn
  obtain ⟨rfl, hleading, hwholeDigits⟩ := eq_append_of_readWholeDigits hwhole
  obtain ⟨rfl, hfractionDigits⟩ := eq_append_of_readFractionDigits hfraction
  obtain ⟨exponent, rfl, hstarts, hread⟩ := exists_eq_append_of_readExponent hexponent
  have hall : ∀ rest', EndsNumber rest' → readUnsigned negative
      (whole ++ (NumberLiteral.fractionText fraction ++ (exponent ++ rest')))
        = some (⟨negative, whole, fraction, e⟩, rest') := fun rest' hrest' =>
    readUnsigned_append hleading hwholeDigits hfractionDigits hstarts hrest' (hread rest' hrest')
  obtain ⟨d, ds, rfl⟩ : ∃ d ds, whole = d :: ds := by
    rcases hleading with rfl | ⟨d, ds, rfl, -⟩
    · exact ⟨_, _, rfl⟩
    · exact ⟨d, ds, rfl⟩
  refine ⟨d, ds ++ (NumberLiteral.fractionText fraction ++ exponent), by simp,
    hwholeDigits d List.mem_cons_self, ?_⟩
  intro rest' hrest'
  simpa using hall rest' hrest'

theorem exists_eq_append_of_readNumberLiteral {s rest : List Char} {n : NumberLiteral}
    (h : readNumberLiteral s = some (n, rest)) :
    ∃ c t, s = c :: t ++ rest ∧ StartsNumber c ∧ ∀ rest', EndsNumber rest' →
      readNumberLiteral (c :: t ++ rest') = some (n, rest') := by
  unfold readNumberLiteral at h
  split at h
  · obtain ⟨d, t, rfl, -, hread⟩ := exists_eq_append_of_readUnsigned h
    exact ⟨'-', d :: t, rfl, .inl rfl, hread⟩
  · obtain ⟨d, t, rfl, hdigit, hread⟩ := exists_eq_append_of_readUnsigned h
    refine ⟨d, t, rfl, .inr hdigit, fun rest' hrest' => ?_⟩
    rw [List.cons_append, readNumberLiteral]
    · exact hread rest' hrest'
    · rintro _ hcons
      rw [(List.cons.inj hcons).1] at hdigit
      exact absurd hdigit (by decide)

/-! ## §4. What a reader takes -/

section readers

variable {α : Type} (readOne : Nat → List Char → Option (α × List Char))

/-- A text that a reader takes from the front of every text that goes on with something else. -/
def Takes (x : α) (t : List Char) : Prop :=
  ∀ fuel rest, t.length ≤ fuel → EndsNumber rest → readOne fuel (t ++ rest) = some (x, rest)

/-- A text of which a reader may leave white space. -/
def TakesLoosely (x : α) (t : List Char) : Prop :=
  ∀ fuel rest, t.length ≤ fuel → EndsNumber rest →
    ∃ spaces, AreSpaces spaces ∧ readOne fuel (t ++ rest) = some (x, spaces ++ rest)

/-- Whether what is read with so much fuel is a part of the text. -/
def TakesParts (fuel : Nat) : Prop :=
  ∀ s x rest, readOne fuel s = some (x, rest) → ∃ t, s = t ++ rest ∧ Takes readOne x t

variable {readOne}

theorem Takes.loosely {x : α} {t spaces : List Char} (h : Takes readOne x t)
    (hspaces : AreSpaces spaces) : TakesLoosely readOne x (t ++ spaces) := by
  intro fuel rest hfuel hrest
  rw [List.length_append] at hfuel
  refine ⟨spaces, hspaces, ?_⟩
  rw [List.append_assoc]
  exact h fuel _ (by omega) (hrest.append_spaces hspaces)

end readers

/-! ## §5. Parts in brackets -/

/-- How things in brackets are read that are set apart by commas. -/
structure Brackets (α : Type) where
  opening : Char
  closing : Char
  /-- The tree of such things. -/
  tree : List α → Literal
  /-- The reader of one of them. -/
  readOne : Nat → List Char → Option (α × List Char)
  /-- The reader of all that are left, up to the closing bracket. Those that are read already are
  given in reverse. -/
  readAll : Nat → List α → List Char → Option (Literal × List Char)
  opening_space : isJsonSpace opening = false
  closing_space : isJsonSpace closing = false
  closing_ends : ∀ s, EndsNumber (closing :: s)
  closing_ne_comma : closing ≠ ','
  readLiteral_opening : ∀ fuel s, readLiteral (fuel + 1) (opening :: s) =
    if (dropSpaces s).head? = some closing then some (tree [], (dropSpaces s).tail)
    else readAll fuel [] (dropSpaces s)
  readAll_zero : ∀ done s, readAll 0 done s = none
  readAll_succ : ∀ fuel done s, readAll (fuel + 1) done s =
    (readOne fuel s).bind fun one =>
      if (dropSpaces one.2).head? = some ',' then
        readAll fuel (one.1 :: done) (dropSpaces one.2).tail
      else if (dropSpaces one.2).head? = some closing then
        some (tree (one.1 :: done).reverse, (dropSpaces one.2).tail)
      else none
  /-- White space in front of a thing is passed over. -/
  readOne_congr : ∀ fuel s t, dropSpaces s = dropSpaces t → readOne fuel s = readOne fuel t
  /-- The closing bracket is not taken for one of the things. -/
  readOne_start : ∀ fuel s one, readOne fuel s = some one →
    ∃ c cs, dropSpaces s = c :: cs ∧ c ≠ closing

namespace Brackets

variable {α : Type} (b : Brackets α)

theorem readAll_congr {s t : List Char} (h : dropSpaces s = dropSpaces t) (fuel : Nat)
    (done : List α) : b.readAll fuel done s = b.readAll fuel done t := by
  cases fuel with
  | zero => rw [b.readAll_zero, b.readAll_zero]
  | succ fuel => rw [b.readAll_succ, b.readAll_succ, b.readOne_congr fuel s t h]

/-- What stands between brackets: things set apart by commas. -/
def content (parts : List (List Char)) : List Char :=
  Json.separated [','] parts

/-- Things between brackets are read one after the other. -/
theorem readAll_content {xs : List α} {parts : List (List Char)}
    (h : List.Forall₂ (TakesLoosely b.readOne) xs parts) (hne : xs ≠ []) {fuel : Nat}
    (hfuel : (content parts).length < fuel) (done : List α) {behind rest : List Char}
    (hends : EndsNumber behind) (hbehind : dropSpaces behind = b.closing :: rest) :
    b.readAll fuel done (content parts ++ behind) = some (b.tree (done.reverse ++ xs), rest) := by
  induction h generalizing fuel done with
  | nil => exact absurd rfl hne
  | @cons x part xs parts hpart hparts ih =>
    obtain ⟨fuel, rfl⟩ := Nat.exists_eq_add_one_of_ne_zero (Nat.ne_zero_of_lt hfuel)
    rw [b.readAll_succ]
    cases hparts with
    | nil =>
      have hcontent : content [part] = part := Json.separated_singleton _ _
      rw [hcontent] at hfuel ⊢
      obtain ⟨spaces, hspaces, hread⟩ := hpart fuel behind (by omega) hends
      rw [hread, Option.bind_some, dropSpaces_append hspaces, hbehind]
      simp [b.closing_ne_comma]
    | @cons y next ys nexts hnext hnexts =>
      have hcontent : content (part :: next :: nexts) = part ++ (',' :: content (next :: nexts)) :=
        Json.separated_cons_cons _ _ _ _
      rw [hcontent, List.length_append, List.length_cons] at hfuel
      rw [hcontent, List.append_assoc, List.cons_append]
      obtain ⟨spaces, hspaces, hread⟩ :=
        hpart fuel (',' :: (content (next :: nexts) ++ behind)) (by omega) (by simp)
      rw [hread, Option.bind_some, dropSpaces_append hspaces, dropSpaces_cons rfl]
      simp only [List.head?_cons, if_true, List.tail_cons]
      rw [ih (List.cons_ne_nil _ _) (by omega), List.reverse_cons, List.append_assoc]
      rfl

/-- What is read between brackets are things set apart by commas. -/
theorem exists_content {fuel : Nat} (hlocal : ∀ g < fuel, TakesParts b.readOne g) {done : List α}
    {s rest : List Char} {literal : Literal}
    (h : b.readAll fuel done s = some (literal, rest)) :
    ∃ xs parts, xs ≠ [] ∧ List.Forall₂ (TakesLoosely b.readOne) xs parts ∧
      s = content parts ++ b.closing :: rest ∧ literal = b.tree (done.reverse ++ xs) := by
  induction fuel generalizing done s with
  | zero =>
    rw [b.readAll_zero] at h
    cases h
  | succ fuel ih =>
    rw [b.readAll_succ] at h
    obtain ⟨⟨x, behind⟩, hread, hgoes⟩ := Option.bind_eq_some_iff.mp h
    obtain ⟨t, rfl, ht⟩ := hlocal fuel (Nat.lt_succ_self fuel) s x behind hread
    -- White space before the comma or the bracket is counted to the thing.
    obtain ⟨spaces, hspaces, hbehind⟩ := exists_spaces behind
    have hpart := ht.loosely hspaces
    cases hcs : dropSpaces behind with
    | nil => simp [hcs] at hgoes
    | cons c cs =>
      simp only [hcs, List.head?_cons, List.tail_cons, Option.some.injEq] at hgoes
      rw [hcs] at hbehind
      split at hgoes
      · rename_i hcomma
        obtain ⟨xs, parts, hne, hparts, rfl, rfl⟩ :=
          ih (fun g hg => hlocal g (Nat.lt_succ_of_lt hg)) hgoes
        refine ⟨x :: xs, (t ++ spaces) :: parts, List.cons_ne_nil _ _, .cons hpart hparts, ?_, ?_⟩
        · obtain ⟨y, ys, rfl⟩ := List.exists_cons_of_ne_nil hne
          cases hparts with
          | cons _ _ =>
            rw [hbehind, hcomma]
            unfold content
            rw [Json.separated_cons_cons]
            simp
        · simp
      · split at hgoes
        · rename_i hclosing
          cases hgoes
          refine ⟨[x], [t ++ spaces], List.cons_ne_nil _ _, .cons hpart .nil, ?_, ?_⟩
          · rw [hbehind, hclosing]
            simp [content, Json.separated_singleton]
          · simp
        · cases hgoes

/-- Things in brackets, with white space behind the first bracket and before the second. -/
def text (before : List Char) (parts : List (List Char)) (after : List Char) : List Char :=
  b.opening :: (before ++ (content parts ++ (after ++ [b.closing])))

theorem takes_text {xs : List α} {parts : List (List Char)}
    (h : List.Forall₂ (TakesLoosely b.readOne) xs parts) {before after : List Char}
    (hbefore : AreSpaces before) (hafter : AreSpaces after) :
    Takes readLiteral (b.tree xs) (b.text before parts after) := by
  intro fuel rest hfuel hrest
  simp only [text, List.length_cons, List.length_append, List.length_nil] at hfuel
  obtain ⟨fuel, rfl⟩ := Nat.exists_eq_add_one_of_ne_zero (Nat.ne_zero_of_lt hfuel)
  have htext : b.text before parts after ++ rest
      = b.opening :: (before ++ (content parts ++ (after ++ b.closing :: rest))) := by
    simp [text]
  have hends : EndsNumber (after ++ b.closing :: rest) := (b.closing_ends rest).append_spaces hafter
  have hbehind : dropSpaces (after ++ b.closing :: rest) = b.closing :: rest := by
    rw [dropSpaces_append hafter, dropSpaces_cons b.closing_space]
  rw [htext, b.readLiteral_opening, dropSpaces_append hbefore]
  cases h with
  | nil =>
    have hcontent : content [] ++ (after ++ b.closing :: rest) = after ++ b.closing :: rest := rfl
    rw [hcontent, hbehind]
    simp
  | @cons x part xs parts hpart hparts =>
    -- The first thing does not start with the bracket that closes.
    obtain ⟨spaces, -, hread⟩ := hpart part.length [] (Nat.le_refl _) endsNumber_nil
    rw [List.append_nil] at hread
    obtain ⟨c, cs, hstart, hne⟩ := b.readOne_start _ _ _ hread
    obtain ⟨tail, htail⟩ : ∃ tail, content (part :: parts) = part ++ tail := ⟨_, rfl⟩
    have hdrop : dropSpaces (content (part :: parts) ++ (after ++ b.closing :: rest))
        = c :: (cs ++ (tail ++ (after ++ b.closing :: rest))) := by
      rw [htail, List.append_assoc, dropSpaces_append_of_eq_cons hstart]
    rw [if_neg]
    · rw [b.readAll_congr (t := content (part :: parts) ++ (after ++ b.closing :: rest)),
        b.readAll_content (.cons hpart hparts) (List.cons_ne_nil _ _) (by omega) [] hends hbehind]
      · rfl
      · rw [hdrop, dropSpaces_cons (isJsonSpace_of_dropSpaces_eq_cons hstart)]
    · rw [hdrop]
      simpa using hne

/-- What is read behind an opening bracket are things in brackets. -/
theorem exists_text {fuel : Nat} (hlocal : ∀ g < fuel, TakesParts b.readOne g) {s rest : List Char}
    {literal : Literal} (h : readLiteral (fuel + 1) (b.opening :: s) = some (literal, rest)) :
    ∃ before xs parts after, AreSpaces before ∧ AreSpaces after ∧
      List.Forall₂ (TakesLoosely b.readOne) xs parts ∧
      b.opening :: s = b.text before parts after ++ rest ∧ literal = b.tree xs := by
  rw [b.readLiteral_opening] at h
  obtain ⟨spaces, hspaces, hs⟩ := exists_spaces s
  split at h
  · rename_i hclosing
    cases h
    obtain ⟨cs, hcs⟩ := List.head?_eq_some_iff.mp hclosing
    refine ⟨spaces, [], [], [], hspaces, .nil, .nil, ?_, rfl⟩
    rw [hs, hcs]
    simp [text, content, Json.separated, dropSpaces_append hspaces, dropSpaces_cons b.closing_space]
  · obtain ⟨xs, parts, -, hparts, hcontent, rfl⟩ := b.exists_content hlocal h
    refine ⟨spaces, xs, parts, [], hspaces, .nil, hparts, ?_, rfl⟩
    rw [hs, hcontent]
    simp [text]

/-- So what is read behind an opening bracket is a part of the text. -/
theorem exists_takes {fuel : Nat} (hlocal : ∀ g < fuel, TakesParts b.readOne g)
    {s rest : List Char} {literal : Literal}
    (h : readLiteral (fuel + 1) (b.opening :: s) = some (literal, rest)) :
    ∃ t, b.opening :: s = t ++ rest ∧ Takes readLiteral literal t := by
  obtain ⟨before, xs, parts, after, hbefore, hafter, hparts, htext, rfl⟩ := b.exists_text hlocal h
  exact ⟨_, htext, b.takes_text hparts hbefore hafter⟩

end Brackets

/-! ## §6. Arrays and objects -/

/-- A member at the front of a text, and the text behind it. -/
def readMember (fuel : Nat) (s : List Char) :
    Option ((List StringPiece × Literal) × List Char) :=
  match dropSpaces s with
  | '"' :: rest =>
    match readString [] rest with
    | none => none
    | some (key, rest) =>
      match dropSpaces rest with
      | ':' :: rest => (readLiteral fuel rest).map fun (value, rest) => ((key, value), rest)
      | _ => none
  | _ => none

theorem exists_start_of_readLiteral {fuel : Nat} {s : List Char} {one : Literal × List Char}
    (h : readLiteral fuel s = some one) : ∃ c cs, dropSpaces s = c :: cs ∧ c ≠ ']' := by
  cases fuel with
  | zero => cases h
  | succ fuel =>
    rw [readLiteral] at h
    cases hs : dropSpaces s with
    | nil =>
      rw [hs] at h
      cases h
    | cons c cs =>
      refine ⟨c, cs, rfl, ?_⟩
      rintro rfl
      rw [hs] at h
      cases h

/-- Arrays. -/
def arrays : Brackets Literal where
  opening := '['
  closing := ']'
  tree := .array
  readOne := readLiteral
  readAll := readItems
  opening_space := rfl
  closing_space := rfl
  closing_ends := fun s => by simp
  closing_ne_comma := by decide
  readLiteral_opening := by
    intro fuel s
    rw [readLiteral, dropSpaces_cons rfl]
    simp only
    cases dropSpaces s with
    | nil => rfl
    | cons c cs =>
      by_cases hclosing : c = ']'
      · simp [hclosing]
      · simp [hclosing]
  readAll_zero := fun done s => by rw [readItems]
  readAll_succ := by
    intro fuel done s
    rw [readItems]
    cases readLiteral fuel s with
    | none => rfl
    | some one =>
      obtain ⟨item, rest⟩ := one
      simp only [Option.bind_some]
      cases dropSpaces rest with
      | nil => rfl
      | cons c cs =>
        by_cases hcomma : c = ','
        · simp [hcomma]
        · by_cases hclosing : c = ']'
          · simp [hclosing]
          · simp [hcomma, hclosing]
  readOne_congr := fun fuel s t h => readLiteral_congr h fuel
  readOne_start := fun fuel s one h => exists_start_of_readLiteral h

/-- Objects. -/
def objects : Brackets (List StringPiece × Literal) where
  opening := '\x7b'
  closing := '\x7d'
  tree := .object
  readOne := readMember
  readAll := readMembers
  opening_space := rfl
  closing_space := rfl
  closing_ends := fun s => by simp
  closing_ne_comma := by decide
  readLiteral_opening := by
    intro fuel s
    rw [readLiteral, dropSpaces_cons rfl]
    simp only
    cases dropSpaces s with
    | nil => rfl
    | cons c cs =>
      by_cases hclosing : c = '\x7d'
      · simp [hclosing]
      · simp [hclosing]
  readAll_zero := fun done s => by rw [readMembers]
  readAll_succ := by
    intro fuel done s
    rw [readMembers, readMember]
    cases dropSpaces s with
    | nil => rfl
    | cons c cs =>
      by_cases hquote : c = '"'
      · subst hquote
        simp only
        cases readString [] cs with
        | none => rfl
        | some parts =>
          obtain ⟨key, behind⟩ := parts
          simp only
          cases dropSpaces behind with
          | nil => rfl
          | cons c cs =>
            by_cases hcolon : c = ':'
            · subst hcolon
              simp only
              cases readLiteral fuel cs with
              | none => rfl
              | some one =>
                obtain ⟨value, rest⟩ := one
                simp only [Option.map_some, Option.bind_some]
                cases dropSpaces rest with
                | nil => rfl
                | cons c cs =>
                  by_cases hcomma : c = ','
                  · simp [hcomma]
                  · by_cases hclosing : c = '\x7d'
                    · simp [hclosing]
                    · simp [hcomma, hclosing]
            · simp [hcolon]
      · simp [hquote]
  readOne_congr := fun fuel s t h => by rw [readMember, readMember, h]
  readOne_start := by
    intro fuel s one h
    unfold readMember at h
    split at h
    · rename_i inside hquote
      exact ⟨'"', inside, hquote, by decide⟩
    · cases h

/-- A member is a value behind a name. The front of its text ends with the colon. -/
theorem exists_front_of_readMember {fuel : Nat} {s rest : List Char} {key : List StringPiece}
    {literal : Literal} (h : readMember fuel s = some ((key, literal), rest)) :
    ∃ front value, s = front ++ value ∧ readLiteral fuel value = some (literal, rest) ∧
      ∀ fuel' value', readMember fuel' (front ++ value') =
        (readLiteral fuel' value').map fun one => ((key, one.1), one.2) := by
  unfold readMember at h
  split at h
  · rename_i inside hquote
    cases hkey : readString [] inside with
    | none => simp [hkey] at h
    | some parts =>
      obtain ⟨key', behind⟩ := parts
      rw [hkey] at h
      simp only at h
      split at h
      · rename_i value hcolon
        obtain ⟨⟨literal', rest'⟩, hvalue, hone⟩ := Option.map_eq_some_iff.mp h
        cases hone
        obtain ⟨before, hbefore, hs⟩ := exists_spaces s
        obtain ⟨between, hbetween, hbehind⟩ := exists_spaces behind
        obtain ⟨t, rfl, hstring⟩ := exists_eq_append_of_readString hkey
        refine ⟨before ++ '"' :: (t ++ (between ++ [':'])), value, ?_, hvalue, ?_⟩
        · rw [hs, hquote, hbehind, hcolon]
          simp
        · intro fuel' value'
          simp only [List.append_assoc, List.cons_append, List.nil_append]
          unfold readMember
          rw [dropSpaces_append hbefore, dropSpaces_cons rfl]
          simp only [hstring, dropSpaces_append hbetween, dropSpaces_cons (c := ':') rfl]
      · cases h
  · cases h

theorem takesParts_readMember {fuel : Nat} (h : TakesParts readLiteral fuel) :
    TakesParts readMember fuel := by
  intro s x rest hread
  obtain ⟨key, literal⟩ := x
  obtain ⟨front, value, rfl, hvalue, hfront⟩ := exists_front_of_readMember hread
  obtain ⟨t, rfl, ht⟩ := h value literal rest hvalue
  refine ⟨front ++ t, (List.append_assoc _ _ _).symm, ?_⟩
  intro fuel' rest' hfuel hrest
  rw [List.length_append] at hfuel
  rw [List.append_assoc, hfront, ht fuel' rest' (by omega) hrest]
  rfl

/-! ## §7. Values -/

theorem Takes.spaces {literal : Literal} {spaces t : List Char}
    (h : Takes readLiteral literal t) (hspaces : AreSpaces spaces) :
    Takes readLiteral literal (spaces ++ t) := by
  intro fuel rest hfuel hrest
  rw [List.length_append] at hfuel
  rw [List.append_assoc, readLiteral_congr (dropSpaces_append hspaces _)]
  exact h fuel rest (by omega) hrest

/-- A value without parts is read in one step. -/
theorem Takes.of_step {literal : Literal} {c : Char} {t : List Char}
    (h : ∀ fuel rest, EndsNumber rest →
      readLiteral (fuel + 1) (c :: t ++ rest) = some (literal, rest)) :
    Takes readLiteral literal (c :: t) := by
  intro fuel rest hfuel hrest
  rw [List.length_cons] at hfuel
  obtain ⟨fuel, rfl⟩ := Nat.exists_eq_add_one_of_ne_zero (Nat.ne_zero_of_lt hfuel)
  exact h fuel rest hrest

/-- What is read from the front of a text is a part of it, whatever follows. -/
theorem takesParts_readLiteral (fuel : Nat) : TakesParts readLiteral fuel := by
  induction fuel using Nat.strongRecOn with
  | ind fuel ih =>
    intro s literal rest h
    cases fuel with
    | zero => cases h
    | succ fuel =>
      -- White space in front is part of what is taken, so the text behind it is looked at first.
      obtain ⟨spaces, hspaces, hs⟩ := exists_spaces s
      obtain ⟨t, ht, htext⟩ : ∃ t, dropSpaces s = t ++ rest ∧ Takes readLiteral literal t := by
        have hlower : ∀ g < fuel, TakesParts readLiteral g :=
          fun g hg => ih g (Nat.lt_succ_of_lt hg)
        -- Unfolded for the case split; what is known of brackets is about the reader as it is.
        have hread := h
        rw [readLiteral] at hread
        rw [hs, readLiteral_congr (dropSpaces_append hspaces _)] at h
        split at hread
        case h_1 inside hopening =>
          rw [hopening] at h ⊢
          exact objects.exists_takes (fun g hg => takesParts_readMember (hlower g hg)) h
        case h_2 inside hopening =>
          rw [hopening] at h ⊢
          exact arrays.exists_takes hlower h
        case h_3 inside hquote =>
          obtain ⟨⟨pieces, rest'⟩, hstring, hone⟩ := Option.map_eq_some_iff.mp hread
          cases hone
          obtain ⟨t, rfl, hsame⟩ := exists_eq_append_of_readString hstring
          refine ⟨'"' :: t, hquote, .of_step fun fuel rest' _ => ?_⟩
          rw [List.cons_append, readLiteral, dropSpaces_cons rfl]
          simp only [hsame, Option.map_some]
        case h_4 hword =>
          cases hread
          exact ⟨['t', 'r', 'u', 'e'], hword, .of_step fun fuel rest' _ => by rw [readLiteral]; rfl⟩
        case h_5 hword =>
          cases hread
          exact ⟨['f', 'a', 'l', 's', 'e'], hword,
            .of_step fun fuel rest' _ => by rw [readLiteral]; rfl⟩
        case h_6 hword =>
          cases hread
          exact ⟨nullWord, hword, .of_step fun fuel rest' _ => readLiteral_nullWord fuel rest'⟩
        case h_7 =>
          obtain ⟨⟨n, rest'⟩, hnumber, hone⟩ := Option.map_eq_some_iff.mp hread
          cases hone
          obtain ⟨c, t, ht, hstarts, hnumber⟩ := exists_eq_append_of_readNumberLiteral hnumber
          refine ⟨c :: t, ht, .of_step fun fuel rest' hrest => ?_⟩
          rw [List.cons_append, readLiteral_of_startsNumber hstarts, ← List.cons_append,
            hnumber rest' hrest]
          rfl
      exact ⟨spaces ++ t, by rw [List.append_assoc, ← ht, ← hs], htext.spaces hspaces⟩

end ProbeGap
