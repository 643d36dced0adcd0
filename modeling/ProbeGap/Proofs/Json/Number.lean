import ProbeGap.Json.Printer
import ProbeGap.Proofs.Numeric.Shortest
import ProbeGap.Proofs.Text.Digits

/-!
# Reading written numbers

Whole numbers and finite doubles are written as the grammar wants them: no leading zeros, a
digit on each side of a point, digits behind the sign of an exponent. So there is a spelling
for each, and the reader takes the whole of it, provided that what follows does not go on
with the number.

What a spelling means is another matter. It is not decided here, as doubles need not read as
themselves.

## Contents

  * `NumberLiteral.written`, `NumberLiteral.IsGrammatical`: spellings as texts.
  * `readNumberLiteral_written`: a spelling is read back.
  * `exists_spelling_of_isFinite`, `exists_spelling_whole`: numbers are written as spellings.
-/

namespace ProbeGap

/-! ## §1. Spellings -/

/-- A text that does not go on with a part of a number. -/
def EndsNumber (s : List Char) : Prop :=
  ∀ c ∈ s.head?, c.isDigit = false ∧ c ≠ '.' ∧ c ≠ 'e' ∧ c ≠ 'E'

@[simp] theorem endsNumber_nil : EndsNumber [] := by
  simp [EndsNumber]

@[simp] theorem endsNumber_cons {c : Char} {s : List Char} :
    EndsNumber (c :: s) ↔ c.isDigit = false ∧ c ≠ '.' ∧ c ≠ 'e' ∧ c ≠ 'E' := by
  simp [EndsNumber]

/-- A character that a number may start with. -/
def StartsNumber (c : Char) : Prop :=
  c = '-' ∨ c.isDigit = true

instance (c : Char) : Decidable (StartsNumber c) :=
  inferInstanceAs (Decidable (c = '-' ∨ c.isDigit = true))

theorem StartsNumber.ne {c d : Char} (hc : StartsNumber c) (hd : ¬ StartsNumber d) : c ≠ d :=
  fun h => hd (h ▸ hc)

theorem EndsNumber.endsDigits {s : List Char} (h : EndsNumber s) : EndsDigits s :=
  fun c hc => (h c hc).1

namespace NumberLiteral

/-- The point and the digits behind it, if there are any. -/
def fractionText : List Char → List Char
  | [] => []
  | d :: ds => '.' :: d :: ds

/-- The exponent, if there is one. -/
def exponentText : Option (Bool × List Char) → List Char
  | none => []
  | some (negative, ds) => 'e' :: (if negative then '-' else '+') :: ds

/-- The text of a spelling. -/
def written (n : NumberLiteral) : List Char :=
  signed n.negative (n.whole ++ (fractionText n.fraction ++ exponentText n.exponent))

/-- What the grammar wants of a spelling. -/
structure IsGrammatical (n : NumberLiteral) : Prop where
  leading : n.whole = ['0'] ∨ ∃ d ds, n.whole = d :: ds ∧ d ≠ '0'
  whole_digits : ∀ c ∈ n.whole, c.isDigit = true
  fraction_digits : ∀ c ∈ n.fraction, c.isDigit = true
  exponent_digits : ∀ e ∈ n.exponent, e.2 ≠ [] ∧ ∀ c ∈ e.2, c.isDigit = true

theorem IsGrammatical.exists_whole_eq_cons {n : NumberLiteral} (h : n.IsGrammatical) :
    ∃ d ds, n.whole = d :: ds ∧ d.isDigit = true := by
  have hdigits := h.whole_digits
  rcases h.leading with hwhole | ⟨d, ds, hwhole, -⟩
  · exact ⟨'0', [], hwhole, rfl⟩
  · exact ⟨d, ds, hwhole, hdigits d (hwhole ▸ List.mem_cons_self)⟩

/-- A spelling starts with a sign or a digit. -/
theorem IsGrammatical.exists_written_eq_cons {n : NumberLiteral} (h : n.IsGrammatical) :
    ∃ c cs, n.written = c :: cs ∧ StartsNumber c := by
  obtain ⟨d, ds, hwhole, hdigit⟩ := h.exists_whole_eq_cons
  unfold written signed
  split
  · exact ⟨'-', _, rfl, .inl rfl⟩
  · rw [hwhole]
    exact ⟨d, _, rfl, .inr hdigit⟩

end NumberLiteral

/-! ## §2. Reading spellings -/

theorem readWholeDigits_append {whole rest : List Char}
    (hleading : whole = ['0'] ∨ ∃ d ds, whole = d :: ds ∧ d ≠ '0')
    (hdigits : ∀ c ∈ whole, c.isDigit = true) (hrest : EndsDigits rest) :
    readWholeDigits (whole ++ rest) = some (whole, rest) := by
  rcases hleading with rfl | ⟨d, ds, rfl, hd⟩
  · rfl
  · have hspan := spanDigits_append hdigits hrest
    rw [List.cons_append] at hspan ⊢
    rw [readWholeDigits]
    · rw [hspan]
      rfl
    · exact fun _ h => hd (List.cons.inj h).1

theorem readFractionDigits_append {fraction rest : List Char}
    (hdigits : ∀ c ∈ fraction, c.isDigit = true) (hrest : EndsDigits rest)
    (hpoint : ∀ c ∈ rest.head?, c ≠ '.') :
    readFractionDigits (NumberLiteral.fractionText fraction ++ rest) = some (fraction, rest) := by
  cases fraction with
  | nil =>
    show readFractionDigits rest = some ([], rest)
    rw [readFractionDigits]
    rintro s rfl
    exact hpoint '.' rfl rfl
  | cons d ds =>
    have hspan := spanDigits_append hdigits hrest
    show readFractionDigits ('.' :: (d :: ds ++ rest)) = _
    rw [readFractionDigits, hspan]
    rfl

theorem readExponent_append {e : Option (Bool × List Char)}
    (hdigits : ∀ x ∈ e, x.2 ≠ [] ∧ ∀ c ∈ x.2, c.isDigit = true) {rest : List Char}
    (hrest : EndsNumber rest) :
    readExponent (NumberLiteral.exponentText e ++ rest) = some (e, rest) := by
  cases e with
  | none =>
    show readExponent rest = some (none, rest)
    cases rest with
    | nil => rfl
    | cons c rest =>
      obtain ⟨-, -, hlower, hupper⟩ := endsNumber_cons.mp hrest
      rw [readExponent, if_neg (not_or.mpr ⟨hlower, hupper⟩)]
  | some e =>
    obtain ⟨negative, ds⟩ := e
    obtain ⟨hne, hds⟩ := hdigits _ rfl
    have hspan := spanDigits_append hds hrest.endsDigits
    have hnotEmpty : ds.isEmpty = false := by simp [hne]
    have hsign : readExponentSign ((if negative then '-' else '+') :: (ds ++ rest))
        = (negative, ds ++ rest) := by
      cases negative <;> rfl
    show readExponent ('e' :: (if negative then '-' else '+') :: (ds ++ rest)) = _
    rw [readExponent, if_pos (.inl rfl), hsign]
    simp only [hspan, hnotEmpty]
    rfl

/-- A text that is empty or starts with the letter of an exponent. -/
def StartsExponent (s : List Char) : Prop :=
  ∀ c ∈ s.head?, c = 'e' ∨ c = 'E'

theorem startsExponent_exponentText (e : Option (Bool × List Char)) :
    StartsExponent (NumberLiteral.exponentText e) := by
  cases e <;> simp [StartsExponent, NumberLiteral.exponentText]

/-- The parts of a number are taken one after the other, if its exponent is. -/
theorem readUnsigned_append {negative : Bool} {whole fraction exponent rest : List Char}
    {e : Option (Bool × List Char)}
    (hleading : whole = ['0'] ∨ ∃ d ds, whole = d :: ds ∧ d ≠ '0')
    (hwhole : ∀ c ∈ whole, c.isDigit = true) (hfraction : ∀ c ∈ fraction, c.isDigit = true)
    (hstarts : StartsExponent exponent) (hrest : EndsNumber rest)
    (hexponent : readExponent (exponent ++ rest) = some (e, rest)) :
    readUnsigned negative (whole ++ (NumberLiteral.fractionText fraction ++ (exponent ++ rest)))
      = some (⟨negative, whole, fraction, e⟩, rest) := by
  -- Behind each part stands a character that is no digit: a point, a letter, or what follows.
  have hexponentEnds : EndsDigits (exponent ++ rest) ∧ ∀ c ∈ (exponent ++ rest).head?, c ≠ '.' := by
    cases exponent with
    | nil => exact ⟨hrest.endsDigits, fun c hc => (hrest c hc).2.1⟩
    | cons c cs =>
      rcases hstarts c rfl with rfl | rfl
      · exact ⟨endsDigits_cons.mpr rfl, by simp⟩
      · exact ⟨endsDigits_cons.mpr rfl, by simp⟩
  have hfractionEnds :
      EndsDigits (NumberLiteral.fractionText fraction ++ (exponent ++ rest)) := by
    cases fraction with
    | nil => exact hexponentEnds.1
    | cons d ds => exact endsDigits_cons.mpr rfl
  unfold readUnsigned
  rw [readWholeDigits_append hleading hwhole hfractionEnds]
  simp only [Option.bind_eq_bind, Option.bind_some,
    readFractionDigits_append hfraction hexponentEnds.1 hexponentEnds.2, hexponent]
  rfl

/-- The reader takes a spelling as a whole. -/
theorem readNumberLiteral_written {n : NumberLiteral} (hn : n.IsGrammatical) {rest : List Char}
    (hrest : EndsNumber rest) : readNumberLiteral (n.written ++ rest) = some (n, rest) := by
  have hunsigned : readUnsigned n.negative (n.whole ++ (NumberLiteral.fractionText n.fraction
      ++ (NumberLiteral.exponentText n.exponent ++ rest))) = some (n, rest) :=
    readUnsigned_append hn.leading hn.whole_digits hn.fraction_digits
      (startsExponent_exponentText n.exponent) hrest (readExponent_append hn.exponent_digits hrest)
  unfold NumberLiteral.written signed
  split
  · next hnegative =>
    rw [List.cons_append, List.append_assoc, List.append_assoc, readNumberLiteral, ← hnegative]
    exact hunsigned
  · next hpositive =>
    rw [List.append_assoc, List.append_assoc, readNumberLiteral]
    · rw [Bool.eq_false_iff.mpr hpositive] at hunsigned
      exact hunsigned
    · -- The first character is a digit, so it is not taken for a sign.
      intro s hs
      obtain ⟨d, ds, hwhole, hdigit⟩ := hn.exists_whole_eq_cons
      rw [hwhole] at hs
      rw [(List.cons.inj hs).1] at hdigit
      exact absurd hdigit (by decide)

/-! ## §3. Numbers as spellings -/

/-- The digits of a number start like those of a spelling. -/
theorem digits_leading (n : Nat) : digits n = ['0'] ∨ ∃ d ds, digits n = d :: ds ∧ d ≠ '0' := by
  rcases Nat.eq_zero_or_pos n with rfl | hpos
  · exact .inl rfl
  · exact .inr (exists_digits_eq_cons hpos)

/-- A whole number is written as a spelling with neither point nor exponent. -/
theorem exists_spelling_whole (value : Int) :
    ∃ n : NumberLiteral, n.IsGrammatical ∧ (JsonNumber.whole value).written = n.written ∧
      n = ⟨decide (value < 0), digits value.natAbs, [], none⟩ := by
  refine ⟨_, ⟨digits_leading _, fun c hc => isDigit_of_mem_digits hc, ?_, ?_⟩, ?_, rfl⟩
  · intro c hc
    cases hc
  · intro e he
    cases he
  · show signed _ _ = signed _ (digits value.natAbs ++ ([] ++ []))
    rw [List.append_nil, List.append_nil]

theorem fractionText_of_ne_nil {ds : List Char} (h : ds ≠ []) :
    NumberLiteral.fractionText ds = '.' :: ds := by
  obtain ⟨d, ds, rfl⟩ := List.exists_cons_of_ne_nil h
  rfl

/-- What is left of the last digits of a positive number, with zeros filled in up to one
digit in front of them. -/
theorem take_paddedDigits_leading {n : Nat} (hn : 0 < n) (places : Nat) :
    (paddedDigits (places + 1) n).take ((paddedDigits (places + 1) n).length - places) = ['0'] ∨
      ∃ d ds, (paddedDigits (places + 1) n).take
        ((paddedDigits (places + 1) n).length - places) = d :: ds ∧ d ≠ '0' := by
  rw [length_paddedDigits_eq_max]
  rcases Nat.lt_or_ge places (digits n).length with hlong | hshort
  · right
    obtain ⟨d, ds, hdigits, hd⟩ := exists_digits_eq_cons hn
    have hfilled : paddedDigits (places + 1) n = d :: ds := by
      unfold paddedDigits
      rw [Nat.sub_eq_zero_of_le hlong, List.replicate_zero, List.nil_append, hdigits]
    have hkept : max (places + 1) (digits n).length - places
        = (digits n).length - places - 1 + 1 := by
      omega
    rw [hfilled, hkept, List.take_succ_cons]
    exact ⟨d, _, rfl, hd⟩
  · left
    have hkept : max (places + 1) (digits n).length - places = 1 := by omega
    have hzeros : places + 1 - (digits n).length = places - (digits n).length + 1 := by omega
    unfold paddedDigits
    rw [hkept, hzeros, List.replicate_succ]
    rfl

/-- A positive decimal in positional layout is a spelling. -/
theorem exists_spelling_positional {d : Decimal} (hd : 0 < d.digits) (negative : Bool) :
    ∃ n : NumberLiteral, n.IsGrammatical ∧ signed negative (positional d true) = n.written := by
  obtain ⟨c, cs, hdigits, hc⟩ := exists_digits_eq_cons hd
  unfold positional
  simp only
  -- A whole number has zeros filled in and a zero behind its point.
  split
  · refine ⟨⟨negative, digits d.digits ++ List.replicate d.exponent.toNat '0', ['0'], none⟩,
      ⟨.inr ⟨c, cs ++ List.replicate d.exponent.toNat '0', by rw [hdigits]; rfl, hc⟩,
        ?_, ?_, by simp⟩, rfl⟩
    · intro x hx
      rcases List.mem_append.mp hx with hx | hx
      · exact isDigit_of_mem_digits hx
      · rw [List.eq_of_mem_replicate hx]
        rfl
    · intro x hx
      rw [List.mem_singleton.mp hx]
      rfl
  · next hexponent =>
    -- The digits, filled up to one more than there are places, are split at the point.
    have hplaces : 0 < (-d.exponent).toNat := by omega
    generalize (-d.exponent).toNat = places at hplaces
    have hlength := length_paddedDigits_eq_max (places + 1) d.digits
    have hbehind : (paddedDigits (places + 1) d.digits).drop
        ((paddedDigits (places + 1) d.digits).length - places) ≠ [] := by
      intro hnil
      have hcount := congrArg List.length hnil
      rw [List.length_drop, List.length_nil] at hcount
      omega
    refine ⟨⟨negative,
        (paddedDigits (places + 1) d.digits).take
          ((paddedDigits (places + 1) d.digits).length - places),
        (paddedDigits (places + 1) d.digits).drop
          ((paddedDigits (places + 1) d.digits).length - places), none⟩,
      ⟨take_paddedDigits_leading hd places, ?_, ?_, by simp⟩, ?_⟩
    · exact fun x hx => isDigit_of_mem_paddedDigits (List.mem_of_mem_take hx)
    · exact fun x hx => isDigit_of_mem_paddedDigits (List.mem_of_mem_drop hx)
    · show _ = signed negative (_ ++ (NumberLiteral.fractionText _ ++ []))
      rw [fractionText_of_ne_nil hbehind, List.append_nil]
      rfl

/-- A positive decimal in scientific layout is a spelling. -/
theorem exists_spelling_scientific {d : Decimal} (hd : 0 < d.digits) (negative : Bool) :
    ∃ n : NumberLiteral, n.IsGrammatical ∧ signed negative (scientific d) = n.written := by
  obtain ⟨c, cs, hdigits, hc⟩ := exists_digits_eq_cons hd
  have hall : ∀ x ∈ c :: cs, x.isDigit = true := fun x hx =>
    isDigit_of_mem_digits (hdigits.symm ▸ hx)
  unfold scientific
  simp only [hdigits]
  generalize d.exponent + ((c :: cs).length - 1 : Nat) = power
  refine ⟨⟨negative, [c], cs, some (decide (power < 0), digits power.natAbs)⟩,
    ⟨.inr ⟨c, [], rfl, hc⟩, ?_, ?_, ?_⟩, ?_⟩
  · exact fun x hx => hall x (List.mem_singleton.mp hx ▸ List.mem_cons_self)
  · exact fun x hx => hall x (List.mem_cons_of_mem c hx)
  · intro e he
    cases he
    exact ⟨digits_ne_nil _, fun x hx => isDigit_of_mem_digits hx⟩
  · have hfraction : (if (c :: cs).length = 1 then [] else '.' :: (c :: cs).drop 1)
        = NumberLiteral.fractionText cs := by
      cases cs <;> rfl
    unfold NumberLiteral.written
    rw [hfraction, List.append_assoc]
    simp [NumberLiteral.exponentText]

/-- A finite double is written as a spelling. -/
theorem exists_spelling_of_isFinite {x : Float} (hx : x.isFinite = true) :
    ∃ n : NumberLiteral, n.IsGrammatical ∧ dataText? x = some (String.ofList n.written) := by
  obtain ⟨negative, d, hdecoded⟩ := exists_finite_iff.mpr hx
  unfold dataText?
  rw [hdecoded]
  simp only
  split
  · refine ⟨⟨negative, ['0'], ['0'], none⟩, ⟨.inl rfl, ?_, ?_, by simp⟩, ?_⟩
    · intro x hx
      rw [List.mem_singleton.mp hx]
      rfl
    · intro x hx
      rw [List.mem_singleton.mp hx]
      rfl
    · cases negative <;> rfl
  · next hmantissa =>
    have hpos := Dyadic.shortest_pos .even (Nat.pos_of_ne_zero hmantissa)
    unfold dataLayout
    simp only
    split
    · obtain ⟨n, hn, hwritten⟩ := exists_spelling_positional hpos negative
      exact ⟨n, hn, by rw [hwritten]⟩
    · obtain ⟨n, hn, hwritten⟩ := exists_spelling_scientific hpos negative
      exact ⟨n, hn, by rw [hwritten]⟩

/-- Doubles that are not finite have no text. -/
theorem dataText?_eq_none {x : Float} (hx : x.isFinite = false) : dataText? x = none := by
  unfold dataText?
  split
  · next negative d hdecoded =>
    have hfinite := exists_finite_iff.mp ⟨negative, d, hdecoded⟩
    rw [hx] at hfinite
    cases hfinite
  · rfl

end ProbeGap
