import ProbeGap.Proofs.Numeric.Quotients

/-!
# Lower bounds

Two operations on doubles never fall below one of their operands. The larger of two is at least
each of them that is a number, as what is not a number is passed over (`le_larger_left`,
`le_larger_right`), and so a running maximum is at least the number that it starts from
(`start_le_foldl_larger`). And a factor of one or more does not make a positive number smaller
(`le_mul_of_one_le`), whatever the product is rounded to.

For the product it does not matter which bits are cut off, only how many. A mantissa and an exponent
have a place among the magnitudes (`magnitudeAt`). Cutting the product down to the bits that there
is room for leaves at least the place of the first factor (`le_cutMagnitude_mul`), rounding only
adds to that, and a carry into the next exponent stays in place (`carry_cases`).
-/

namespace ProbeGap

open Float.Model Float.Model.UnpackedFloat

/-! ## §1. The larger of two -/

section order

variable {x y z : Float}

theorem Double.le_self (hx : x.isNaN = false) : x ≤ x :=
  (le_iff_orderKey hx hx).mpr (Int.le_refl _)

theorem Double.le_of_lt (h : x < y) : x ≤ y := by
  obtain ⟨hx, hy⟩ := isNaN_eq_false_of_lt h
  rw [lt_iff_orderKey hx hy] at h
  rw [le_iff_orderKey hx hy]
  omega

theorem Double.le_trans (hxy : x ≤ y) (hyz : y ≤ z) : x ≤ z := by
  obtain ⟨hx, hy⟩ := isNaN_eq_false_of_le hxy
  have hz := (isNaN_eq_false_of_le hyz).2
  rw [le_iff_orderKey hx hy] at hxy
  rw [le_iff_orderKey hy hz] at hyz
  rw [le_iff_orderKey hx hz]
  omega

theorem Double.le_of_not_lt (hx : x.isNaN = false) (hy : y.isNaN = false) (h : ¬ x < y) :
    y ≤ x := by
  rw [lt_iff_orderKey hx hy] at h
  rw [le_iff_orderKey hy hx]
  omega

theorem le_larger_left (hx : x.isNaN = false) : x ≤ Scalar.larger x y := by
  unfold Scalar.larger
  by_cases hlt : x < y
  · rw [if_pos hlt]
    exact Double.le_of_lt hlt
  · rw [if_neg hlt, if_pos (Double.le_self hx)]
    exact Double.le_self hx

/-- The first of two is passed over if it is not a number. -/
theorem le_larger_right (hy : y.isNaN = false) : y ≤ Scalar.larger x y := by
  unfold Scalar.larger
  by_cases hlt : x < y
  · rw [if_pos hlt]
    exact Double.le_self hy
  · rw [if_neg hlt]
    by_cases hself : x ≤ x
    · rw [if_pos hself]
      exact Double.le_of_not_lt (isNaN_eq_false_of_le hself).1 hy hlt
    · rw [if_neg hself]
      exact Double.le_self hy

end order

/-- A running maximum does not fall below its start, whatever it runs over. -/
theorem start_le_foldl_larger {β : Type} (f : β → Float) (xs : List β) {start : Float}
    (h : start.isNaN = false) :
    start ≤ xs.foldl (fun greatest x => Scalar.larger greatest (f x)) start := by
  induction xs generalizing start with
  | nil => exact Double.le_self h
  | cons x xs ih =>
    have hstep : start ≤ Scalar.larger start (f x) := le_larger_left h
    exact Double.le_trans hstep (ih (isNaN_eq_false_of_le hstep).2)

/-! ## §2. Rounding -/

/-- The place of a mantissa and an exponent among the magnitudes. -/
def magnitudeAt (m : Nat) (e : Int) : Int :=
  (e + 1074) * fractionCount + m

/-- Whether a mantissa has its leading bit set, or else the exponent is the least there is. -/
structure IsLeading (m : Nat) (e : Int) : Prop where
  least : -1074 ≤ e
  leading : fractionCount ≤ m ∨ e = -1074

theorem le_log2_of_leading {m : Nat} (h : fractionCount ≤ m) : 52 ≤ m.log2 := by
  have hpos : m ≠ 0 := Nat.ne_of_gt (Nat.lt_of_lt_of_le (by decide) h)
  exact (Nat.le_log2 hpos).mpr h

/-- A positive finite double has its magnitude as its place. -/
theorem exists_magnitudeAt_of_pos {x : Float} (hx : 0 < x) (hfinite : x.isFinite = true) :
    ∃ m e pos, x.toModel.unpack = .finite .positive m e pos ∧ IsLeading m e ∧
      m < 2 * fractionCount ∧ (magnitude x : Int) = magnitudeAt m e := by
  obtain ⟨m, e, pos, hunpack⟩ := exists_unpack_of_pos hx hfinite
  have hread := reads_unpack x
  rw [hunpack] at hread
  generalize signOf x = s at hread
  cases hread with
  | finite _ _ _ hplace least most short leading =>
    exact ⟨m, e, pos, hunpack, ⟨least, leading⟩, short, hplace⟩

/-- The place to which a mantissa and an exponent are cut down before they are rounded. -/
def cutMagnitude (m : Nat) (e : Int) : Int :=
  magnitudeAt (m / 2 ^ (Format.binary64.targetExponent (totalExponent m e) - e).toNat)
    (Format.binary64.targetExponent (totalExponent m e))

/-- The bits that are cut off are the last ones. -/
theorem mantissa_shiftToTargetExponent (m : Nat) (e : Int) (accuracy : Accuracy) :
    (shiftToTargetExponent .binary64 m e accuracy).1.mantissa
      = m / 2 ^ (Format.binary64.targetExponent (totalExponent m e) - e).toNat := by
  show (ExtendedMantissa.ofMantissaAndAccuracy m accuracy
    >>> (Format.binary64.targetExponent (totalExponent m e) - e).toNat).mantissa = _
  rw [mantissa_shiftRight, mantissa_ofMantissaAndAccuracy]

/-- What a mantissa with enough bits is cut down to has its leading bit set. -/
theorem isLeading_cut {m : Nat} {e : Int} (hbits : fractionCount ≤ m) :
    IsLeading (m / 2 ^ (Format.binary64.targetExponent (totalExponent m e) - e).toNat)
      (Format.binary64.targetExponent (totalExponent m e)) := by
  have hlog := le_log2_of_leading hbits
  have hpos : m ≠ 0 := Nat.ne_of_gt (Nat.lt_of_lt_of_le (by decide) hbits)
  rw [targetExponent_binary64, totalExponent]
  refine ⟨by omega, ?_⟩
  by_cases hbottom : (m.log2 : Int) + 1 + e - 53 ≤ -1074
  · exact Or.inr (by omega)
  · left
    have hplaces : (max ((m.log2 : Int) + 1 + e - 53) (-1074) - e).toNat = m.log2 - 52 := by omega
    rw [hplaces, Nat.le_div_iff_mul_le (Nat.two_pow_pos _)]
    calc fractionCount * 2 ^ (m.log2 - 52)
        = 2 ^ (52 + (m.log2 - 52)) := (Nat.pow_add 2 52 _).symm
      _ = 2 ^ m.log2 := by rw [Nat.add_sub_cancel' hlog]
      _ ≤ m := Nat.log2_self_le hpos

/-- A mantissa that a carry has made one bit too long has room in the next exponent, and is in the
same place there. All others have room where they are. -/
theorem carry_cases {m : Nat} {e : Int} (hm : IsLeading m e) (hmost : m ≤ 2 * fractionCount) :
    (m = 2 * fractionCount ∧
        (shiftToTargetExponent .binary64 m e .exact).1.mantissa = fractionCount ∧
        (shiftToTargetExponent .binary64 m e .exact).2 = e + 1) ∨
      (m < 2 * fractionCount ∧
        (shiftToTargetExponent .binary64 m e .exact).1.mantissa = m ∧
        (shiftToTargetExponent .binary64 m e .exact).2 = e) := by
  have hleast := hm.least
  rw [mantissa_shiftToTargetExponent, exponent_shiftToTargetExponent, targetExponent_binary64,
    totalExponent]
  rcases Nat.eq_or_lt_of_le hmost with hcarry | hshort
  · have hlog : m.log2 = 53 := by
      rw [hcarry]
      decide
    have hplaces : (max ((m.log2 : Int) + 1 + e - 53) (-1074) - e).toNat = 1 := by omega
    refine Or.inl ⟨hcarry, ?_, by omega⟩
    rw [hplaces, hcarry]
    rfl
  · have hlog : m.log2 < 53 := by
      by_cases hzero : m = 0
      · rw [hzero]
        decide
      · exact (Nat.log2_lt hzero).mpr hshort
    have hplaces : (max ((m.log2 : Int) + 1 + e - 53) (-1074) - e).toNat = 0 := by omega
    refine Or.inr ⟨hshort, ?_, by omega⟩
    rw [hplaces, Nat.pow_zero, Nat.div_one]

/-- What a number with enough bits is rounded to is not below the place to which it is cut down. -/
theorem exists_roundWithAccuracy_of_leading (s : Sign) {m : Nat} {e : Int} (accuracy : Accuracy)
    (hbits : fractionCount ≤ m) (hleast : -1073 ≤ totalExponent m e) :
    ∃ m' e' pos, roundWithAccuracy .binary64 s m e accuracy = .finite s m' e' pos ∧
      m' < 2 * fractionCount ∧ IsLeading m' e' ∧ cutMagnitude m e ≤ magnitudeAt m' e' := by
  have hpos : 0 < m := Nat.lt_of_lt_of_le (by decide) hbits
  have hcut := isLeading_cut (e := e) hbits
  have hmantissa := mantissa_shiftToTargetExponent m e accuracy
  have hexponent : (shiftToTargetExponent .binary64 m e accuracy).2
      = Format.binary64.targetExponent (totalExponent m e) := by
    have hlog := le_log2_of_leading hbits
    rw [exponent_shiftToTargetExponent, targetExponent_binary64, totalExponent]
    omega
  have hshort := mantissa_shiftToTargetExponent_lt m e accuracy
  have hkept := mantissa_shiftToTargetExponent_pos m e accuracy hpos hleast
  unfold cutMagnitude roundWithAccuracy
  rw [← hmantissa, ← hexponent] at hcut ⊢
  generalize shiftToTargetExponent .binary64 m e accuracy = first at hcut hshort hkept ⊢
  obtain ⟨em, e₁⟩ := first
  dsimp only at hcut hshort hkept ⊢
  -- Rounding adds one at most, which is a carry if all bits were set.
  have hlow := le_roundedMantissa em
  have hhigh := roundedMantissa_le em
  have hrounded : IsLeading em.roundedMantissa e₁ := by
    refine ⟨hcut.least, ?_⟩
    rcases hcut.leading with hleading | hbottom
    · exact Or.inl (Nat.le_trans hleading hlow)
    · exact Or.inr hbottom
  have hmost : em.roundedMantissa ≤ 2 * fractionCount := Nat.le_trans hhigh hshort
  have hadded : magnitudeAt em.mantissa e₁ ≤ magnitudeAt em.roundedMantissa e₁ := by
    unfold magnitudeAt
    omega
  rcases carry_cases hrounded hmost with ⟨hcarry, hsecond, hnext⟩ | ⟨hroom, hsecond, hsame⟩
  · rw [dif_neg (by rw [hsecond]; decide)]
    refine ⟨_, _, _, rfl, ?_⟩
    rw [hsecond, hnext]
    refine ⟨by decide, ⟨by have := hcut.least; omega, Or.inl (Nat.le_refl _)⟩, ?_⟩
    rw [hcarry] at hadded
    simp only [magnitudeAt, fractionCount] at hadded ⊢
    omega
  · rw [dif_neg (by rw [hsecond]; omega)]
    refine ⟨_, _, _, rfl, ?_⟩
    rw [hsecond, hsame]
    exact ⟨hroom, hrounded, hadded⟩

/-- A number with its leading bit set is packed in its place, or as an infinity. -/
theorem le_magnitude_pack {s : Sign} {m : Nat} {e : Int} {pos : 0 < m} (hm : IsLeading m e)
    (hshort : m < 2 * fractionCount) {n : Nat} (hn : n < infinityMagnitude)
    (hle : (n : Int) ≤ magnitudeAt m e) :
    n ≤ (UnpackedFloat.pack .binary64 (.finite s m e pos)).toNat % signedLimit := by
  have hleast := hm.least
  by_cases hmost : e ≤ 971
  · have hplace : ((magnitudeAt m e).toNat : Int) = (e + 1074) * fractionCount + m := by
      have hpositive : 0 ≤ magnitudeAt m e := Int.le_trans (Int.natCast_nonneg n) hle
      exact Int.toNat_of_nonneg hpositive
    have hreads : Reads s (magnitudeAt m e).toNat (.finite s m e pos) :=
      .finite m e pos hplace hleast hmost hshort hm.leading
    have hinfinity : (magnitudeAt m e).toNat ≤ infinityMagnitude := by
      simp only [fractionCount, infinityMagnitude] at hplace hshort ⊢
      omega
    have hsigned : (magnitudeAt m e).toNat < signedLimit :=
      Nat.lt_of_le_of_lt hinfinity (by decide)
    rw [hreads.toNat_pack hinfinity, Nat.add_comm, Nat.add_mul_mod_self_right,
      Nat.mod_eq_of_lt hsigned]
    omega
  · rw [magnitude_pack_of_beyond hmost]
    exact Nat.le_of_lt hn

/-! ## §3. Products -/

section product

variable {m₁ m₂ : Nat} {e₁ e₂ : Int} (h₁ : IsLeading m₁ e₁) (hpos : 0 < m₁)
  (h₂ : fractionCount ≤ m₂) (hone : -52 ≤ e₂)

include hpos h₂ in
/-- A product has the bits of the first factor and those behind the leading bit of the second. -/
theorem log2_add_le_log2_mul : m₁.log2 + 52 ≤ (m₁ * m₂).log2 := by
  have hpos₂ : 0 < m₂ := Nat.lt_of_lt_of_le (by decide) h₂
  apply (Nat.le_log2 (Nat.ne_of_gt (Nat.mul_pos hpos hpos₂))).mpr
  rw [Nat.pow_add]
  exact Nat.mul_le_mul (Nat.log2_self_le (Nat.ne_of_gt hpos)) h₂

include h₁ hpos h₂ hone

/-- Cut down to the bits that there is room for, a product with a number of one or more is not below
the first factor. -/
theorem le_cutMagnitude_mul (hshort : m₁ < 2 * fractionCount) :
    magnitudeAt m₁ e₁ ≤ cutMagnitude (m₁ * m₂) (e₁ + e₂) := by
  have hbits : fractionCount ≤ m₁ * m₂ := Nat.le_trans h₂ (Nat.le_mul_of_pos_left m₂ hpos)
  have hcut := isLeading_cut (e := e₁ + e₂) hbits
  have hlog := log2_add_le_log2_mul hpos h₂
  unfold cutMagnitude
  have htarget : Format.binary64.targetExponent (totalExponent (m₁ * m₂) (e₁ + e₂)) =
      max (((m₁ * m₂).log2 : Int) + 1 + (e₁ + e₂) - 53) (-1074) := rfl
  generalize Format.binary64.targetExponent (totalExponent (m₁ * m₂) (e₁ + e₂)) = t
    at hcut htarget ⊢
  have hleast := h₁.least
  rcases Int.lt_trichotomy t e₁ with hlt | heq | hgt
  · -- A first factor with a lower exponent to go to would have its leading bit set.
    have hlog₁ := le_log2_of_leading (h₁.leading.resolve_right (by omega))
    omega
  · -- In the same exponent no more bits are cut off than the second factor adds.
    have hplaces : (t - (e₁ + e₂)).toNat ≤ 52 := by omega
    have hkept : m₁ ≤ m₁ * m₂ / 2 ^ (t - (e₁ + e₂)).toNat := by
      rw [Nat.le_div_iff_mul_le (Nat.two_pow_pos _)]
      exact Nat.mul_le_mul_left m₁ (Nat.le_trans (Nat.pow_le_pow_right Nat.two_pos hplaces) h₂)
    rw [heq] at hkept ⊢
    unfold magnitudeAt
    omega
  · -- In a higher exponent the leading bit alone is enough.
    have hleading := hcut.leading.resolve_right (by omega)
    simp only [magnitudeAt, fractionCount] at hleading hshort ⊢
    omega

/-- Such a product is not below the least double. -/
theorem least_le_totalExponent_mul : -1073 ≤ totalExponent (m₁ * m₂) (e₁ + e₂) := by
  have hlog := log2_add_le_log2_mul hpos h₂
  have hleast := h₁.least
  unfold totalExponent
  omega

end product

/-- The magnitude of a finite product is not below that of the first factor. -/
theorem magnitude_le_mul {x y : Float} (hx : 0 < x) (hfinite : x.isFinite = true) (hy : 1 ≤ y)
    (hyFinite : y.isFinite = true) : magnitude x ≤ magnitude (x * y) := by
  have hyPos : 0 < y := lt_trans_le (by decide) hy
  obtain ⟨m₁, e₁, pos₁, hunpack₁, hleading₁, hshort₁, hplace₁⟩ :=
    exists_magnitudeAt_of_pos hx hfinite
  obtain ⟨m₂, e₂, pos₂, hunpack₂, hleading₂, hshort₂, hplace₂⟩ :=
    exists_magnitudeAt_of_pos hyPos hyFinite
  -- What is not below one has neither a small exponent nor few bits.
  have hone : 1023 * fractionCount ≤ magnitude y := magnitude_le_of_le (x := 1) (by decide) hy
  have hexponent : -52 ≤ e₂ := by
    simp only [magnitudeAt, fractionCount] at hplace₂ hshort₂ hone
    omega
  have hbits₂ := hleading₂.leading.resolve_right (by omega)
  have hbits : fractionCount ≤ m₁ * m₂ := Nat.le_trans hbits₂ (Nat.le_mul_of_pos_left m₂ pos₁)
  have hcut := le_cutMagnitude_mul hleading₁ pos₁ hbits₂ hexponent hshort₁
  have hroom := least_le_totalExponent_mul hleading₁ pos₁ hbits₂ hexponent
  obtain ⟨m, e, pos, hround, hshort, hleading, hkept⟩ :=
    exists_roundWithAccuracy_of_leading .positive .exact hbits hroom
  have hproduct : UnpackedFloat.mul .binary64 x.toModel.unpack y.toModel.unpack
      = .finite .positive m e pos := by
    rw [hunpack₁, hunpack₂]
    exact hround
  show magnitude x ≤ (UnpackedFloat.pack .binary64 (UnpackedFloat.mul .binary64 x.toModel.unpack
    y.toModel.unpack)).toNat % signedLimit
  rw [hproduct]
  apply le_magnitude_pack hleading hshort (isFinite_iff.mp hfinite)
  rw [hplace₁]
  exact Int.le_trans hcut hkept

/-- A factor of one or more does not make a positive number smaller. -/
theorem le_mul_of_one_le {x y : Float} (hx : 0 < x) (hfinite : x.isFinite = true) (hy : 1 ≤ y) :
    x ≤ x * y := by
  have hyPos : 0 < y := lt_trans_le (by decide) hy
  have hxNumber := isNaN_eq_false_of_isFinite hfinite
  rcases unpack_of_pos hyPos with hinfinite | ⟨m, e, pos, hunpack⟩
  · -- The product with an infinity is an infinity.
    obtain ⟨m, e, pos, hunpack⟩ := exists_unpack_of_pos hx hfinite
    have hproduct : x * y = 1 / 0 := by
      show Float.ofModel (Float.Model.pack
        (UnpackedFloat.mul .binary64 x.toModel.unpack y.toModel.unpack)) = 1 / 0
      rw [hunpack, hinfinite]
      rfl
    have hmost := isFinite_iff.mp hfinite
    have hkey : orderKey (1 / 0) = infinityMagnitude := by decide
    rw [hproduct, le_iff_orderKey hxNumber (by decide), orderKey_of_pos hx, hkey]
    omega
  · have hyFinite : y.isFinite = true := by
      show y.toModel.unpack.isFinite = true
      rw [hunpack]
      rfl
    have hnonneg := zero_le_mul (zero_le_of_pos hx) hyPos hyFinite
    rw [le_iff_orderKey hxNumber (isNaN_eq_false_of_le hnonneg).2, orderKey_of_pos hx,
      orderKey_of_nonneg hnonneg]
    exact Int.ofNat_le.mpr (magnitude_le_mul hx hfinite hy hyFinite)

end ProbeGap
