import Mathlib.Algebra.Group.Nat.Defs
import ProbeGap.Proofs.Numeric.Order

/-!
# Quotients that stay finite

A quotient of finite doubles may overflow, but not if the divisor is two or more. For that
nothing has to be said about what a quotient is rounded to. It is enough to follow its exponent:
rounding cuts a mantissa down to the bits that there is room for and moves the exponent by as
many places, and then by one more if the last bit carries. A number is packed as an infinity only
if its exponent is beyond the greatest one.

## Contents

  * `roundWithAccuracy_cases`: how far rounding moves an exponent.
  * `Fits`, `magnitude_pack_lt`: what is packed as a finite double.
  * `isFinite_div`: quotients by a divisor of two or more.
-/

namespace ProbeGap

open Float.Model Float.Model.UnpackedFloat

/-! ## §1. Mantissas -/

theorem mantissa_ofMantissaAndAccuracy (m : Nat) (accuracy : Accuracy) :
    (ExtendedMantissa.ofMantissaAndAccuracy m accuracy).mantissa = m := by
  cases accuracy with
  | exact => rfl
  | inexact relation => cases relation <;> rfl

/-- Each place that a mantissa is shifted by halves it. -/
theorem mantissa_shiftRight (em : ExtendedMantissa) (places : Nat) :
    (em >>> places).mantissa = em.mantissa / 2 ^ places := by
  induction places with
  | zero =>
    show em.mantissa = _
    rw [Nat.pow_zero, Nat.div_one]
  | succ places ih =>
    show (em >>> places).mantissa / 2 = _
    rw [ih, Nat.div_div_eq_div_mul, Nat.pow_succ]

/-- Rounding adds one at most. -/
theorem roundedMantissa_le (em : ExtendedMantissa) : em.roundedMantissa ≤ em.mantissa + 1 := by
  unfold ExtendedMantissa.roundedMantissa Accuracy.roundToNearestEven
  split <;> omega

theorem le_roundedMantissa (em : ExtendedMantissa) : em.mantissa ≤ em.roundedMantissa := by
  unfold ExtendedMantissa.roundedMantissa Accuracy.roundToNearestEven
  split <;> omega

/-! ## §2. Exponents -/

theorem targetExponent_binary64 (total : Int) :
    Format.binary64.targetExponent total = max (total - 53) (-1074) := rfl

section

variable (m : Nat) (e : Int) (accuracy : Accuracy)

/-- The exponent is raised to the one that there is room for. -/
theorem exponent_shiftToTargetExponent :
    (shiftToTargetExponent .binary64 m e accuracy).2
      = max e (Format.binary64.targetExponent (totalExponent m e)) := by
  show e + ((Format.binary64.targetExponent (totalExponent m e) - e).toNat : Int) = _
  omega

/-- The mantissa is cut down to the bits that there is room for. -/
theorem mantissa_shiftToTargetExponent_lt :
    (shiftToTargetExponent .binary64 m e accuracy).1.mantissa < 2 ^ 53 := by
  have hplaces : m.log2 + 1
      ≤ 53 + (Format.binary64.targetExponent (totalExponent m e) - e).toNat := by
    rw [targetExponent_binary64, totalExponent]
    omega
  show (ExtendedMantissa.ofMantissaAndAccuracy m accuracy
    >>> (Format.binary64.targetExponent (totalExponent m e) - e).toNat).mantissa < 2 ^ 53
  rw [mantissa_shiftRight, mantissa_ofMantissaAndAccuracy,
    Nat.div_lt_iff_lt_mul (Nat.two_pow_pos _), ← Nat.pow_add]
  exact Nat.lt_of_lt_of_le Nat.lt_log2_self (Nat.pow_le_pow_right Nat.two_pos hplaces)

/-- A number that is not below the least double keeps a bit. -/
theorem mantissa_shiftToTargetExponent_pos (hm : 0 < m) (hleast : -1073 ≤ totalExponent m e) :
    0 < (shiftToTargetExponent .binary64 m e accuracy).1.mantissa := by
  have hplaces : (Format.binary64.targetExponent (totalExponent m e) - e).toNat ≤ m.log2 := by
    rw [targetExponent_binary64]
    unfold totalExponent at hleast ⊢
    omega
  have hpow : 2 ^ (Format.binary64.targetExponent (totalExponent m e) - e).toNat ≤ m :=
    Nat.le_trans (Nat.pow_le_pow_right Nat.two_pos hplaces) (Nat.log2_self_le (Nat.ne_of_gt hm))
  show 0 < (ExtendedMantissa.ofMantissaAndAccuracy m accuracy
    >>> (Format.binary64.targetExponent (totalExponent m e) - e).toNat).mantissa
  rw [mantissa_shiftRight, mantissa_ofMantissaAndAccuracy]
  exact Nat.div_pos hpow (Nat.two_pow_pos _)

/-- Rounding gives zero or a finite number, as it does not look at the greatest exponent; that is
left to packing. The exponent is the one that there is room for, or the next one if the last bit
carries. -/
theorem roundWithAccuracy_cases (s : Sign) :
    roundWithAccuracy .binary64 s m e accuracy = .zero s ∨
      ∃ m' e' pos, roundWithAccuracy .binary64 s m e accuracy = .finite s m' e' pos ∧
        e' ≤ max e (Format.binary64.targetExponent (totalExponent m e)) + 1 := by
  have hfirst := exponent_shiftToTargetExponent m e accuracy
  have hshort := mantissa_shiftToTargetExponent_lt m e accuracy
  unfold roundWithAccuracy
  generalize shiftToTargetExponent .binary64 m e accuracy = first at hfirst hshort ⊢
  obtain ⟨em, e₁⟩ := first
  have hrounded : em.roundedMantissa ≤ 2 ^ 53 := by
    have hle := roundedMantissa_le em
    have hlt : em.mantissa < 2 ^ 53 := hshort
    omega
  have hbits : em.roundedMantissa.log2 ≤ 53 := by
    by_cases hzero : em.roundedMantissa = 0
    · rw [hzero]
      exact Nat.zero_le _
    · have hlt : em.roundedMantissa.log2 < 54 := (Nat.log2_lt hzero).mpr (by omega)
      omega
  have hsecond := exponent_shiftToTargetExponent em.roundedMantissa e₁ .exact
  rw [targetExponent_binary64, totalExponent] at hsecond
  dsimp only at hfirst ⊢
  by_cases hzero : (shiftToTargetExponent .binary64 em.roundedMantissa e₁ .exact).1.mantissa = 0
  · rw [dif_pos hzero]
    exact Or.inl rfl
  · rw [dif_neg hzero]
    refine Or.inr ⟨_, _, Nat.pos_of_ne_zero hzero, rfl, ?_⟩
    rw [hsecond, hfirst, targetExponent_binary64]
    omega

/-- A number that is not below the least double is not rounded to zero. What it is rounded to has
no more bits than there is room for. -/
theorem exists_roundWithAccuracy (s : Sign) (hm : 0 < m) (hleast : -1073 ≤ totalExponent m e) :
    ∃ m' e' pos, roundWithAccuracy .binary64 s m e accuracy = .finite s m' e' pos ∧
      m' < 2 ^ 53 ∧ -1074 ≤ e' := by
  have hfirst := exponent_shiftToTargetExponent m e accuracy
  have hkept := mantissa_shiftToTargetExponent_pos m e accuracy hm hleast
  rw [targetExponent_binary64] at hfirst
  unfold roundWithAccuracy
  generalize shiftToTargetExponent .binary64 m e accuracy = first at hfirst hkept ⊢
  obtain ⟨em, e₁⟩ := first
  dsimp only at hfirst hkept ⊢
  have hrounded : 0 < em.roundedMantissa := Nat.lt_of_lt_of_le hkept (le_roundedMantissa em)
  have hleast' : -1073 ≤ totalExponent em.roundedMantissa e₁ := by
    unfold totalExponent
    omega
  have hpos := mantissa_shiftToTargetExponent_pos em.roundedMantissa e₁ .exact hrounded hleast'
  have hsecond := exponent_shiftToTargetExponent em.roundedMantissa e₁ .exact
  rw [dif_neg (Nat.ne_of_gt hpos)]
  refine ⟨_, _, hpos, rfl, mantissa_shiftToTargetExponent_lt _ _ _, ?_⟩
  rw [hsecond]
  omega

end

/-! ## §3. Packing -/

/-- Whether an unpacked number is finite and its exponent within reach. -/
def Fits : UnpackedFloat → Prop
  | .zero _ => True
  | .finite _ _ e _ => e ≤ 971
  | _ => False

/-- A number is rounded within reach if there is room for it below the greatest exponent. -/
theorem fits_roundWithAccuracy {s : Sign} {m : Nat} {e : Int} {accuracy : Accuracy}
    (he : e ≤ 970) (hroom : Format.binary64.targetExponent (totalExponent m e) ≤ 970) :
    Fits (roundWithAccuracy .binary64 s m e accuracy) := by
  rcases roundWithAccuracy_cases m e accuracy s with hzero | ⟨m', e', pos, hround, hle⟩
  · rw [hzero]
    trivial
  · rw [hround]
    show e' ≤ 971
    omega

/-- What fits is packed as a finite double. -/
theorem magnitude_pack_lt {u : UnpackedFloat} (h : Fits u) :
    (UnpackedFloat.pack .binary64 u).toNat % signedLimit < infinityMagnitude := by
  cases u with
  | notANumber => exact absurd h id
  | infinity s => exact absurd h id
  | zero s => cases s <;> decide
  | finite s m e pos =>
    have hmost : e ≤ 971 := h
    have hbias : ((Format.binary64.exponentBias : Nat) : Int) = 1023 := rfl
    have hplaces : ((Format.binary64.mantissaBitsWithoutImplicit : Nat) : Int) = 52 := rfl
    have hsign : signBit s ≤ 1 := by cases s <;> decide
    -- Whichever bits are packed, those of the exponent are not all set.
    have hcomponents : ∀ (exponent : BitVec 11) (mantissa : BitVec 52), exponent.toNat < 2047 →
        (packComponents .binary64 s exponent mantissa).toNat % signedLimit < infinityMagnitude := by
      intro exponent mantissa hexponent
      have hmantissa : mantissa.toNat < 4503599627370496 := mantissa.isLt
      rw [toNat_packComponents]
      simp only [signedLimit, fractionCount, infinityMagnitude]
      omega
    have hexponent : (e + (Format.binary64.exponentBias : Nat)
        + (Format.binary64.mantissaBitsWithoutImplicit : Nat)).toNat ≤ 2046 := by
      rw [hbias, hplaces]
      omega
    dsimp only [UnpackedFloat.pack]
    have hfits : ¬ 2 ^ Format.binary64.exponentBits ≤ (e + (Format.binary64.exponentBias : Nat)
        + (Format.binary64.mantissaBitsWithoutImplicit : Nat)).toNat + 1 := by
      show ¬ 2048 ≤ _
      omega
    rw [if_neg hfits]
    split
    · apply hcomponents
      rw [BitVec.toNat_ofNat]
      exact Nat.lt_of_le_of_lt (Nat.mod_le _ _) (by omega)
    · exact hcomponents _ _ (by decide)

/-! ## §4. Quotients -/

/-- A quotient has fewer bits than the dividend, by almost as many as the divisor has. -/
theorem log2_div_le (a : Nat) {b : Nat} (hb : 0 < b) : (a / b).log2 ≤ a.log2 - b.log2 := by
  by_cases hzero : a / b = 0
  · rw [hzero]
    exact Nat.zero_le _
  · have hpow : 2 ^ b.log2 ≤ b := Nat.log2_self_le (Nat.pos_iff_ne_zero.mp hb)
    have hquotient : 2 ^ (a / b).log2 ≤ a / b := Nat.log2_self_le hzero
    have hproduct : 2 ^ ((a / b).log2 + b.log2) ≤ a := by
      rw [Nat.pow_add]
      exact Nat.le_trans (Nat.mul_le_mul hquotient hpow) (Nat.div_mul_le_self a b)
    have ha : a ≠ 0 := by
      intro ha
      rw [ha, Nat.zero_div] at hzero
      exact hzero rfl
    have hle := (Nat.le_log2 ha).mpr hproduct
    omega

theorem log2_shiftLeft {a : Nat} (ha : a ≠ 0) (places : Nat) :
    (a <<< places).log2 = a.log2 + places := by
  induction places with
  | zero => rfl
  | succ places ih =>
    have hne : a <<< places ≠ 0 := by
      rw [Nat.shiftLeft_eq]
      exact Nat.mul_ne_zero ha (Nat.ne_of_gt (Nat.two_pow_pos places))
    rw [Nat.shiftLeft_succ, Nat.log2_two_mul hne, ih, Nat.add_assoc]

/-- A quotient is within reach if the leading bits of dividend and divisor are near enough. -/
theorem fits_div {s₁ s₂ : Sign} {m₁ m₂ : Nat} {e₁ e₂ : Int} {pos₁ : 0 < m₁} {pos₂ : 0 < m₂}
    (hroom : totalExponent m₁ e₁ - totalExponent m₂ e₂ ≤ 1022) :
    Fits (UnpackedFloat.div .binary64 (.finite s₁ m₁ e₁ pos₁) (.finite s₂ m₂ e₂ pos₂)) := by
  -- The dividend is first given as many more bits as the quotient needs.
  let t := min (e₁ - e₂)
    (Format.binary64.targetExponent (totalExponent m₁ e₁ - totalExponent m₂ e₂))
  let places := (e₁ - e₂ - t).toNat
  have hbits : ((m₁ <<< places) / m₂).log2 ≤ m₁.log2 + places - m₂.log2 := by
    rw [← log2_shiftLeft (Nat.ne_of_gt pos₁)]
    exact log2_div_le _ pos₂
  have ht : t = min (e₁ - e₂)
      (max (totalExponent m₁ e₁ - totalExponent m₂ e₂ - 53) (-1074)) := rfl
  have hplaces : places = (e₁ - e₂ - t).toNat := rfl
  show Fits (roundWithAccuracy .binary64 (s₁ / s₂) (m₁ <<< places / m₂) t _)
  unfold totalExponent at hroom ht
  apply fits_roundWithAccuracy
  · omega
  · rw [targetExponent_binary64, totalExponent]
    omega

/-- A finite double divided by one of two or more is finite. -/
theorem isFinite_div {x y : Float} (hx : x.isFinite = true) {s : Sign} {m : Nat} {e : Int}
    {pos : 0 < m} (hy : y.toModel.unpack = .finite s m e pos) (hlarge : 2 ≤ totalExponent m e) :
    (x / y).isFinite = true := by
  rw [isFinite_iff]
  have hread := reads_unpack x
  have hfits : Fits (UnpackedFloat.div .binary64 x.toModel.unpack y.toModel.unpack) := by
    rw [hy]
    generalize x.toModel.unpack = u at hread
    cases hread with
    | nan h =>
      have hlt := isFinite_iff.mp hx
      omega
    | infinite h =>
      have hlt := isFinite_iff.mp hx
      omega
    | zero h => trivial
    | finite m' e' pos' h least most short leading =>
      apply fits_div
      have hlt : m'.log2 < 53 := (Nat.log2_lt (Nat.ne_of_gt pos')).mpr short
      unfold totalExponent at hlarge ⊢
      omega
  exact magnitude_pack_lt hfits

theorem isFinite_div_eight {x : Float} (hx : x.isFinite = true) : (x / 8).isFinite = true := by
  have height : (8 : Float).toModel.unpack
      = .finite .positive 4503599627370496 (-49) (by decide) := rfl
  exact isFinite_div hx height (by decide)

end ProbeGap
