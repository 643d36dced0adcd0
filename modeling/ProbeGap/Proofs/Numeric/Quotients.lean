import ProbeGap.Proofs.Numeric.Exceptions

/-!
# Signs and sizes of quotients

A quotient of doubles is on the side of zero that the signs of its operands tell
(`onSide_div`), whatever it is rounded to. For a positive dividend that is the sign of the
divisor, which also a zero has: divided by the zero without a sign it is the infinity above all
numbers, divided by the other one it is below them.

A quotient of positive numbers may still be rounded to zero, or to an infinity. How far the two
are from that is told by their *places*, those of the leading bits. Dividing subtracts places,
up to one, so a quotient of numbers whose places are not too far apart is positive and finite
(`zero_lt_div`, `isFinite_div_of_place`). Places are ordered like numbers (`place_le_place`), so
a bound on a number is one on its place.
-/

namespace ProbeGap

open Float.Model Float.Model.UnpackedFloat

/-! ## §1. Signs -/

theorem Sign.positive_div (s : Sign) : Sign.positive / s = s := by
  cases s <;> rfl

/-- What a positive double unpacks to. -/
theorem unpack_of_pos {x : Float} (h : 0 < x) :
    x.toModel.unpack = .infinity .positive ∨
      ∃ m e pos, x.toModel.unpack = .finite .positive m e pos := by
  by_cases hfinite : x.isFinite = true
  · exact Or.inr (exists_unpack_of_pos h hfinite)
  · have hside := zero_le_iff.mp (zero_le_of_pos h)
    have hnot : ¬ x.toModel.unpack.isFinite = true := hfinite
    generalize x.toModel.unpack = u at hside hnot
    cases u with
    | notANumber => exact hside.elim
    | infinity s =>
      cases hside
      exact Or.inl rfl
    | zero s => exact absurd rfl hnot
    | finite s m e pos => exact absurd rfl hnot

section

variable {x y : Float}

/-- The divisor is a number if the quotient is. -/
theorem isNaN_of_div (h : (x / y).isNaN = false) : y.isNaN = false := by
  have hquotient : (repacked (UnpackedFloat.div .binary64 x.toModel.unpack
    y.toModel.unpack)).isNaN = false := h
  have hlost : ∀ u, UnpackedFloat.div .binary64 u .notANumber = .notANumber := by
    intro u
    cases u <;> rfl
  show y.toModel.unpack.isNaN = false
  generalize x.toModel.unpack = u, y.toModel.unpack = v at hquotient
  cases v with
  | notANumber =>
    rw [hlost] at hquotient
    exact absurd hquotient (by decide)
  | infinity s => rfl
  | zero s => rfl
  | finite s m e pos => rfl

/-- A positive number divided by another number is on the side of the sign of that, unless both
are infinite. -/
theorem onSide_div (hx : 0 < x) (hnumber : (x / y).isNaN = false) :
    OnSide (signOf y) (x / y).toModel.unpack := by
  have hread := reads_unpack y
  have hy := isNaN_eq_false_iff.mp (isNaN_of_div hnumber)
  have hquotient : (repacked (UnpackedFloat.div .binary64 x.toModel.unpack
    y.toModel.unpack)).isNaN = false := hnumber
  apply onSide_repacked (u := UnpackedFloat.div .binary64 x.toModel.unpack y.toModel.unpack)
  generalize y.toModel.unpack = v at hread hquotient
  rcases unpack_of_pos hx with hinfinite | ⟨m, e, pos, hfinite⟩
  · rw [hinfinite] at hquotient ⊢
    cases hread with
    | nan h => omega
    | infinite _ =>
      have hlost : (repacked .notANumber).isNaN = false := hquotient
      exact absurd hlost (by decide)
    | zero _ => exact Sign.positive_div _
    | finite m e pos _ _ _ _ _ => exact Sign.positive_div _
  · rw [hfinite]
    cases hread with
    | nan h => omega
    | infinite _ => trivial
    | zero _ => exact Sign.positive_div _
    | finite m' e' pos' _ _ _ _ _ =>
      show OnSide _ (roundWithAccuracy .binary64 (.positive / signOf y) _ _ _)
      rw [Sign.positive_div]
      exact onSide_roundWithAccuracy _ _ _ _

/-- Only two infinities have no quotient. -/
theorem isNaN_div (hx : 0 < x) (hfinite : x.isFinite = true) (hy : y.isNaN = false) :
    (x / y).isNaN = false := by
  apply isNaN_repacked (u := UnpackedFloat.div .binary64 x.toModel.unpack y.toModel.unpack)
  have hv : y.toModel.unpack.isNaN = false := hy
  obtain ⟨m, e, pos, hunpack⟩ := exists_unpack_of_pos hx hfinite
  rw [hunpack]
  generalize y.toModel.unpack = v at hv
  cases v with
  | notANumber => cases hv
  | infinity s => rfl
  | zero s => rfl
  | finite s m' e' pos' => exact isNaN_roundWithAccuracy _ _ _ _

/-- A quotient of positive numbers is not negative. -/
theorem zero_le_div (hx : 0 < x) (hy : 0 < y) (hnumber : (x / y).isNaN = false) : 0 ≤ x / y := by
  rw [zero_le_iff, ← signOf_of_pos hy]
  exact onSide_div hx hnumber

/-- Below another number a quotient of positive numbers is finite. -/
theorem isFinite_div_of_lt {z : Float} (hx : 0 < x) (hy : 0 < y) (h : x / y < z) :
    (x / y).isFinite = true :=
  isFinite_of_nonneg_of_lt (zero_le_div hx hy (isNaN_eq_false_of_lt h).1) h

/-- Nothing is above a positive number divided by zero. -/
theorem not_div_zero_lt {z : Float} (hx : 0 < x) : ¬ x / 0 < z := by
  have hquotient : UnpackedFloat.div .binary64 x.toModel.unpack (.zero .positive)
      = .infinity .positive := by
    rcases unpack_of_pos hx with hinfinite | ⟨m, e, pos, hfinite⟩
    · rw [hinfinite]
      rfl
    · rw [hfinite]
      rfl
  have hinfinity : x / 0 = 1 / 0 := by
    show Float.ofModel (Float.Model.pack
      (UnpackedFloat.div .binary64 x.toModel.unpack (.zero .positive))) = 1 / 0
    rw [hquotient]
    rfl
  rw [hinfinity]
  intro hlt
  have hfinite := isFinite_of_nonneg_of_lt (by decide) hlt
  exact absurd hfinite (by decide)

end

/-! ## §2. Places -/

/-- The place of the leading bit of a finite number other than zero. -/
def place (x : Float) : Int :=
  match x.toModel.unpack with
  | .finite _ m e _ => totalExponent m e
  | _ => 0

theorem place_eq_of_unpack {x : Float} {s : Sign} {m : Nat} {e : Int} {pos : 0 < m}
    (h : x.toModel.unpack = .finite s m e pos) : place x = totalExponent m e := by
  unfold place
  rw [h]

/-- Places are ordered like positive numbers. -/
theorem place_le_place {x y : Float} (hx : 0 < x) (hle : x ≤ y) (hfinite : y.isFinite = true) :
    place x ≤ place y := by
  have hmagnitude := magnitude_le_of_le (zero_le_of_pos hx) hle
  have hxFinite := isFinite_of_nonneg_of_le (zero_le_of_pos hx) hle hfinite
  have hy := lt_trans_le hx hle
  obtain ⟨m, e, pos, hunpack⟩ := exists_unpack_of_pos hx hxFinite
  obtain ⟨m', e', pos', hunpack'⟩ := exists_unpack_of_pos hy hfinite
  have hread := reads_unpack x
  have hread' := reads_unpack y
  rw [hunpack] at hread
  rw [hunpack'] at hread'
  rw [place_eq_of_unpack hunpack, place_eq_of_unpack hunpack']
  unfold totalExponent
  generalize signOf x = s at hread
  generalize signOf y = s' at hread'
  cases hread with
  | finite _ _ _ h least most short leading =>
    cases hread' with
    | finite _ _ _ h' least' most' short' leading' =>
      simp only [fractionCount] at h h' short short' leading leading'
      have hlog : m.log2 ≤ 52 := by
        have hlt : m.log2 < 53 := (Nat.log2_lt (Nat.ne_of_gt pos)).mpr short
        omega
      -- Only the number with the lesser exponent may lack a leading bit, unless both have the
      -- least one.
      by_cases hexponent : e < e'
      · have hlog' : 52 ≤ m'.log2 := by
          apply (Nat.le_log2 (Nat.ne_of_gt pos')).mpr
          omega
        omega
      · have hsame : e = e' := by omega
        have hmantissa : m ≤ m' := by omega
        have hlog' : m.log2 ≤ m'.log2 := by
          apply (Nat.le_log2 (Nat.ne_of_gt pos')).mpr
          exact Nat.le_trans (Nat.log2_self_le (Nat.ne_of_gt pos)) hmantissa
        omega

/-! ## §3. Sizes -/

/-- A quotient has almost as many bits as dividend and divisor leave. -/
theorem two_pow_le_div {a b : Nat} (hb : 0 < b) (h : b.log2 + 1 ≤ a.log2) :
    2 ^ (a.log2 - (b.log2 + 1)) ≤ a / b := by
  have ha : a ≠ 0 := by
    rintro rfl
    simp at h
  apply (Nat.le_div_iff_mul_le hb).mpr
  calc 2 ^ (a.log2 - (b.log2 + 1)) * b
      ≤ 2 ^ (a.log2 - (b.log2 + 1)) * 2 ^ (b.log2 + 1) :=
        Nat.mul_le_mul_left _ (Nat.le_of_lt Nat.lt_log2_self)
    _ = 2 ^ a.log2 := by rw [← Nat.pow_add, Nat.sub_add_cancel h]
    _ ≤ a := Nat.log2_self_le ha

/-- A quotient that is not below the least double is not rounded to zero. -/
theorem exists_div (s₁ s₂ : Sign) {m₁ m₂ : Nat} {e₁ e₂ : Int} (pos₁ : 0 < m₁) (pos₂ : 0 < m₂)
    (hleast : -1073 ≤ totalExponent m₁ e₁ - totalExponent m₂ e₂) :
    ∃ m e pos, UnpackedFloat.div .binary64 (.finite s₁ m₁ e₁ pos₁) (.finite s₂ m₂ e₂ pos₂)
        = .finite (s₁ / s₂) m e pos ∧ m < 2 ^ 53 ∧ -1074 ≤ e := by
  let t := min (e₁ - e₂)
    (Format.binary64.targetExponent (totalExponent m₁ e₁ - totalExponent m₂ e₂))
  let places := (e₁ - e₂ - t).toNat
  have ht : t = min (e₁ - e₂)
      (max (totalExponent m₁ e₁ - totalExponent m₂ e₂ - 53) (-1074)) := rfl
  have hplaces : places = (e₁ - e₂ - t).toNat := rfl
  have hshifted : (m₁ <<< places).log2 = m₁.log2 + places := log2_shiftLeft (Nat.ne_of_gt pos₁) _
  unfold totalExponent at hleast ht
  have hquotient : 2 ^ ((m₁ <<< places).log2 - (m₂.log2 + 1)) ≤ m₁ <<< places / m₂ :=
    two_pow_le_div pos₂ (by omega)
  have hpos : 0 < m₁ <<< places / m₂ := Nat.lt_of_lt_of_le (Nat.two_pow_pos _) hquotient
  have hbits := (Nat.le_log2 (Nat.ne_of_gt hpos)).mpr hquotient
  show ∃ m e pos, roundWithAccuracy .binary64 (s₁ / s₂) (m₁ <<< places / m₂) t _
    = .finite (s₁ / s₂) m e pos ∧ _
  apply exists_roundWithAccuracy _ _ _ _ hpos
  unfold totalExponent
  omega

/-- What has no more bits than there is room for is not packed as a zero. -/
theorem magnitude_pack_pos {s : Sign} {m : Nat} {e : Int} {pos : 0 < m} (short : m < 2 ^ 53)
    (least : -1074 ≤ e) :
    (UnpackedFloat.pack .binary64 (.finite s m e pos)).toNat % signedLimit ≠ 0 := by
  have hbias : ((Format.binary64.exponentBias : Nat) : Int) = 1023 := rfl
  have hplaces : ((Format.binary64.mantissaBitsWithoutImplicit : Nat) : Int) = 52 := rfl
  have hcomponents : ∀ (exponent : BitVec 11) (mantissa : BitVec 52),
      exponent.toNat ≠ 0 ∨ mantissa.toNat ≠ 0 →
        (packComponents .binary64 s exponent mantissa).toNat % signedLimit ≠ 0 := by
    intro exponent mantissa hsome
    have hexponent : exponent.toNat < 2048 := exponent.isLt
    have hmantissa : mantissa.toNat < 4503599627370496 := mantissa.isLt
    have hsign : signBit s ≤ 1 := by cases s <;> decide
    rw [toNat_packComponents]
    simp only [signedLimit, fractionCount]
    omega
  dsimp only [UnpackedFloat.pack]
  split
  · exact hcomponents _ _ (Or.inl (by decide))
  · rename_i hreach
    rw [hbias, hplaces] at hreach
    have hreach' : (e + 1023 + 52).toNat + 1 < 2048 := Nat.lt_of_not_le hreach
    split
    · apply hcomponents
      rw [hbias, hplaces, BitVec.toNat_ofNat]
      exact Or.inl (by omega)
    · rename_i hleading
      have hleading' : m.log2 + 1 ≠ 53 := hleading
      have hlog : m.log2 < 53 := (Nat.log2_lt (Nat.ne_of_gt pos)).mpr short
      have hsmall : m < 2 ^ 52 := (Nat.log2_lt (Nat.ne_of_gt pos)).mp (by omega)
      apply hcomponents
      refine Or.inr ?_
      rw [BitVec.toNat_ofNat, Nat.mod_eq_of_lt hsmall]
      exact Nat.ne_of_gt pos

section

variable {x y : Float} (hx : 0 < x) (hy : 0 < y) (hxFinite : x.isFinite = true)
  (hyFinite : y.isFinite = true)
include hx hy hxFinite hyFinite

/-- A quotient of positive numbers is finite if their places are near enough. -/
theorem isFinite_div_of_place (h : place x - place y ≤ 1022) : (x / y).isFinite = true := by
  obtain ⟨m, e, pos, hunpack⟩ := exists_unpack_of_pos hx hxFinite
  obtain ⟨m', e', pos', hunpack'⟩ := exists_unpack_of_pos hy hyFinite
  rw [place_eq_of_unpack hunpack, place_eq_of_unpack hunpack'] at h
  have hfits : Fits (UnpackedFloat.div .binary64 x.toModel.unpack y.toModel.unpack) := by
    rw [hunpack, hunpack']
    exact fits_div h
  rw [isFinite_iff]
  exact magnitude_pack_lt hfits

/-- A quotient of positive numbers is positive if their places are near enough. -/
theorem zero_lt_div (h : -1073 ≤ place x - place y) (hfinite : (x / y).isFinite = true) :
    0 < x / y := by
  have hnumber := isNaN_eq_false_of_isFinite hfinite
  obtain ⟨m, e, pos, hunpack⟩ := exists_unpack_of_pos hx hxFinite
  obtain ⟨m', e', pos', hunpack'⟩ := exists_unpack_of_pos hy hyFinite
  rw [place_eq_of_unpack hunpack, place_eq_of_unpack hunpack'] at h
  obtain ⟨m₀, e₀, pos₀, hdiv, short, least⟩ := exists_div .positive .positive pos pos' h
  rw [← hunpack, ← hunpack'] at hdiv
  rw [pos_iff_of_nonneg (zero_le_div hx hy hnumber)]
  show (UnpackedFloat.pack .binary64 (UnpackedFloat.div .binary64 x.toModel.unpack
    y.toModel.unpack)).toNat % signedLimit ≠ 0
  rw [hdiv]
  exact magnitude_pack_pos short least

end

end ProbeGap
