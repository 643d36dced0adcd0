import ProbeGap.Proofs.Numeric.Order

/-!
# Absolute values

An absolute value depends on the magnitude of a double alone (`abs_eq_of_magnitude`), so a change
of sign does not change it (`abs_neg`), also if the double is a zero, an infinity or not-a-number.
In the order used for sorting no absolute value is in front of zero (`totalLe_zero_abs`), and the
absolute value of either zero is the zero without a sign (`abs_eq_zero`).
-/

namespace ProbeGap

open Float.Model Float.Model.UnpackedFloat

/-! ## §1. What is not a number -/

theorem unpack_of_isNaN {x : Float} (h : x.isNaN = true) : x.toModel.unpack = .notANumber := by
  have hu : x.toModel.unpack.isNaN = true := h
  generalize x.toModel.unpack = u at hu
  cases u with
  | notANumber => rfl
  | infinity s => cases hu
  | zero s => cases hu
  | finite s m e pos => cases hu

/-- Among all doubles one is not a number. -/
theorem eq_of_isNaN {x : Float} (h : x.isNaN = true) : x = 0 / 0 := by
  have hbeyond : infinityMagnitude < magnitude x := by
    apply Nat.lt_of_not_le
    rw [← isNaN_eq_false_iff, h]
    exact nofun
  have hmagnitude : magnitude x = (bitsOf x).toNat % signedLimit := rfl
  simp only [infinityMagnitude, signedLimit] at hbeyond hmagnitude
  have hexponent : unpackExponent (bitsOf x) = -1#_ := by
    apply BitVec.eq_of_toNat_eq
    rw [toNat_unpackExponent]
    show (bitsOf x).toNat / fractionCount % 2048 = 2047
    simp only [fractionCount]
    omega
  have hmantissa : unpackMantissa (bitsOf x) ≠ 0#_ := by
    intro hzero
    have hfraction := toNat_unpackMantissa (bitsOf x)
    rw [hzero] at hfraction
    have hnone : 0 = (bitsOf x).toNat % fractionCount := hfraction
    simp only [fractionCount] at hnone
    omega
  apply toBits_injective
  apply UInt64.toBitVec_inj.mp
  exact x.toModel.valid.eq_packedNaN hexponent hmantissa

theorem abs_of_isNaN {x : Float} (h : x.isNaN = true) : x.abs = 0 / 0 := by
  show Float.ofModel (Float.Model.pack x.toModel.unpack.abs) = 0 / 0
  rw [unpack_of_isNaN h]
  rfl

theorem neg_of_isNaN {x : Float} (h : x.isNaN = true) : (-x).isNaN = true := by
  show (UnpackedFloat.unpack .binary64
    (UnpackedFloat.pack .binary64 x.toModel.unpack.neg)).isNaN = true
  rw [unpack_of_isNaN h]
  rfl

/-! ## §2. Signs -/

theorem signBit_signOf (x : Float) : signBit (signOf x) = x.toBits.toNat / signedLimit := by
  have hbit : (unpackSign (bitsOf x)).toNat = x.toBits.toNat / signedLimit :=
    toNat_unpackSign (bitsOf x)
  rw [← hbit]
  unfold signOf
  generalize unpackSign (bitsOf x) = b
  revert b
  decide

/-- A number has the bits of its sign and its magnitude. -/
theorem toNat_pack_unpack {x : Float} (hx : x.isNaN = false) :
    (UnpackedFloat.pack .binary64 x.toModel.unpack).toNat = x.toBits.toNat := by
  rw [(reads_unpack x).toNat_pack (isNaN_eq_false_iff.mp hx), signBit_signOf]
  exact Nat.div_add_mod' _ _

/-- A negated number reads as the same magnitude with the other sign. -/
theorem Reads.neg {s : Sign} {m : Nat} {u : UnpackedFloat} (hu : Reads s m u) :
    Reads (-s) m u.neg := by
  cases hu with
  | nan h => exact .nan h
  | infinite h => exact .infinite h
  | zero h => exact .zero h
  | finite m e pos h least most short leading =>
    exact .finite m e pos h least most short leading

theorem magnitude_neg {x : Float} (hx : x.isNaN = false) : magnitude (-x) = magnitude x := by
  have hpack := (reads_unpack x).neg.toNat_pack (isNaN_eq_false_iff.mp hx)
  have hlt : magnitude x < signedLimit := Nat.mod_lt _ (by decide)
  show (UnpackedFloat.pack .binary64 x.toModel.unpack.neg).toNat % signedLimit = magnitude x
  rw [hpack, Nat.add_comm, Nat.add_mul_mod_self_right]
  exact Nat.mod_eq_of_lt hlt

theorem isNaN_neg {x : Float} (hx : x.isNaN = false) : (-x).isNaN = false := by
  rw [isNaN_eq_false_iff, magnitude_neg hx]
  exact isNaN_eq_false_iff.mp hx

/-- Numbers of the same magnitude have the same absolute value. -/
theorem abs_eq_of_magnitude {x y : Float} (hx : x.isNaN = false) (hy : y.isNaN = false)
    (h : magnitude x = magnitude y) : x.abs = y.abs := by
  apply toBits_injective
  apply UInt64.toNat_inj.mp
  show (bitsOf x.abs).toNat = (bitsOf y.abs).toNat
  rw [toNat_bitsOf_abs hx, toNat_bitsOf_abs hy, h]

/-- A sign does not change an absolute value. -/
theorem abs_neg (x : Float) : (-x).abs = x.abs := by
  cases hx : x.isNaN with
  | true => rw [abs_of_isNaN hx, abs_of_isNaN (neg_of_isNaN hx)]
  | false => exact abs_eq_of_magnitude (isNaN_neg hx) hx (magnitude_neg hx)

/-! ## §3. Zeros -/

/-- What equals zero has the absolute value zero, which has no sign. -/
theorem abs_eq_zero {x : Float} (h : (x == 0) = true) : x.abs = 0 := by
  have hcompare : (x.toModel.unpack.compare (0 : Float).toModel.unpack == some .eq) = true := h
  have hx := (isNaN_eq_false_of_compare (eq_of_beq hcompare)).1
  have hkey := (beq_iff_orderKey hx (by decide)).mp h
  have hmagnitude : magnitude x = magnitude 0 := by
    rw [orderKey_zero] at hkey
    unfold orderKey at hkey
    cases hsign : signOf x <;> rw [hsign] at hkey <;> simp only [Sign.apply] at hkey
    all_goals
      show magnitude x = 0
      omega
  rw [abs_eq_of_magnitude hx (by decide) hmagnitude]
  decide

/-- No absolute value is sorted in front of zero. What is not a number is sorted behind. -/
theorem totalLe_zero_abs (x : Float) : Scalar.totalLe 0 x.abs = true := by
  cases hx : x.isNaN with
  | true =>
    rw [abs_of_isNaN hx]
    decide
  | false =>
    have hlt : magnitude x < signedLimit := Nat.mod_lt _ (by decide)
    have hkey : (totalKey x.abs).toNat = magnitude x + signedLimit := by
      unfold totalKey
      rw [toNat_totalKeyOfBits, toNat_toBits_of_sign (signOf_abs hx), magnitude_abs hx,
        if_pos hlt]
    have hzero : (totalKey 0).toNat = signedLimit := by decide
    rw [totalLe_iff, UInt64.le_iff_toNat_le, hkey, hzero]
    exact Nat.le_add_left _ _

end ProbeGap
