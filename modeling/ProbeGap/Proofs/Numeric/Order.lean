import ProbeGap.Numeric.Scalar

/-!
# The order of doubles

Comparisons of doubles are decided on unpacked numbers: a sign, a mantissa and an
exponent, beside the infinities and not-a-number. All of that can be read off the bits. The
bits without the sign form the *magnitude* of a double, a natural number, and magnitudes
are ordered like the numbers they stand for. With its sign, the magnitude is the *order
key*, and two doubles that are numbers compare as their keys do.

The key forgets nothing but the sign of a zero. Unlike `totalKey`, which sorts all bit
patterns, it says what `<` and `≤` mean.

## Contents

  * `Reads`: what a sign and a magnitude unpack to; `reads_unpack` says that each double
    unpacks so.
  * `lt_iff_orderKey`, `le_iff_orderKey`, `beq_iff_orderKey`: comparisons by keys.
  * `isFinite_iff`, `isNaN_eq_false_iff`: the two kinds of exceptions, by magnitude.
  * `orderKey_abs`: the key of an absolute value is the magnitude.
  * `isFinite_of_nonneg_of_lt`, `pos_or_eq_zero`: numbers that are not negative.
  * `totalLe_total`, `totalLe_trans`, `eq_of_totalLe`: the order used for sorting.
  * `totalLe_iff_le_of_pos`: on positive doubles it is the numeric one.
-/

namespace ProbeGap

open Float.Model Float.Model.UnpackedFloat

/-! ## §1. Fields of a bit pattern -/

theorem toNat_unpackMantissa (b : BitVec Format.binary64.numBits) :
    (unpackMantissa b).toNat = b.toNat % fractionCount := by
  simp [unpackMantissa, fractionCount]

theorem toNat_unpackExponent (b : BitVec Format.binary64.numBits) :
    (unpackExponent b).toNat = b.toNat / fractionCount % 2048 := by
  simp [unpackExponent, fractionCount, Nat.shiftRight_eq_div_pow]

theorem toNat_unpackSign (b : BitVec Format.binary64.numBits) :
    (unpackSign b).toNat = b.toNat / signedLimit := by
  have hlt : b.toNat < 18446744073709551616 := b.isLt
  show (b.extractLsb 63 63).toNat = b.toNat / signedLimit
  simp [signedLimit, Nat.shiftRight_eq_div_pow]
  omega

def signBit : Sign → Nat
  | .negative => 1
  | .positive => 0

/-- The number that three fields form together. -/
theorem toNat_packComponents (s : Sign) (e : BitVec Format.binary64.exponentBits)
    (m : BitVec Format.binary64.mantissaBitsWithoutImplicit) :
    (packComponents .binary64 s e m).toNat
      = signBit s * signedLimit + e.toNat * fractionCount + m.toNat := by
  have he : e.toNat < 2048 := e.isLt
  have hm : m.toNat < 4503599627370496 := m.isLt
  unfold packComponents
  rw [BitVec.toNat_append, ← Nat.shiftLeft_add_eq_or_of_lt m.isLt, BitVec.toNat_append,
    ← Nat.shiftLeft_add_eq_or_of_lt e.isLt]
  cases s <;> simp [signBit, Sign.toBitVec, Nat.shiftLeft_eq, signedLimit, fractionCount]
  omega

/-! ## §2. Signs and magnitudes -/

/-- The magnitude of the infinities. Those of numbers are below, those of not-a-number
above. -/
def infinityMagnitude : Nat := 9218868437227405312

/-- The bits of a double. -/
def bitsOf (x : Float) : BitVec Format.binary64.numBits :=
  x.toModel.toBits.toBitVec

def signOf (x : Float) : Sign :=
  Sign.ofBitVec (unpackSign (bitsOf x))

/-- The bits of a double without the sign. -/
def magnitude (x : Float) : Nat :=
  x.toBits.toNat % signedLimit

/-- What a sign and a magnitude unpack to. The mantissa of a finite number has its leading
bit set, unless the exponent is the least there is. -/
inductive Reads (s : Sign) (magnitude : Nat) : UnpackedFloat → Prop where
  | nan (h : infinityMagnitude < magnitude) : Reads s magnitude .notANumber
  | infinite (h : magnitude = infinityMagnitude) : Reads s magnitude (.infinity s)
  | zero (h : magnitude = 0) : Reads s magnitude (.zero s)
  | finite (m : Nat) (e : Int) (pos : 0 < m)
      (h : (magnitude : Int) = (e + 1074) * fractionCount + m)
      (least : -1074 ≤ e) (most : e ≤ 971) (short : m < 2 * fractionCount)
      (leading : fractionCount ≤ m ∨ e = -1074) : Reads s magnitude (.finite s m e pos)

/-- A bit pattern unpacks to what its sign and its magnitude read as. -/
theorem reads_unpack_bits (b : BitVec Format.binary64.numBits) :
    Reads (Sign.ofBitVec (unpackSign b)) (b.toNat % signedLimit)
      (UnpackedFloat.unpack .binary64 b) := by
  have hm := toNat_unpackMantissa b
  have he := toNat_unpackExponent b
  have hbias : ((Format.binary64.exponentBias : Nat) : Int) = 1023 := rfl
  have hbits : ((Format.binary64.mantissaBitsWithoutImplicit : Nat) : Int) = 52 := rfl
  simp only [fractionCount] at hm he
  unfold UnpackedFloat.unpack
  -- The greatest exponent is that of the exceptions, the least that of small numbers.
  by_cases htop : unpackExponent b = -1#_
  · have htop' : (unpackExponent b).toNat = 2047 := by rw [htop]; rfl
    rw [if_pos htop]
    by_cases hzero : unpackMantissa b = 0#_
    · have hzero' : (unpackMantissa b).toNat = 0 := by rw [hzero]; rfl
      rw [if_pos hzero]
      apply Reads.infinite
      simp only [signedLimit, infinityMagnitude]
      omega
    · have hzero' : (unpackMantissa b).toNat ≠ 0 := fun h => hzero (BitVec.eq_of_toNat_eq h)
      rw [if_neg hzero]
      apply Reads.nan
      simp only [signedLimit, infinityMagnitude]
      omega
  · have htop' : (unpackExponent b).toNat ≠ 2047 := fun h => htop (BitVec.eq_of_toNat_eq h)
    rw [if_neg htop]
    by_cases hleast : unpackExponent b = 0#_
    · have hleast' : (unpackExponent b).toNat = 0 := by rw [hleast]; rfl
      rw [if_pos hleast]
      by_cases hzero : unpackMantissa b = 0#_
      · have hzero' : (unpackMantissa b).toNat = 0 := by rw [hzero]; rfl
        rw [dif_pos hzero]
        apply Reads.zero
        simp only [signedLimit]
        omega
      · rw [dif_neg hzero]
        apply Reads.finite <;> simp only [signedLimit, fractionCount, hbias, hbits] <;> omega
    · have hleast' : (unpackExponent b).toNat ≠ 0 :=
        fun h => hleast (BitVec.eq_of_toNat_eq h)
      -- A normal number has a leading bit in front of the stored mantissa.
      have hlead : (1#1 ++ unpackMantissa b).toNat
          = 4503599627370496 + (unpackMantissa b).toNat := by
        rw [BitVec.toNat_append, ← Nat.shiftLeft_add_eq_or_of_lt (unpackMantissa b).isLt]
        rfl
      rw [if_neg hleast]
      apply Reads.finite <;> simp only [signedLimit, fractionCount, hbias, hbits, hlead] <;>
        omega

/-- A double unpacks to what its sign and its magnitude read as. -/
theorem reads_unpack (x : Float) : Reads (signOf x) (magnitude x) x.toModel.unpack :=
  reads_unpack_bits (bitsOf x)

/-! ## §3. Comparisons -/

/-- The integer that stands for a double in comparisons. -/
def orderKey (x : Float) : Int :=
  (signOf x).apply (magnitude x)

/-- Exponents and mantissas that compare in turn compare as magnitudes. -/
theorem compare_then_compare {m₁ m₂ n₁ n₂ : Nat} {e₁ e₂ : Int}
    (h₁ : (n₁ : Int) = (e₁ + 1074) * fractionCount + m₁)
    (h₂ : (n₂ : Int) = (e₂ + 1074) * fractionCount + m₂)
    (least₁ : -1074 ≤ e₁) (least₂ : -1074 ≤ e₂)
    (short₁ : m₁ < 2 * fractionCount) (short₂ : m₂ < 2 * fractionCount)
    (leading₁ : fractionCount ≤ m₁ ∨ e₁ = -1074)
    (leading₂ : fractionCount ≤ m₂ ∨ e₂ = -1074) :
    (compare e₁ e₂).then (compare m₁ m₂) = compare (n₁ : Int) n₂ := by
  simp only [fractionCount] at *
  rcases Int.lt_trichotomy e₁ e₂ with hlt | heq | hgt
  · have hn : (n₁ : Int) < n₂ := by omega
    rw [Int.compare_eq_lt.mpr hlt, Int.compare_eq_lt.mpr hn]
    rfl
  · subst heq
    have hself : compare e₁ e₁ = .eq := Int.compare_eq_eq.mpr rfl
    rw [hself, Ordering.eq_then]
    rcases Nat.lt_trichotomy m₁ m₂ with hlt | heq | hgt
    · have hn : (n₁ : Int) < n₂ := by omega
      rw [Nat.compare_eq_lt.mpr hlt, Int.compare_eq_lt.mpr hn]
    · have hn : (n₁ : Int) = n₂ := by omega
      rw [Nat.compare_eq_eq.mpr heq, Int.compare_eq_eq.mpr hn]
    · have hn : (n₂ : Int) < n₁ := by omega
      rw [Nat.compare_eq_gt.mpr hgt, Int.compare_eq_gt.mpr hn]
  · have hn : (n₂ : Int) < n₁ := by omega
    rw [Int.compare_eq_gt.mpr hgt, Int.compare_eq_gt.mpr hn]
    rfl

theorem compare_eq_ite (a b : Int) :
    compare a b = if a < b then .lt else if a = b then .eq else .gt := rfl

theorem compare_neg_neg (a b : Int) : compare (-a) (-b) = (compare a b).swap := by
  rw [compare_eq_ite, compare_eq_ite]
  split
  · have hba : ¬ a < b := by omega
    have hne : a ≠ b := by omega
    rw [if_neg hba, if_neg hne]
    rfl
  · split
    · have heq : a = b := by omega
      subst heq
      simp
    · have hlt : a < b := by omega
      rw [if_pos hlt]
      rfl

/-- Two numbers compare as their signed magnitudes do. -/
theorem Reads.compare_eq {s t : Sign} {m n : Nat} {u v : UnpackedFloat}
    (hu : Reads s m u) (hv : Reads t n v) (hm : m ≤ infinityMagnitude)
    (hn : n ≤ infinityMagnitude) :
    u.compare v = some (compare (s.apply m) (t.apply n)) := by
  cases hu <;> cases hv
  case finite.finite m₁ e₁ _ h₁ least₁ _ short₁ lead₁ m₂ e₂ _ h₂ least₂ _ short₂ lead₂ =>
    -- Equal signs leave the magnitudes to decide, in which exponents come first.
    have hlex := compare_then_compare h₁ h₂ least₁ least₂ short₁ short₂ lead₁ lead₂
    simp only [fractionCount] at h₁ h₂
    cases s with
    | negative =>
      cases t with
      | negative =>
        dsimp only [UnpackedFloat.compare]
        simp only [Sign.apply, hlex, compare_neg_neg]
      | positive =>
        have hlt : -(m : Int) < n := by omega
        dsimp only [UnpackedFloat.compare]
        simp only [Sign.apply, Int.compare_eq_lt.mpr hlt]
    | positive =>
      cases t with
      | negative =>
        have hgt : -(n : Int) < m := by omega
        dsimp only [UnpackedFloat.compare]
        simp only [Sign.apply, Int.compare_eq_gt.mpr hgt]
      | positive =>
        dsimp only [UnpackedFloat.compare]
        simp only [Sign.apply, hlex]
  case infinite.infinite h h' =>
    subst h
    subst h'
    cases s <;> cases t <;> rfl
  -- All other pairs are told apart by their constructors and signs.
  all_goals
    cases s <;> cases t <;> dsimp only [UnpackedFloat.compare] <;>
      simp only [fractionCount, infinityMagnitude, Sign.apply, compare_eq_ite] at * <;> grind

/-! ## §4. Exceptions -/

/-- A double is not not-a-number if its magnitude is at most that of infinity. -/
theorem isNaN_eq_false_iff {x : Float} : x.isNaN = false ↔ magnitude x ≤ infinityMagnitude := by
  have hx := reads_unpack x
  show x.toModel.unpack.isNaN = false ↔ _
  generalize x.toModel.unpack = u at hx
  cases hx with
  | nan h =>
    show true = false ↔ _
    simp only [Bool.true_eq_false, false_iff]
    omega
  | infinite h =>
    show false = false ↔ _
    simp only [true_iff]
    omega
  | zero h =>
    show false = false ↔ _
    simp only [true_iff]
    omega
  | finite m e pos h least most short leading =>
    show false = false ↔ _
    simp only [fractionCount] at h short
    simp only [true_iff, infinityMagnitude]
    omega

/-- A double is finite if its magnitude is below that of infinity. -/
theorem isFinite_iff {x : Float} : x.isFinite = true ↔ magnitude x < infinityMagnitude := by
  have hx := reads_unpack x
  show x.toModel.unpack.isFinite = true ↔ _
  generalize x.toModel.unpack = u at hx
  cases hx with
  | nan h =>
    show false = true ↔ _
    simp only [Bool.false_eq_true, false_iff]
    omega
  | infinite h =>
    show false = true ↔ _
    simp only [Bool.false_eq_true, false_iff]
    omega
  | zero h =>
    show true = true ↔ _
    simp only [h, infinityMagnitude]
    decide
  | finite m e pos h least most short leading =>
    show true = true ↔ _
    simp only [fractionCount] at h short
    simp only [true_iff, infinityMagnitude]
    omega

theorem isNaN_eq_false_of_isFinite {x : Float} (h : x.isFinite = true) : x.isNaN = false := by
  have hlt := isFinite_iff.mp h
  exact isNaN_eq_false_iff.mpr (by omega)

/-! ## §5. Comparisons of doubles -/

section comparisons

variable {x y : Float}

/-- Doubles that are numbers compare as their keys do. -/
theorem compare_unpack (hx : x.isNaN = false) (hy : y.isNaN = false) :
    x.toModel.unpack.compare y.toModel.unpack = some (compare (orderKey x) (orderKey y)) :=
  (reads_unpack x).compare_eq (reads_unpack y) (isNaN_eq_false_iff.mp hx)
    (isNaN_eq_false_iff.mp hy)

theorem lt_iff_orderKey (hx : x.isNaN = false) (hy : y.isNaN = false) :
    x < y ↔ orderKey x < orderKey y := by
  have hcompare := compare_unpack hx hy
  show decide ((x.toModel.unpack.compare y.toModel.unpack == some .lt) = true) = true ↔ _
  rw [hcompare, ← Int.compare_eq_lt]
  simp

theorem le_iff_orderKey (hx : x.isNaN = false) (hy : y.isNaN = false) :
    x ≤ y ↔ orderKey x ≤ orderKey y := by
  have hcompare := compare_unpack hx hy
  show decide ((x.toModel.unpack.compare y.toModel.unpack).any (·.isLE) = true) = true ↔ _
  rw [hcompare, ← Int.isLE_compare]
  simp

theorem beq_iff_orderKey (hx : x.isNaN = false) (hy : y.isNaN = false) :
    (x == y) = true ↔ orderKey x = orderKey y := by
  have hcompare := compare_unpack hx hy
  show (x.toModel.unpack.compare y.toModel.unpack == some .eq) = true ↔ _
  rw [hcompare, ← Int.compare_eq_eq]
  simp

/-- Only numbers compare. -/
theorem isNaN_eq_false_of_compare {u v : UnpackedFloat} {result : Ordering}
    (h : u.compare v = some result) : u.isNaN = false ∧ v.isNaN = false := by
  constructor
  · cases u with
    | notANumber => cases h
    | infinity s => rfl
    | zero s => rfl
    | finite s m e pos => rfl
  · cases v with
    | notANumber => cases u <;> cases h
    | infinity s => rfl
    | zero s => rfl
    | finite s m e pos => rfl

/-- Only numbers are below or above another. -/
theorem isNaN_eq_false_of_lt (h : x < y) : x.isNaN = false ∧ y.isNaN = false := by
  have hcompare : decide ((x.toModel.unpack.compare y.toModel.unpack == some .lt) = true)
      = true := h
  exact isNaN_eq_false_of_compare (eq_of_beq (of_decide_eq_true hcompare))

theorem isNaN_eq_false_of_le (h : x ≤ y) : x.isNaN = false ∧ y.isNaN = false := by
  have hcompare : decide ((x.toModel.unpack.compare y.toModel.unpack).any (·.isLE) = true)
      = true := h
  obtain ⟨result, hresult, -⟩ := (Option.any_eq_true _ _).mp (of_decide_eq_true hcompare)
  exact isNaN_eq_false_of_compare hresult

/-- Of two numbers, one that is not at most the other is above it. -/
theorem lt_of_not_le (hx : x.isNaN = false) (hy : y.isNaN = false) (h : ¬ x ≤ y) : y < x := by
  rw [le_iff_orderKey hx hy] at h
  rw [lt_iff_orderKey hy hx]
  omega

theorem not_lt_of_le (h : x ≤ y) : ¬ y < x := by
  intro hlt
  obtain ⟨hy, hx⟩ := isNaN_eq_false_of_lt hlt
  rw [le_iff_orderKey hx hy] at h
  rw [lt_iff_orderKey hy hx] at hlt
  omega

/-- What is below a number is below every number that is not smaller. -/
theorem lt_trans_le {z : Float} (hlt : x < y) (hle : y ≤ z) : x < z := by
  obtain ⟨hx, hy⟩ := isNaN_eq_false_of_lt hlt
  have hz := (isNaN_eq_false_of_le hle).2
  rw [lt_iff_orderKey hx hy] at hlt
  rw [le_iff_orderKey hy hz] at hle
  rw [lt_iff_orderKey hx hz]
  omega

end comparisons

/-! ## §6. Absolute values -/

/-- The bits of a packed number are its sign and its magnitude. -/
theorem Reads.toNat_pack {s : Sign} {m : Nat} {u : UnpackedFloat} (hu : Reads s m u)
    (hm : m ≤ infinityMagnitude) :
    (UnpackedFloat.pack .binary64 u).toNat = signBit s * signedLimit + m := by
  cases hu with
  | nan h => omega
  | infinite h =>
    subst h
    cases s <;> rfl
  | zero h =>
    subst h
    cases s <;> rfl
  | finite m e pos h least most short leading =>
    simp only [fractionCount] at h short leading
    have hbias : ((Format.binary64.exponentBias : Nat) : Int) = 1023 := rfl
    have hbits : ((Format.binary64.mantissaBitsWithoutImplicit : Nat) : Int) = 52 := rfl
    have hexponent : (e + (Format.binary64.exponentBias : Nat)
        + (Format.binary64.mantissaBitsWithoutImplicit : Nat)).toNat = (e + 1075).toNat := by
      rw [hbias, hbits]
      omega
    have hfits : ¬ 2 ^ Format.binary64.exponentBits ≤ (e + 1075).toNat + 1 := by
      show ¬ 2048 ≤ (e + 1075).toNat + 1
      omega
    dsimp only [UnpackedFloat.pack]
    simp only [hexponent]
    rw [if_neg hfits]
    -- Packing counts the bits of the mantissa to see whether the leading one is set.
    by_cases hlead : 4503599627370496 ≤ m
    · have hlow : 52 ≤ m.log2 := (Nat.le_log2 (by omega)).mpr hlead
      have hhigh : m.log2 < 53 := (Nat.log2_lt (by omega)).mpr (by omega)
      have hlength : m.log2 + 1 = Format.binary64.mantissaBits := by
        show m.log2 + 1 = 53
        omega
      rw [if_pos hlength, toNat_packComponents, BitVec.toNat_ofNat, BitVec.toNat_ofNat]
      simp only [fractionCount]
      omega
    · have hhigh : m.log2 < 52 := (Nat.log2_lt (by omega)).mpr (by omega)
      have hlength : ¬ m.log2 + 1 = Format.binary64.mantissaBits := by
        show ¬ m.log2 + 1 = 53
        omega
      rw [if_neg hlength, toNat_packComponents, BitVec.toNat_ofNat, BitVec.toNat_ofNat]
      simp only [fractionCount]
      omega

/-- An absolute value reads as the same magnitude without the sign. -/
theorem Reads.abs {s : Sign} {m : Nat} {u : UnpackedFloat} (hu : Reads s m u) :
    Reads .positive m u.abs := by
  cases hu with
  | nan h => exact .nan h
  | infinite h => exact .infinite h
  | zero h => exact .zero h
  | finite m e pos h least most short leading =>
    exact .finite m e pos h least most short leading

theorem toNat_bitsOf_abs {x : Float} (hx : x.isNaN = false) :
    (bitsOf x.abs).toNat = magnitude x := by
  have hpack := (reads_unpack x).abs.toNat_pack (isNaN_eq_false_iff.mp hx)
  rw [signBit, Nat.zero_mul, Nat.zero_add] at hpack
  exact hpack

theorem magnitude_abs {x : Float} (hx : x.isNaN = false) : magnitude x.abs = magnitude x := by
  have hbits := toNat_bitsOf_abs hx
  have hlt : magnitude x < signedLimit := Nat.mod_lt _ (by decide)
  show (bitsOf x.abs).toNat % signedLimit = magnitude x
  rw [hbits]
  exact Nat.mod_eq_of_lt hlt

theorem signOf_abs {x : Float} (hx : x.isNaN = false) : signOf x.abs = .positive := by
  have hbits := toNat_bitsOf_abs hx
  have hlt : magnitude x < signedLimit := Nat.mod_lt _ (by decide)
  have hsign : unpackSign (bitsOf x.abs) = 0#1 := by
    apply BitVec.eq_of_toNat_eq
    rw [toNat_unpackSign, hbits]
    exact Nat.div_eq_of_lt hlt
  unfold signOf
  rw [hsign]
  rfl

theorem orderKey_abs {x : Float} (hx : x.isNaN = false) : orderKey x.abs = magnitude x := by
  unfold orderKey
  rw [signOf_abs hx, magnitude_abs hx]
  rfl

theorem isNaN_abs {x : Float} (hx : x.isNaN = false) : x.abs.isNaN = false := by
  rw [isNaN_eq_false_iff] at hx ⊢
  rw [magnitude_abs (isNaN_eq_false_iff.mpr hx)]
  exact hx

@[simp] theorem orderKey_zero : orderKey 0 = 0 := by decide

/-! ## §7. Positive numbers -/

theorem Sign.eq_negative {s : Sign} (h : ¬ s = .positive) : s = .negative := by
  cases s with
  | negative => rfl
  | positive => exact absurd rfl h

/-- What is not below zero has the key of its magnitude. -/
theorem orderKey_of_nonneg {x : Float} (h : 0 ≤ x) : orderKey x = magnitude x := by
  rw [le_iff_orderKey (by decide) (isNaN_eq_false_of_le h).2, orderKey_zero] at h
  unfold orderKey at h ⊢
  cases hsign : signOf x with
  | negative =>
    rw [hsign] at h
    simp only [Sign.apply] at h ⊢
    omega
  | positive => rfl

/-- A number is above zero if it is not below, unless its magnitude is zero. -/
theorem pos_iff_of_nonneg {x : Float} (h : 0 ≤ x) : 0 < x ↔ magnitude x ≠ 0 := by
  rw [lt_iff_orderKey (by decide) (isNaN_eq_false_of_le h).2, orderKey_zero, orderKey_of_nonneg h]
  omega

theorem zero_le_of_pos {x : Float} (h : 0 < x) : 0 ≤ x := by
  have hx := (isNaN_eq_false_of_lt h).2
  rw [lt_iff_orderKey (by decide) hx] at h
  rw [le_iff_orderKey (by decide) hx]
  omega

/-- The key of a positive number is its magnitude. -/
theorem orderKey_of_pos {x : Float} (h : 0 < x) : orderKey x = magnitude x :=
  orderKey_of_nonneg (zero_le_of_pos h)

/-- A positive number is its own absolute value, as far as comparisons go. -/
theorem orderKey_abs_of_pos {x : Float} (h : 0 < x) : orderKey x.abs = orderKey x := by
  rw [orderKey_abs (isNaN_eq_false_of_lt h).2, orderKey_of_pos h]

theorem signOf_of_pos {x : Float} (h : 0 < x) : signOf x = .positive := by
  rw [lt_iff_orderKey (by decide) (isNaN_eq_false_of_lt h).2, orderKey_zero] at h
  unfold orderKey at h
  cases hsign : signOf x with
  | negative =>
    rw [hsign] at h
    simp only [Sign.apply] at h
    omega
  | positive => rfl

theorem orderKey_le_magnitude (x : Float) : orderKey x ≤ magnitude x := by
  unfold orderKey
  cases signOf x <;> simp only [Sign.apply] <;> omega

/-- What is not below zero and below another number is finite, even if that is an infinity. -/
theorem isFinite_of_nonneg_of_lt {x y : Float} (h : 0 ≤ x) (hlt : x < y) :
    x.isFinite = true := by
  obtain ⟨hx, hy⟩ := isNaN_eq_false_of_lt hlt
  have hle := orderKey_le_magnitude y
  rw [isNaN_eq_false_iff] at hy
  rw [lt_iff_orderKey hx (isNaN_eq_false_iff.mpr hy), orderKey_of_nonneg h] at hlt
  rw [isFinite_iff]
  omega

theorem magnitude_le_of_le {x y : Float} (h : 0 ≤ x) (hle : x ≤ y) :
    magnitude x ≤ magnitude y := by
  obtain ⟨hx, hy⟩ := isNaN_eq_false_of_le hle
  have hmost := orderKey_le_magnitude y
  rw [le_iff_orderKey hx hy, orderKey_of_nonneg h] at hle
  omega

theorem isFinite_of_nonneg_of_le {x y : Float} (h : 0 ≤ x) (hle : x ≤ y)
    (hy : y.isFinite = true) : x.isFinite = true := by
  rw [isFinite_iff] at hy ⊢
  exact Nat.lt_of_le_of_lt (magnitude_le_of_le h hle) hy

/-- Doubles with the same bits are the same. -/
theorem toBits_injective {x y : Float} (h : x.toBits = y.toBits) : x = y := by
  cases x with
  | ofModel a =>
    cases y with
    | ofModel b =>
      cases a
      cases b
      cases h
      rfl

/-- The bits of a double without a sign bit are its magnitude. -/
theorem toNat_toBits_of_sign {x : Float} (hsign : signOf x = .positive) :
    x.toBits.toNat = magnitude x := by
  have hbit := toNat_unpackSign (bitsOf x)
  have hbits : (bitsOf x).toNat = x.toBits.toNat := rfl
  have hclear : unpackSign (bitsOf x) = 0#1 := by
    unfold signOf Sign.ofBitVec at hsign
    split at hsign
    · assumption
    · cases hsign
  rw [hclear, hbits] at hbit
  unfold magnitude
  simp only [signedLimit, BitVec.toNat_ofNat] at hbit ⊢
  omega

/-- A number without a sign bit is positive, or the one zero that has none. -/
theorem pos_or_eq_zero {x : Float} (hx : x.isNaN = false) (hsign : signOf x = .positive) :
    0 < x ∨ x = 0 := by
  by_cases hzero : magnitude x = 0
  · right
    apply toBits_injective
    apply UInt64.toNat_inj.mp
    rw [toNat_toBits_of_sign hsign, hzero]
    rfl
  · left
    rw [lt_iff_orderKey (by decide) hx, orderKey_zero]
    unfold orderKey
    rw [hsign]
    simp only [Sign.apply]
    omega

/-! ## §8. The total order

The order in which doubles are sorted compares all bit patterns. Unlike numeric comparison it
tells the two zeros apart and has a place for not-a-number. -/

theorem toNat_totalKeyOfBits (bits : UInt64) :
    (totalKeyOfBits bits).toNat =
      if bits.toNat < signedLimit then bits.toNat + signedLimit
      else countLimit - 1 - bits.toNat := by
  have hlt : bits.toNat < 18446744073709551616 := bits.toNat_lt
  have hsign : bits < 0x8000000000000000 ↔ bits.toNat < signedLimit := UInt64.lt_iff_toNat_lt
  unfold totalKeyOfBits
  by_cases h : bits < 0x8000000000000000
  · have hsmall : bits.toNat < 9223372036854775808 := hsign.mp h
    rw [if_pos h, if_pos (hsign.mp h), UInt64.toNat_add]
    show (bits.toNat + 9223372036854775808) % 18446744073709551616
      = bits.toNat + 9223372036854775808
    omega
  · rw [if_neg h, if_neg (mt hsign.mpr h), UInt64.toNat_not]
    rfl

/-- No two bit patterns share a place in the total order. -/
theorem totalKeyOfBits_injective {a b : UInt64} (h : totalKeyOfBits a = totalKeyOfBits b) :
    a = b := by
  have hkeys : (totalKeyOfBits a).toNat = (totalKeyOfBits b).toNat := congrArg UInt64.toNat h
  have ha : a.toNat < 18446744073709551616 := a.toNat_lt
  have hb : b.toNat < 18446744073709551616 := b.toNat_lt
  rw [toNat_totalKeyOfBits, toNat_totalKeyOfBits] at hkeys
  simp only [signedLimit, countLimit] at hkeys
  apply UInt64.toNat_inj.mp
  grind

/-- Doubles in the same place of the total order are the same. -/
theorem totalKey_injective {x y : Float} (h : totalKey x = totalKey y) : x = y :=
  toBits_injective (totalKeyOfBits_injective h)

theorem totalLe_iff {x y : Float} : Scalar.totalLe x y = true ↔ totalKey x ≤ totalKey y :=
  decide_eq_true_iff

theorem totalLe_total (x y : Float) :
    Scalar.totalLe x y = true ∨ Scalar.totalLe y x = true := by
  rw [totalLe_iff, totalLe_iff]
  exact UInt64.le_total _ _

theorem totalLe_trans (x y z : Float) (hxy : Scalar.totalLe x y = true)
    (hyz : Scalar.totalLe y z = true) : Scalar.totalLe x z = true := by
  rw [totalLe_iff] at hxy hyz ⊢
  exact UInt64.le_trans hxy hyz

theorem eq_of_totalLe {x y : Float} (hxy : Scalar.totalLe x y = true)
    (hyx : Scalar.totalLe y x = true) : x = y := by
  rw [totalLe_iff] at hxy hyx
  exact totalKey_injective (UInt64.le_antisymm hxy hyx)

/-- Positive doubles are sorted as they compare. -/
theorem totalLe_iff_le_of_pos {x y : Float} (hx : 0 < x) (hy : 0 < y) :
    Scalar.totalLe x y = true ↔ x ≤ y := by
  have hsmall : ∀ z : Float, magnitude z < signedLimit := fun z => Nat.mod_lt _ (by decide)
  rw [totalLe_iff, le_iff_orderKey (isNaN_eq_false_of_lt hx).2 (isNaN_eq_false_of_lt hy).2,
    orderKey_of_pos hx, orderKey_of_pos hy, UInt64.le_iff_toNat_le]
  unfold totalKey
  rw [toNat_totalKeyOfBits, toNat_totalKeyOfBits, toNat_toBits_of_sign (signOf_of_pos hx),
    toNat_toBits_of_sign (signOf_of_pos hy), if_pos (hsmall x), if_pos (hsmall y)]
  omega

end ProbeGap
