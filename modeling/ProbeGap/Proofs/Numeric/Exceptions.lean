import ProbeGap.Proofs.Numeric.Rounding

/-!
# Arithmetic on infinities and not-a-number

What an operation makes of its operands is known without its rounding in three respects.

A sum, a difference or a product that is finite has finite operands, and a finite quotient has a
finite dividend: an infinity or not-a-number is never lost again (`isFinite_of_add` and its
companions). In the other direction, finite operands never give not-a-number, as an overflow
gives an infinity (`isNaN_mul`, and `isNaN_add`, `isNaN_sub` with one finite operand). And
operands that are not negative have a product that is not negative either (`zero_le_mul`).

One result is known exactly: a finite double less itself is zero (`sub_self_of_isFinite`).
-/

namespace ProbeGap

open Float.Model Float.Model.UnpackedFloat

/-! ## §1. Packing -/

/-- The number that comes back when a result is packed into bits and unpacked again. -/
def repacked (u : UnpackedFloat) : UnpackedFloat :=
  UnpackedFloat.unpack .binary64 (UnpackedFloat.pack .binary64 u)

/-- Packing never makes a number finite. -/
theorem isFinite_of_repacked {u : UnpackedFloat} (h : (repacked u).isFinite = true) :
    u.isFinite = true := by
  cases u with
  | notANumber => exact absurd h (by decide)
  | infinity s => cases s <;> exact absurd h (by decide)
  | zero s => rfl
  | finite s m e pos => rfl

/-- Beyond the greatest exponent a number is packed as an infinity. -/
theorem magnitude_pack_of_beyond {s : Sign} {m : Nat} {e : Int} {pos : 0 < m} (h : ¬ e ≤ 971) :
    (UnpackedFloat.pack .binary64 (.finite s m e pos)).toNat % signedLimit
      = infinityMagnitude := by
  have hbias : ((Format.binary64.exponentBias : Nat) : Int) = 1023 := rfl
  have hplaces : ((Format.binary64.mantissaBitsWithoutImplicit : Nat) : Int) = 52 := rfl
  have hbeyond : 2 ^ Format.binary64.exponentBits ≤ (e + (Format.binary64.exponentBias : Nat)
      + (Format.binary64.mantissaBitsWithoutImplicit : Nat)).toNat + 1 := by
    show 2048 ≤ _
    omega
  dsimp only [UnpackedFloat.pack]
  rw [if_pos hbeyond]
  cases s <;> decide

/-- A number is packed as a finite one or as an infinity. -/
theorem magnitude_pack_le {u : UnpackedFloat} (h : u.isNaN = false) :
    (UnpackedFloat.pack .binary64 u).toNat % signedLimit ≤ infinityMagnitude := by
  cases u with
  | notANumber => cases h
  | infinity s => cases s <;> decide
  | zero s => cases s <;> decide
  | finite s m e pos =>
    by_cases hmost : e ≤ 971
    · exact Nat.le_of_lt (magnitude_pack_lt (u := .finite s m e pos) hmost)
    · exact Nat.le_of_eq (magnitude_pack_of_beyond hmost)

/-- Packing never makes a number not-a-number. -/
theorem isNaN_repacked {u : UnpackedFloat} (h : u.isNaN = false) :
    (repacked u).isNaN = false := by
  have hle := magnitude_pack_le h
  have hread := reads_unpack_bits (UnpackedFloat.pack .binary64 u)
  unfold repacked
  generalize UnpackedFloat.unpack .binary64 (UnpackedFloat.pack .binary64 u) = v at hread
  cases hread with
  | nan hbeyond => omega
  | infinite _ => rfl
  | zero _ => rfl
  | finite m e pos _ _ _ _ _ => rfl

/-! ## §2. Finite results -/

section finite

variable {x y : Float}

theorem isFinite_of_add (h : (x + y).isFinite = true) :
    x.isFinite = true ∧ y.isFinite = true := by
  have hsum : (UnpackedFloat.add .binary64 x.toModel.unpack y.toModel.unpack).isFinite = true :=
    isFinite_of_repacked h
  show x.toModel.unpack.isFinite = true ∧ y.toModel.unpack.isFinite = true
  generalize x.toModel.unpack = u, y.toModel.unpack = v at hsum
  -- Two infinities may have different signs and then give not-a-number, which is not finite either.
  cases u <;> cases v
  case infinity.infinity s t => cases s <;> cases t <;> cases hsum
  all_goals first | exact ⟨rfl, rfl⟩ | cases hsum

theorem isFinite_of_sub (h : (x - y).isFinite = true) :
    x.isFinite = true ∧ y.isFinite = true := by
  have hdifference :
      (UnpackedFloat.sub .binary64 x.toModel.unpack y.toModel.unpack).isFinite = true :=
    isFinite_of_repacked h
  show x.toModel.unpack.isFinite = true ∧ y.toModel.unpack.isFinite = true
  generalize x.toModel.unpack = u, y.toModel.unpack = v at hdifference
  cases u <;> cases v
  case infinity.infinity s t => cases s <;> cases t <;> cases hdifference
  all_goals first | exact ⟨rfl, rfl⟩ | cases hdifference

theorem isFinite_of_mul (h : (x * y).isFinite = true) :
    x.isFinite = true ∧ y.isFinite = true := by
  have hproduct :
      (UnpackedFloat.mul .binary64 x.toModel.unpack y.toModel.unpack).isFinite = true :=
    isFinite_of_repacked h
  show x.toModel.unpack.isFinite = true ∧ y.toModel.unpack.isFinite = true
  generalize x.toModel.unpack = u, y.toModel.unpack = v at hproduct
  cases u <;> cases v
  all_goals first | exact ⟨rfl, rfl⟩ | cases hproduct

/-- The divisor may be infinite, and is lost then. -/
theorem isFinite_of_div (h : (x / y).isFinite = true) : x.isFinite = true := by
  have hquotient :
      (UnpackedFloat.div .binary64 x.toModel.unpack y.toModel.unpack).isFinite = true :=
    isFinite_of_repacked h
  show x.toModel.unpack.isFinite = true
  generalize x.toModel.unpack = u, y.toModel.unpack = v at hquotient
  cases u <;> cases v
  all_goals first | rfl | cases hquotient

end finite

/-! ## §3. Numbers -/

theorem isNaN_roundWithAccuracy (s : Sign) (m : Nat) (e : Int) (accuracy : Accuracy) :
    (roundWithAccuracy .binary64 s m e accuracy).isNaN = false := by
  rcases roundWithAccuracy_cases m e accuracy s with hzero | ⟨m', e', pos, hround, -⟩
  · rw [hzero]
    rfl
  · rw [hround]
    rfl

theorem isNaN_normalize (m e : Int) (s : Sign) :
    (UnpackedFloat.normalize .binary64 m e s).isNaN = false := by
  unfold UnpackedFloat.normalize
  split
  · exact isNaN_roundWithAccuracy _ _ _ _
  · rfl
  · exact isNaN_roundWithAccuracy _ _ _ _

section numbers

variable {x y : Float}

theorem isNaN_add (hx : x.isFinite = true) (hy : y.isNaN = false) : (x + y).isNaN = false := by
  apply isNaN_repacked (u := UnpackedFloat.add .binary64 x.toModel.unpack y.toModel.unpack)
  have hu : x.toModel.unpack.isFinite = true := hx
  have hv : y.toModel.unpack.isNaN = false := hy
  generalize x.toModel.unpack = u, y.toModel.unpack = v at hu hv
  cases u <;> cases v
  case zero.zero s t => cases s <;> cases t <;> rfl
  case finite.finite => exact isNaN_normalize _ _ _
  all_goals first | rfl | exact Bool.noConfusion hu | exact Bool.noConfusion hv

theorem isNaN_sub (hx : x.isFinite = true) (hy : y.isNaN = false) : (x - y).isNaN = false := by
  apply isNaN_repacked (u := UnpackedFloat.sub .binary64 x.toModel.unpack y.toModel.unpack)
  have hu : x.toModel.unpack.isFinite = true := hx
  have hv : y.toModel.unpack.isNaN = false := hy
  generalize x.toModel.unpack = u, y.toModel.unpack = v at hu hv
  cases u <;> cases v
  case zero.zero s t => cases s <;> cases t <;> rfl
  case finite.finite => exact isNaN_normalize _ _ _
  all_goals first | rfl | exact Bool.noConfusion hu | exact Bool.noConfusion hv

theorem isNaN_mul (hx : x.isFinite = true) (hy : y.isFinite = true) :
    (x * y).isNaN = false := by
  apply isNaN_repacked (u := UnpackedFloat.mul .binary64 x.toModel.unpack y.toModel.unpack)
  have hu : x.toModel.unpack.isFinite = true := hx
  have hv : y.toModel.unpack.isFinite = true := hy
  generalize x.toModel.unpack = u, y.toModel.unpack = v at hu hv
  cases u <;> cases v
  case finite.finite => exact isNaN_roundWithAccuracy _ _ _ _
  all_goals first | rfl | exact Bool.noConfusion hu | exact Bool.noConfusion hv

/-- Equal operands cancel, and a zero that comes from cancelling has no sign. -/
theorem sub_self_of_isFinite (hx : x.isFinite = true) : x - x = 0 := by
  have hu : x.toModel.unpack.isFinite = true := hx
  have hcancel :
      UnpackedFloat.sub .binary64 x.toModel.unpack x.toModel.unpack = .zero .positive := by
    generalize x.toModel.unpack = u at hu
    cases u with
    | notANumber => cases hu
    | infinity s => cases hu
    | zero s => cases s <;> rfl
    | finite s m e pos =>
      dsimp only [UnpackedFloat.sub]
      rw [Int.sub_self]
      rfl
  show Float.ofModel (Float.Model.pack
    (UnpackedFloat.sub .binary64 x.toModel.unpack x.toModel.unpack)) = 0
  rw [hcancel]
  rfl

end numbers

/-! ## §4. Signs -/

/-- Whether an unpacked number is on the side of zero that a sign tells. A zero is on both,
whatever its own sign. -/
def OnSide (s : Sign) : UnpackedFloat → Prop
  | .notANumber => False
  | .infinity t => t = s
  | .zero _ => True
  | .finite t _ _ _ => t = s

theorem zero_le_iff {x : Float} : 0 ≤ x ↔ OnSide .positive x.toModel.unpack := by
  show decide (((UnpackedFloat.zero .positive).compare x.toModel.unpack).any (·.isLE) = true)
    = true ↔ _
  generalize x.toModel.unpack = u
  have hpositive : true = true ↔ Sign.positive = .positive := ⟨fun _ => rfl, fun _ => rfl⟩
  have hnegative : false = true ↔ Sign.negative = .positive := ⟨nofun, nofun⟩
  cases u with
  | notANumber => exact ⟨Bool.false_ne_true, False.elim⟩
  | infinity s =>
    cases s with
    | positive => exact hpositive
    | negative => exact hnegative
  | zero s => exact ⟨fun _ => trivial, fun _ => rfl⟩
  | finite s m e pos =>
    cases s with
    | positive => exact hpositive
    | negative => exact hnegative

theorem isNaN_eq_false_of_onSide {s : Sign} {x : Float} (h : OnSide s x.toModel.unpack) :
    x.isNaN = false := by
  show x.toModel.unpack.isNaN = false
  generalize x.toModel.unpack = u at h
  cases u with
  | notANumber => exact h.elim
  | infinity t => rfl
  | zero t => rfl
  | finite t m e pos => rfl

/-- The sign of a number on one side goes before its magnitude, also if it is a zero. -/
theorem orderKey_of_onSide {s : Sign} {x : Float} (h : OnSide s x.toModel.unpack) :
    orderKey x = s.apply (magnitude x) := by
  have hread := reads_unpack x
  unfold orderKey
  generalize x.toModel.unpack = u at h hread
  cases hread with
  | nan _ => exact h.elim
  | infinite _ => rw [show signOf x = s from h]
  | zero hzero =>
    rw [hzero]
    cases s <;> cases signOf x <;> rfl
  | finite m e pos _ _ _ _ _ => rw [show signOf x = s from h]

/-- What is on the side of the negative numbers is below all positive ones. -/
theorem lt_of_onSide_negative {x y : Float} (hx : OnSide .negative x.toModel.unpack)
    (hy : 0 < y) : x < y := by
  have hkey := orderKey_of_onSide hx
  have hyNumber := (isNaN_eq_false_of_lt hy).2
  simp only [Sign.apply] at hkey
  rw [lt_iff_orderKey (by decide) hyNumber, orderKey_zero] at hy
  rw [lt_iff_orderKey (isNaN_eq_false_of_onSide hx) hyNumber]
  omega

/-- The sign of a packed number is its own. -/
theorem sign_pack (s : Sign) (m : Nat) (e : Int) (pos : 0 < m) :
    Sign.ofBitVec (unpackSign (UnpackedFloat.pack .binary64 (.finite s m e pos))) = s := by
  have hcomponents : ∀ (exponent : BitVec 11) (mantissa : BitVec 52),
      Sign.ofBitVec (unpackSign (packComponents .binary64 s exponent mantissa)) = s := by
    intro exponent mantissa
    have hexponent : exponent.toNat < 2048 := exponent.isLt
    have hmantissa : mantissa.toNat < 4503599627370496 := mantissa.isLt
    have hbit : unpackSign (packComponents .binary64 s exponent mantissa) = s.toBitVec := by
      apply BitVec.eq_of_toNat_eq
      rw [toNat_unpackSign, toNat_packComponents]
      cases s <;> simp only [signBit, signedLimit, fractionCount, Sign.toBitVec] <;>
        rw [BitVec.toNat_ofNat] <;> omega
    rw [hbit]
    cases s <;> rfl
  dsimp only [UnpackedFloat.pack]
  split
  · exact hcomponents _ _
  · split
    · exact hcomponents _ _
    · exact hcomponents _ _

theorem onSide_repacked {s : Sign} {u : UnpackedFloat} (h : OnSide s u) :
    OnSide s (repacked u) := by
  cases u with
  | notANumber => exact h.elim
  | infinity t =>
    cases h
    cases s <;> exact rfl
  | zero t => cases t <;> trivial
  | finite t m e pos =>
    cases h
    have hnumber := isNaN_repacked (u := .finite s m e pos) rfl
    have hread := reads_unpack_bits (UnpackedFloat.pack .binary64 (.finite s m e pos))
    rw [sign_pack] at hread
    unfold repacked at hnumber ⊢
    generalize UnpackedFloat.unpack .binary64
      (UnpackedFloat.pack .binary64 (.finite s m e pos)) = v at hread hnumber
    cases hread with
    | nan _ => cases hnumber
    | infinite _ => rfl
    | zero _ => trivial
    | finite m e pos _ _ _ _ _ => rfl

theorem onSide_roundWithAccuracy (s : Sign) (m : Nat) (e : Int) (accuracy : Accuracy) :
    OnSide s (roundWithAccuracy .binary64 s m e accuracy) := by
  rcases roundWithAccuracy_cases m e accuracy s with hzero | ⟨m', e', pos, hround, -⟩
  · rw [hzero]
    trivial
  · rw [hround]
    rfl

/-- A finite double above zero has a mantissa and no sign. -/
theorem exists_unpack_of_pos {x : Float} (h : 0 < x) (hfinite : x.isFinite = true) :
    ∃ m e pos, x.toModel.unpack = .finite .positive m e pos := by
  have hcompare : decide (((UnpackedFloat.zero .positive).compare x.toModel.unpack == some .lt)
    = true) = true := h
  have hu : x.toModel.unpack.isFinite = true := hfinite
  generalize x.toModel.unpack = u at hcompare hu
  cases u with
  | notANumber => cases hu
  | infinity s => cases hu
  | zero s => cases hcompare
  | finite s m e pos =>
    cases s with
    | negative => cases hcompare
    | positive => exact ⟨m, e, pos, rfl⟩

/-- The first factor may be infinite, but must not meet a zero then. -/
theorem zero_le_mul {x y : Float} (hx : 0 ≤ x) (hy : 0 < y) (hfinite : y.isFinite = true) :
    0 ≤ x * y := by
  rw [zero_le_iff] at hx ⊢
  apply onSide_repacked (u := UnpackedFloat.mul .binary64 x.toModel.unpack y.toModel.unpack)
  obtain ⟨m, e, pos, hy⟩ := exists_unpack_of_pos hy hfinite
  rw [hy]
  generalize x.toModel.unpack = u at hx
  -- A zero of either sign stays a zero, so the sign of the product matters for the others only.
  cases u with
  | notANumber => exact hx.elim
  | infinity s =>
    cases hx
    rfl
  | zero s => trivial
  | finite s m' e' pos' =>
    cases hx
    exact onSide_roundWithAccuracy .positive (m' * m) (e' + e) .exact

end ProbeGap
