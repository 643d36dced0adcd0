import ProbeGap.Proofs.Numeric.Magnitudes

/-!
# Doubles as bit patterns

Of the patterns of sixty-four bits very many are not a number. Whichever of them an operation gives,
the doubles of this library have one value for all, so a list of doubles says less than the patterns
of its members, and the total order is about patterns: it puts those that are not a number in front
of everything else or behind, as their sign bit tells.

`Pattern` is the type of scalars in which nothing is lost. Its order and its signs are those of
bits; its arithmetic is that of doubles. An absolute value does not depend on the sign bit
(`Pattern.abs_neg`), and doubles are found again among the patterns (`Pattern.toFloat_ofFloat`),
with the same sums, quotients and absolute values.
-/

namespace ProbeGap

open Float.Model Float.Model.UnpackedFloat

/-! ## §1. Patterns -/

/-- A double as its sixty-four bits. -/
structure Pattern where
  bits : UInt64
  deriving DecidableEq

namespace Pattern

/-- The pattern of a double. -/
def ofFloat (x : Float) : Pattern :=
  ⟨x.toBits⟩

/-- The double that a pattern stands for. -/
def toFloat (p : Pattern) : Float :=
  Float.ofBits p.bits

/-- The other sign bit. -/
instance : Neg Pattern where
  neg p := ⟨p.bits ^^^ 0x8000000000000000⟩

instance : Scalar Pattern where
  add p q := ofFloat (p.toFloat + q.toFloat)
  sub p q := ofFloat (p.toFloat - q.toFloat)
  mul p q := ofFloat (p.toFloat * q.toFloat)
  div p q := ofFloat (p.toFloat / q.toFloat)
  lt p q := p.toFloat < q.toFloat
  le p q := p.toFloat ≤ q.toFloat
  ofNat n := ofFloat (Float.ofNat n)
  abs p := ⟨p.bits &&& 0x7fffffffffffffff⟩
  isFinite p := p.toFloat.isFinite
  totalLe p q := decide (totalKeyOfBits p.bits ≤ totalKeyOfBits q.bits)
  ceilCount p := ProbeGap.ceilCount p.toFloat
  decidableLt p q := inferInstanceAs (Decidable (p.toFloat < q.toFloat))
  decidableLe p q := inferInstanceAs (Decidable (p.toFloat ≤ q.toFloat))

/-! ## §2. Signs and order -/

theorem toNat_abs (p : Pattern) : (Scalar.abs p).bits.toNat = p.bits.toNat % signedLimit := by
  show (p.bits &&& 0x7fffffffffffffff).toNat = _
  rw [UInt64.toNat_and]
  exact Nat.and_two_pow_sub_one_eq_mod p.bits.toNat 63

theorem ext_toNat {p q : Pattern} (h : p.bits.toNat = q.bits.toNat) : p = q := by
  cases p
  cases q
  exact congrArg Pattern.mk (UInt64.toNat_inj.mp h)

/-- An absolute value does not depend on the sign bit, also if there is no number. -/
theorem abs_neg (p : Pattern) : Scalar.abs (-p) = Scalar.abs p := by
  apply ext_toNat
  rw [toNat_abs, toNat_abs]
  show (p.bits ^^^ 0x8000000000000000).toNat % 2 ^ 63 = p.bits.toNat % 2 ^ 63
  rw [UInt64.toNat_xor, Nat.xor_mod_two_pow]
  exact Nat.xor_zero _

theorem totalLe_iff {p q : Pattern} :
    Scalar.totalLe p q = true ↔ totalKeyOfBits p.bits ≤ totalKeyOfBits q.bits :=
  decide_eq_true_iff

/-! ## §3. Doubles among the patterns -/

/-- A double is found again. -/
@[simp] theorem toFloat_ofFloat (x : Float) : (ofFloat x).toFloat = x := by
  cases hx : x.isNaN with
  | true =>
    rw [eq_of_isNaN hx]
    decide
  | false =>
    apply toBits_injective
    apply UInt64.toNat_inj.mp
    exact toNat_pack_unpack hx

theorem add_ofFloat (x y : Float) : ofFloat x + ofFloat y = ofFloat (x + y) := by
  show ofFloat ((ofFloat x).toFloat + (ofFloat y).toFloat) = _
  rw [toFloat_ofFloat, toFloat_ofFloat]

theorem div_ofFloat (x y : Float) : ofFloat x / ofFloat y = ofFloat (x / y) := by
  show ofFloat ((ofFloat x).toFloat / (ofFloat y).toFloat) = _
  rw [toFloat_ofFloat, toFloat_ofFloat]

/-- Clearing the sign bit is what the absolute value of a double does. -/
theorem abs_ofFloat (x : Float) : Scalar.abs (ofFloat x) = ofFloat x.abs := by
  cases hx : x.isNaN with
  | true =>
    rw [eq_of_isNaN hx]
    decide
  | false =>
    apply ext_toNat
    rw [toNat_abs]
    exact (toNat_bitsOf_abs hx).symm

end Pattern
end ProbeGap
