import ProbeGap.Numeric.Binary64
import ProbeGap.Sorting

/-!
# Scalars

The estimation core is written once, over any type of scalars, and used at two of them:

  * `Float`, the doubles the program computes with;
  * `Rat`, exact rational numbers, in which the same formulas can be read without rounding.

A `Scalar` offers the four operations, the two comparisons, conversion from natural
numbers, and four notions that are not determined by those: the magnitude, finiteness,
the total order used for sorting, and rounding up to a count. No law is assumed.
Doubles satisfy few; a statement about the exact reading is one about `Rat`.
-/

namespace ProbeGap

/-! ## §1. The class -/

/-- The operations of the estimation core. -/
class Scalar (α : Type) extends Add α, Sub α, Mul α, Div α, LT α, LE α where
  /-- The scalar nearest to a natural number. -/
  ofNat : Nat → α
  /-- The magnitude; it clears the sign of a zero as well. -/
  abs : α → α
  /-- Neither an infinity nor not-a-number. -/
  isFinite : α → Bool
  /-- The order values are sorted in. It is total even where `<` is not. -/
  totalLe : α → α → Bool
  /-- The least count that is not below the scalar. -/
  ceilCount : α → Nat
  decidableLt : DecidableLT α
  decidableLe : DecidableLE α

namespace Scalar

instance {α : Type} [s : Scalar α] : DecidableLT α := s.decidableLt

instance {α : Type} [s : Scalar α] : DecidableLE α := s.decidableLe

instance : Scalar Float where
  ofNat := Float.ofNat
  abs := Float.abs
  isFinite := Float.isFinite
  totalLe x y := decide (totalKey x ≤ totalKey y)
  ceilCount := ProbeGap.ceilCount
  decidableLt := inferInstance
  decidableLe := inferInstance

instance : Scalar Rat where
  ofNat n := (n : Rat)
  abs := Rat.abs
  isFinite _ := true
  totalLe x y := decide (x ≤ y)
  ceilCount x := x.ceil.toNat
  decidableLt := inferInstance
  decidableLe := inferInstance

/-! ## §2. Derived notions -/

variable {α : Type} [Scalar α]

/-- The scalar zero. -/
def zero : α := ofNat 0

/-- The scalar one. -/
def one : α := ofNat 1

/-- One half, exact in both readings. -/
def half : α := ofNat 1 / ofNat 2

/-- The gap between one and the next larger double, `2 ^ -52`. -/
def epsilon : α := ofNat 1 / ofNat 4503599627370496

/-- The square root of `epsilon`, which is the power of two `2 ^ -26`. -/
def rootEpsilon : α := ofNat 1 / ofNat 67108864

/-- The larger of two scalars. One that does not compare with itself is passed over. -/
def larger (a b : α) : α :=
  if a < b then b else if a ≤ a then a else b

/-- Numeric equality: neither scalar exceeds the other, and both compare. -/
def equal (a b : α) : Bool :=
  decide (a ≤ b) && decide (b ≤ a)

/-- The sum of a list, from left to right. -/
def sum (xs : List α) : α :=
  xs.foldl (· + ·) zero

/-- The values in ascending total order. -/
def sort (xs : List α) : List α :=
  sortBy totalLe xs

end Scalar
end ProbeGap
