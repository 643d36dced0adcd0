import Mathlib.Tactic.NormNum
import ProbeGap.Proofs.Numeric.Exact

/-!
# Division that is watched

Lean gives a division by zero a value, so a formula that divides by zero is not told from one
that does not. `Checked` is a type of scalars that tells: it has the rational numbers and one
more value, `undefined`, which is the result of a division by zero and of every operation on
`undefined`.

A test on `undefined` has an answer, too, but not a fixed one: the answer is the parameter
`verdict` of the type. If a computation over `Checked verdict` gives the rational result under
both verdicts, that result owes nothing to a division by zero: `undefined` would be seen in it, or
would turn one of its tests under one of the verdicts.

The operations of the core are those of rational numbers on rational numbers, and only division
asks for something (`Checked.div_number`).
-/

namespace ProbeGap

/-- A rational number, or the result of a division by zero. Tests on the latter answer with the
verdict. -/
inductive Checked (verdict : Bool) where
  | number (x : Rat)
  | undefined

namespace Checked

variable {verdict : Bool}

/-- The operation on numbers, and nothing beside them. -/
def lift (op : Rat → Rat → Rat) : Checked verdict → Checked verdict → Checked verdict
  | number x, number y => number (op x y)
  | _, _ => undefined

/-- The test on numbers, and the verdict beside them. -/
def holds (test : Rat → Rat → Bool) : Checked verdict → Checked verdict → Bool
  | number x, number y => test x y
  | _, _ => verdict

/-- The quotient, if the divisor is not zero. -/
def quotient : Checked verdict → Checked verdict → Checked verdict
  | number x, number y => if y = 0 then undefined else number (x / y)
  | _, _ => undefined

instance : Scalar (Checked verdict) where
  add := lift (· + ·)
  sub := lift (· - ·)
  mul := lift (· * ·)
  div := quotient
  lt x y := holds (fun a b => decide (a < b)) x y = true
  le x y := holds (fun a b => decide (a ≤ b)) x y = true
  ofNat n := number n
  abs
    | number x => number (Scalar.abs x)
    | undefined => undefined
  isFinite
    | number _ => true
    | undefined => verdict
  totalLe := holds Scalar.totalLe
  ceilCount
    | number x => Scalar.ceilCount x
    | undefined => 0
  decidableLt x y := inferInstanceAs (Decidable (holds (fun a b => decide (a < b)) x y = true))
  decidableLe x y := inferInstanceAs (Decidable (holds (fun a b => decide (a ≤ b)) x y = true))

example : (number 1 / number 0 : Checked true) = undefined := rfl

/-! ## §1. Operations on numbers -/

section

variable (x y : Rat)

@[simp] theorem mul_number : (number x * number y : Checked verdict) = number (x * y) := rfl

/-- A quotient of numbers is a number if the divisor is not zero. -/
theorem div_number {y : Rat} (h : y ≠ 0) :
    (number x / number y : Checked verdict) = number (x / y) :=
  if_neg h

@[simp] theorem lt_number : (number x : Checked verdict) < number y ↔ x < y :=
  decide_eq_true_iff

@[simp] theorem le_number : (number x : Checked verdict) ≤ number y ↔ x ≤ y :=
  decide_eq_true_iff

@[simp] theorem zero_eq_number : (Scalar.zero : Checked verdict) = number Scalar.zero := rfl

/-- The gap next to one is a quotient, but not by zero. -/
@[simp] theorem epsilon_eq_number :
    (Scalar.epsilon : Checked verdict) = number Scalar.epsilon := by
  have hdivisor : ((4503599627370496 : Nat) : Rat) ≠ 0 := by norm_num
  exact div_number _ hdivisor

@[simp] theorem larger_number :
    Scalar.larger (number x : Checked verdict) (number y) = number (Scalar.larger x y) := by
  unfold Scalar.larger
  simp only [lt_number, le_number]
  split
  · rfl
  · split <;> rfl

end

/-! ## §2. Sums -/

/-- What is gathered from numbers is a number. -/
theorem foldl_number {β γ : Type} {lifted : β → γ}
    {step : Rat → β → Rat} {stepLifted : Checked verdict → γ → Checked verdict}
    (h : ∀ x b, stepLifted (number x) (lifted b) = number (step x b)) (bs : List β) (start : Rat) :
    (bs.map lifted).foldl stepLifted (number start) = number (bs.foldl step start) := by
  rw [List.foldl_map]
  exact List.foldl_hom number h

theorem sum_number (xs : List Rat) :
    Scalar.sum (xs.map (number : Rat → Checked verdict)) = number (Scalar.sum xs) :=
  foldl_number (fun _ _ => rfl) xs _

end Checked
end ProbeGap
