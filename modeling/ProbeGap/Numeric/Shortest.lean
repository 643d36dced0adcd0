import ProbeGap.Numeric.Binary64

/-!
# Shortest decimals

A double is the nearest one to an interval of real numbers. Any decimal in that interval
reads back to the double, and the shortest decimal is the one with the fewest digits; of
two with equally many, the nearer to the double itself.

All comparisons are made on natural numbers. The interval reaches half-way to the two
neighbours, and its ends belong to it exactly if the mantissa is even.

## Contents

  * `Decimal`: a number `digits * 10 ^ exponent`.
  * `Dyadic.readsBack`: whether a decimal lies in the interval of a double.
  * `Dyadic.leading`: the place of the leading decimal digit.
  * `Dyadic.shortest`: the search over finer and finer decimal grids.
-/

namespace ProbeGap

/-! ## §1. Decimals -/

/-- The number `digits * 10 ^ exponent`. -/
structure Decimal where
  digits : Nat
  exponent : Int
  deriving DecidableEq, Repr

/-- Compare `a * 10 ^ i` with `n * 2 ^ j`. -/
def compareScaled (a : Nat) (i : Int) (n : Nat) (j : Int) : Ordering :=
  compare (a * Nat.pow 10 i.toNat * Nat.pow 2 (-j).toNat)
    (n * Nat.pow 2 j.toNat * Nat.pow 10 (-i).toNat)

/-- What to do when two decimals are equally near. -/
inductive TieRule where
  /-- Take the one with the even last digit. -/
  | even
  /-- Take the greater one. -/
  | up
  deriving DecidableEq, Repr

/-! ## §2. The interval of a double -/

namespace Dyadic

/-- Whether a decimal lies among the numbers that round to the double. -/
def readsBack (x : Dyadic) (d : Decimal) : Bool :=
  let low := if x.narrowBelow then 4 * x.mantissa - 1 else 4 * x.mantissa - 2
  let atLow := compareScaled d.digits d.exponent low (x.exponent - 2)
  let atHigh := compareScaled d.digits d.exponent (4 * x.mantissa + 2) (x.exponent - 2)
  let closed := x.mantissa % 2 == 0
  (atLow == .gt || (closed && atLow == .eq)) && (atHigh == .lt || (closed && atHigh == .eq))

/-- The exponent of the leading decimal digit: the binary logarithm gives a guess that is
at most one off. -/
def leading (x : Dyadic) : Int :=
  let guess := ((Nat.log2 x.mantissa : Int) + x.exponent) * 30103 / 100000
  if compareScaled 1 guess x.mantissa x.exponent == .gt then guess - 1
  else if compareScaled 1 (guess + 1) x.mantissa x.exponent != .gt then guess + 1
  else guess

/-- The double in units of `10 ^ exponent`, as a fraction. -/
def inUnits (x : Dyadic) (exponent : Int) : Nat × Nat :=
  (x.mantissa * Nat.pow 2 x.exponent.toNat * Nat.pow 10 (-exponent).toNat,
    Nat.pow 2 (-x.exponent).toNat * Nat.pow 10 exponent.toNat)

/-! ## §3. The search -/

/-- The better one of the two neighbours of the double on a decimal grid, if one of them
reads back. -/
def onGrid? (tie : TieRule) (x : Dyadic) (exponent : Int) : Option Decimal :=
  let (num, den) := x.inUnits exponent
  let below : Decimal := ⟨num / den, exponent⟩
  let above : Decimal := ⟨num / den + 1, exponent⟩
  match x.readsBack below, x.readsBack above with
  | true, true =>
    match compare (2 * num) ((2 * below.digits + 1) * den) with
    | .lt => some below
    | .gt => some above
    | .eq => if tie = .even ∧ below.digits % 2 = 0 then some below else some above
  | true, false => some below
  | false, true => some above
  | false, false => none

/-- The exact value. -/
def exactDecimal (x : Dyadic) : Decimal :=
  if 0 ≤ x.exponent then ⟨x.mantissa * Nat.pow 2 x.exponent.toNat, 0⟩
  else ⟨x.mantissa * Nat.pow 5 (-x.exponent).toNat, x.exponent⟩

/-- Move factors of ten from the digits into the exponent. -/
def stripZeros : (fuel : Nat) → Decimal → Decimal
  | 0, d => d
  | fuel + 1, d =>
    if d.digits % 10 = 0 then stripZeros fuel ⟨d.digits / 10, d.exponent + 1⟩ else d

/-- The shortest decimal of a positive double. Seventeen digits always suffice. -/
def shortest (tie : TieRule) (x : Dyadic) : Decimal :=
  let lead := x.leading
  let found := (List.range 17).findSome? fun (n : Nat) => x.onGrid? tie (lead - (n : Int))
  stripZeros 17 (found.getD x.exactDecimal)

end Dyadic
end ProbeGap
