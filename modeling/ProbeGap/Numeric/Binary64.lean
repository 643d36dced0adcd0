import ProbeGap.Numeric.Count

/-!
# Doubles as exact dyadic numbers

A finite double is an integer over a power of two. Everything in this library that
depends on the exact value of a double, and not on an arithmetic operation on it,
goes through the decoding below: the decimal texts, the rounding to whole counts and
the order in which values are sorted.

## Contents

  * `Dyadic`: a non-negative number `mantissa * 2 ^ exponent`, with the one bit that
    says whether the gap to the next smaller double is half the usual gap.
  * `Binary64.ofFloat`: a double is not a number, an infinity, or a signed `Dyadic`.
  * `totalKey`: the place of a double in the total order of the format, in which the
    two zeros differ and not-a-number is the greatest element.
  * `ceilCount`, `floorCount`: a double rounded to a natural number, kept in range.
-/

namespace ProbeGap

/-! ## §1. Decoding -/

/-- The number `mantissa * 2 ^ exponent`. -/
structure Dyadic where
  mantissa : Nat
  exponent : Int
  /-- Set when the next smaller double is only half as far away as the next larger one. -/
  narrowBelow : Bool := false
  deriving DecidableEq, Repr

/-- What the bits of a double stand for. -/
inductive Binary64 where
  | nan
  | infinite (negative : Bool)
  | finite (negative : Bool) (magnitude : Dyadic)
  deriving DecidableEq, Repr

/-- The number of values of the fraction bits, `2 ^ 52`. -/
def fractionCount : Nat := 4503599627370496

/-- Decode the sign, the eleven exponent bits and the fifty-two fraction bits. -/
def Binary64.ofBits (bits : UInt64) : Binary64 :=
  let b := bits.toNat
  let negative := decide (signedLimit ≤ b)
  let exponent : Nat := b / fractionCount % 2048
  let fraction := b % fractionCount
  if exponent = 2047 then
    if fraction = 0 then .infinite negative else .nan
  else if exponent = 0 then
    .finite negative ⟨fraction, -1074, false⟩
  else
    .finite negative ⟨fractionCount + fraction, Int.ofNat exponent - 1075,
      fraction == 0 && 1 < exponent⟩

/-- Decode a double. -/
def Binary64.ofFloat (x : Float) : Binary64 :=
  Binary64.ofBits x.toBits

/-! ## §2. The total order -/

/-- The place of a bit pattern in the total order: the complements of the patterns with a
sign fill the lower half of the range from above, the others fill the upper half. -/
def totalKeyOfBits (bits : UInt64) : UInt64 :=
  if bits < 0x8000000000000000 then bits + 0x8000000000000000 else ~~~bits

/-- The place of a double in the total order. -/
def totalKey (x : Float) : UInt64 :=
  totalKeyOfBits x.toBits

/-! ## §3. Rounding up to a count -/

/-- The least natural number that is not below the dyadic number. -/
def Dyadic.ceil (d : Dyadic) : Nat :=
  if 0 ≤ d.exponent then d.mantissa * Nat.pow 2 d.exponent.toNat
  else (d.mantissa + (Nat.pow 2 (-d.exponent).toNat - 1)) / Nat.pow 2 (-d.exponent).toNat

/-- The greatest natural number that is not above the dyadic number. -/
def Dyadic.floor (d : Dyadic) : Nat :=
  if 0 ≤ d.exponent then d.mantissa * Nat.pow 2 d.exponent.toNat
  else d.mantissa / Nat.pow 2 (-d.exponent).toNat

/-- A double rounded up to a count. Values below zero and not-a-number count nothing,
values beyond the range count `maxCount`. -/
def ceilCount (x : Float) : Nat :=
  match Binary64.ofFloat x with
  | .nan => 0
  | .infinite negative => if negative then 0 else maxCount
  | .finite negative d => if negative then 0 else min d.ceil maxCount

/-- A double rounded down to a count, with the same limits. -/
def floorCount (x : Float) : Nat :=
  match Binary64.ofFloat x with
  | .nan => 0
  | .infinite negative => if negative then 0 else maxCount
  | .finite negative d => if negative then 0 else min d.floor maxCount

end ProbeGap
