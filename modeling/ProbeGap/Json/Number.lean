import ProbeGap.Json.Literal
import ProbeGap.Numeric.Count

/-!
# Numbers of JSON texts

A number without point and exponent is a whole number if it lies between `-2 ^ 63` and
`2 ^ 64 - 1`; a zero with a minus sign is not. Every other number is a double.

The reading of doubles is fast rather than exact: the first digits are collected into a
64-bit significand until the next one would not fit, the rest only count as places, and
the significand is then scaled by one power of ten, with one rounding each for the
conversion and for the scaling. So a text need not read as the double nearest to it. A
number beyond the range of doubles is refused; one below it reads as zero.

## Contents

  * `JsonNumber`: a whole number or a double.
  * `Significand`: digits collected as far as they fit, and the power of ten they stand at.
  * `scaled?`: a significand times a power of ten.
  * `NumberLiteral.resolve?`: the number of a spelling.
-/

namespace ProbeGap

/-! ## §1. Numbers -/

/-- A number of a JSON text. -/
inductive JsonNumber where
  | whole (value : Int)
  | float (value : Float)
  deriving DecidableEq

/-- The double nearest to a number. -/
def JsonNumber.toFloat : JsonNumber → Float
  | .whole value => Float.ofInt value
  | .float value => value

/-- A whole number of 64 bits without sign. -/
def JsonNumber.toUInt64? : JsonNumber → Option UInt64
  | .whole value =>
    if 0 ≤ value ∧ value < countLimit then some (UInt64.ofNat value.toNat) else none
  | .float _ => none

/-! ## §2. Collecting digits -/

/-- Digits that fit into 64 bits, and the power of ten they are multiplied by. -/
structure Significand where
  value : Nat
  power : Int
  deriving DecidableEq, Repr

/-- The value of a digit. -/
def digitValue (c : Char) : Nat :=
  c.toNat - '0'.toNat

/-- Whether a digit can be appended. -/
def Significand.hasRoom (s : Significand) (c : Char) : Bool :=
  s.value * 10 + digitValue c < countLimit

/-- Collect digits before the point. From the first one on that does not fit, digits count
as places only. -/
def Significand.collectWhole (s : Significand) : List Char → Significand
  | [] => s
  | c :: rest =>
    if s.hasRoom c then collectWhole { s with value := s.value * 10 + digitValue c } rest
    else { s with power := s.power + (rest.length + 1 : Nat) }

/-- Collect digits behind the point. From the first one on that does not fit, digits are
passed over. -/
def Significand.collectFraction (s : Significand) : List Char → Significand
  | [] => s
  | c :: rest =>
    if s.hasRoom c then
      collectFraction ⟨s.value * 10 + digitValue c, s.power - 1⟩ rest
    else s

/-! ## §3. Scaling -/

/-- The double nearest to a power of ten. -/
def powerOfTen (n : Nat) : Float :=
  Float.ofScientific 1 false n

/-- Divide by a power of ten, in steps of the greatest power that doubles have. -/
def scaledDown (x : Float) (power : Nat) : Float :=
  if power ≤ 308 then x / powerOfTen power
  else if x == 0 then x
  else scaledDown (x / powerOfTen 308) (power - 308)
termination_by power
decreasing_by omega

/-- A double times a power of ten, unless it leaves the range of doubles. -/
def scaled? (x : Float) (power : Int) : Option Float :=
  if power < 0 then some (scaledDown x power.natAbs)
  else if power ≤ 308 then
    let y := x * powerOfTen power.toNat
    if y.isInf then none else some y
  else if x == 0 then some x
  else none

/-! ## §4. The number of a spelling -/

/-- The power of ten that an exponent stands for. -/
def exponentValue : Option (Bool × List Char) → Int
  | none => 0
  | some (negative, ds) => if negative then -(valueOfDigits ds : Int) else valueOfDigits ds

/-- The double of a spelling. -/
def NumberLiteral.float? (n : NumberLiteral) : Option Float :=
  let s := ((⟨0, 0⟩ : Significand).collectWhole n.whole).collectFraction n.fraction
  (scaled? (Float.ofNat s.value) (s.power + exponentValue n.exponent)).map fun x =>
    if n.negative then -x else x

/-- The whole number of a spelling, if it is one in range. -/
def NumberLiteral.whole? (n : NumberLiteral) : Option Int :=
  if n.fraction.isEmpty ∧ n.exponent.isNone then
    let value := valueOfDigits n.whole
    if n.negative then if 0 < value ∧ value ≤ signedLimit then some (-(value : Int)) else none
    else if value < countLimit then some value else none
  else none

/-- The number of a spelling. -/
def NumberLiteral.resolve? (n : NumberLiteral) : Option JsonNumber :=
  match n.whole? with
  | some value => some (.whole value)
  | none => n.float?.map .float

end ProbeGap
