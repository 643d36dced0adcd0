import ProbeGap.Numeric.Count

/-!
# Doubles from decimal texts

A decimal text is read as the double nearest to the number it denotes. It has digits with
or without a point among them, at least one of them, and may have an exponent. Leading
zeros are allowed, and either side of the point may be empty.
-/

namespace ProbeGap

/-- The power of ten from which on every number with a digit is beyond all doubles, and
below whose negative every number rounds to zero. -/
def powerLimit : Nat := 400

/-- The double nearest to the number that digits with a power of ten denote. -/
def nearestDouble (ds : List Char) (power : Int) : Float :=
  let ds := ds.dropWhile (· == '0')
  let magnitude := ds.length + power
  if ds.isEmpty then 0
  else if (powerLimit : Int) < magnitude then 1 / 0
  else if magnitude < -(powerLimit : Int) then 0
  else Float.ofScientific (valueOfDigits ds) (power < 0) power.natAbs

/-- The sign of a number, and the text behind it. -/
def spanSign : List Char → Bool × List Char
  | '-' :: rest => (true, rest)
  | '+' :: rest => (false, rest)
  | rest => (false, rest)

/-- The digits behind a point, and the text behind them; none if there is no point. -/
def spanFraction : List Char → List Char × List Char
  | '.' :: rest => spanDigits rest
  | rest => ([], rest)

/-- The power of ten of an exponent that makes up a text. -/
def powerOfExponent? : List Char → Option Int
  | [] => some 0
  | c :: rest =>
    if c == 'e' || c == 'E' then
      let (negative, ds) := spanSign rest
      if ds.isEmpty || !ds.all Char.isDigit then none
      else if negative then some (-(valueOfDigits ds : Int))
      else some (valueOfDigits ds)
    else none

/-- The double of a text without a sign. -/
def unsignedDouble? (s : List Char) : Option Float :=
  let (whole, rest) := spanDigits s
  let (fraction, rest) := spanFraction rest
  if whole.isEmpty && fraction.isEmpty then none
  else
    (powerOfExponent? rest).map fun power =>
      nearestDouble (whole ++ fraction) (power - fraction.length)

/-- The double of a text with or without a sign, by a reading of what follows the sign. -/
def signedDouble? (unsigned? : List Char → Option Float) (s : List Char) : Option Float :=
  let (negative, rest) := spanSign s
  (unsigned? rest).map fun x => if negative then -x else x

end ProbeGap
