import ProbeGap.Numeric.Shortest
import ProbeGap.Numeric.Count

/-!
# Decimal texts of doubles

There are three forms in which a double is written:

  * in messages, with the fewest digits that identify it, positionally and without an
    exponent, and without a fraction for a whole number (`plainText`);
  * in data files, with the fewest digits that identify it, positionally if the leading
    digit stands at a place from -5 to 15, else with a signed exponent; a whole number
    keeps the fraction `.0` (`dataText?`);
  * in reports, with a fixed number of decimal places, rounded from the exact value with
    ties to the even neighbour (`fixedText`).

A tie between two shortest decimals goes up in messages and to even digits in data files.
-/

namespace ProbeGap

/-! ## §1. Positional layout -/

/-- The digits of a decimal with its point. A whole number has a fraction only on demand. -/
def positional (d : Decimal) (wholeFraction : Bool) : List Char :=
  let ds := digits d.digits
  if 0 ≤ d.exponent then
    ds ++ List.replicate d.exponent.toNat '0' ++ (if wholeFraction then ['.', '0'] else [])
  else
    let places := (-d.exponent).toNat
    let ds := List.replicate (places + 1 - ds.length) '0' ++ ds
    ds.take (ds.length - places) ++ '.' :: ds.drop (ds.length - places)

/-- A sign before a text, if wanted. -/
def signed (negative : Bool) (s : List Char) : List Char :=
  if negative then '-' :: s else s

/-! ## §2. Messages -/

/-- The text of a double in messages. -/
def plainText (x : Float) : String :=
  match Binary64.ofFloat x with
  | .nan => "NaN"
  | .infinite negative => if negative then "-inf" else "inf"
  | .finite negative d =>
    if d.mantissa = 0 then if negative then "-0" else "0"
    else String.ofList (signed negative (positional (d.shortest .up) false))

/-! ## §3. Data files -/

/-- One digit, the others behind a point, and a signed power of ten. -/
def scientific (d : Decimal) : List Char :=
  let ds := digits d.digits
  let power := d.exponent + (ds.length - 1 : Nat)
  ds.take 1 ++ (if ds.length = 1 then [] else '.' :: ds.drop 1) ++
    'e' :: (if power < 0 then '-' else '+') :: digits power.natAbs

/-- Positional for leading digits at places from -5 to 15. -/
def dataLayout (d : Decimal) : List Char :=
  let power := d.exponent + ((digits d.digits).length - 1 : Nat)
  if -5 ≤ power ∧ power < 16 then positional d true else scientific d

/-- The text of a finite double in data files. Others have none. -/
def dataText? (x : Float) : Option String :=
  match Binary64.ofFloat x with
  | .finite negative d =>
    if d.mantissa = 0 then some (if negative then "-0.0" else "0.0")
    else some (String.ofList (signed negative (dataLayout (d.shortest .even))))
  | _ => none

/-! ## §4. Fixed places -/

/-- A quotient rounded to the nearest natural number; a tie goes to the even one. -/
def roundedQuotient (num den : Nat) : Nat :=
  let q := num / den
  match compare (2 * (num % den)) den with
  | .lt => q
  | .gt => q + 1
  | .eq => if q % 2 = 0 then q else q + 1

/-- The text of a double with a fixed, positive number of decimal places. -/
def fixedText (places : Nat) (x : Float) : String :=
  match Binary64.ofFloat x with
  | .nan => "NaN"
  | .infinite negative => if negative then "-inf" else "inf"
  | .finite negative d =>
    let (num, den) := d.inUnits (-(places : Int))
    String.ofList (signed negative (positional ⟨roundedQuotient num den, -(places : Int)⟩ false))

end ProbeGap
