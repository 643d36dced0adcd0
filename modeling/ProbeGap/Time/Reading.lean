import ProbeGap.Numeric.Count
import ProbeGap.Time.Instant

/-!
# Reading instants

An instant is read more freely than it is written. It is a date, one of `T`, `t` or a
space, a time of day and an offset from UTC:

  * numbers may lack leading zeros, and white space may stand before a number, before a
    separator, before the offset and at the end;
  * a year has up to four digits, or any number of them after a sign;
  * a fraction of a second has at least one digit; digits after the ninth are passed over;
  * the offset is `Z`, `z` or `UTC` in any case, or a sign, two digits for the hours and
    two for the minutes, which colons and white space may divide;
  * the sixtieth second is a leap second, in any minute.

A date that the calendar does not have, an hour of 24, an offset of a day or more and an
instant outside the range of `Instant` are refused.
-/

namespace ProbeGap

/-! ## §1. White space, numbers and separators -/

/-- Ranges of code points with the Unicode property White_Space, ascending. There are
twenty-five of them, six in ASCII. -/
def blankRanges : List (Nat × Nat) :=
  [(0x09, 0x0D), (0x20, 0x20), (0x85, 0x85), (0xA0, 0xA0), (0x1680, 0x1680),
   (0x2000, 0x200A), (0x2028, 0x2029), (0x202F, 0x202F), (0x205F, 0x205F),
   (0x3000, 0x3000)]

/-- Whether a character is white space. -/
def isBlank (c : Char) : Bool :=
  blankRanges.any fun r => r.1 ≤ c.toNat && c.toNat ≤ r.2

/-- A text without the white space it starts with. -/
def dropBlanks (s : List Char) : List Char :=
  s.dropWhile isBlank

/-- A number of one to `width` digits, after white space. -/
def readNumber (width : Nat) (s : List Char) : Option (Nat × List Char) :=
  let s := dropBlanks s
  let ds := (s.take width).takeWhile Char.isDigit
  if ds.isEmpty then none else some (valueOfDigits ds, s.drop ds.length)

/-- A number of one or more digits, without white space before it. -/
def readAllDigits (s : List Char) : Option (Nat × List Char) :=
  let (ds, rest) := spanDigits s
  if ds.isEmpty then none else some (valueOfDigits ds, rest)

/-- A year: up to four digits, or a sign and any number of digits. -/
def readYear (s : List Char) : Option (Int × List Char) :=
  match dropBlanks s with
  | '-' :: rest => (readAllDigits rest).map fun (n, rest) => (-(n : Int), rest)
  | '+' :: rest => (readAllDigits rest).map fun (n, rest) => ((n : Int), rest)
  | rest => (readNumber 4 rest).map fun (n, rest) => ((n : Int), rest)

/-- The separator `c`, after white space. -/
def readSeparator (c : Char) (s : List Char) : Option (List Char) :=
  match dropBlanks s with
  | d :: rest => if d = c then some rest else none
  | [] => none

/-! ## §2. Date, time of day and offset -/

/-- A date, which the calendar must have. -/
def readDate (s : List Char) : Option (Date × List Char) := do
  let (year, s) ← readYear s
  let s ← readSeparator '-' s
  let (month, s) ← readNumber 2 s
  let s ← readSeparator '-' s
  let (day, s) ← readNumber 2 s
  let date : Date := ⟨year, month, day⟩
  if date.isValid then some (date, s) else none

/-- Nanoseconds from the digits of a fraction. -/
def nanosOfDigits (ds : List Char) : Nat :=
  let kept := ds.take 9
  valueOfDigits kept * Nat.pow 10 (9 - kept.length)

/-- A fraction of a second, if the text goes on with a point. -/
def readFraction (s : List Char) : Option (Nat × List Char) :=
  match s with
  | '.' :: rest =>
    let (ds, rest) := spanDigits rest
    if ds.isEmpty then none else some (nanosOfDigits ds, rest)
  | _ => some (0, s)

/-- A time of day: seconds since midnight and nanoseconds, which run on in a leap second. -/
def readTime (s : List Char) : Option ((Nat × Nat) × List Char) := do
  let (hour, s) ← readNumber 2 s
  let s ← readSeparator ':' s
  let (minute, s) ← readNumber 2 s
  let s ← readSeparator ':' s
  let (second, s) ← readNumber 2 s
  let (nanos, s) ← readFraction s
  if hour < 24 ∧ minute < 60 ∧ second ≤ 60 then
    -- A leap second continues the nanoseconds of the second before it.
    if second = 60 then
      some ((hour * 3600 + minute * 60 + 59, nanos + nanosPerSecond), s)
    else
      some ((hour * 3600 + minute * 60 + second, nanos), s)
  else none

/-- Two digits. -/
def readTwoDigits : List Char → Option (Nat × List Char)
  | a :: b :: rest =>
    if a.isDigit && b.isDigit then some (valueOfDigits [a, b], rest) else none
  | _ => none

/-- Hours and minutes of an offset, in seconds. -/
def readOffsetLength (s : List Char) : Option (Nat × List Char) := do
  let (hours, s) ← readTwoDigits s
  let (minutes, s) ← readTwoDigits (s.dropWhile fun c => c == ':' || isBlank c)
  if hours < 24 ∧ minutes < 60 then some (hours * 3600 + minutes * 60, s) else none

/-- The offset from UTC in seconds, after white space. -/
def readOffset (s : List Char) : Option (Int × List Char) :=
  match dropBlanks s with
  | 'Z' :: rest => some (0, rest)
  | 'z' :: rest => some (0, rest)
  | '+' :: rest => (readOffsetLength rest).map fun (n, rest) => ((n : Int), rest)
  | '-' :: rest => (readOffsetLength rest).map fun (n, rest) => (-(n : Int), rest)
  | '\u2212' :: rest => (readOffsetLength rest).map fun (n, rest) => (-(n : Int), rest)
  | u :: t :: c :: rest =>
    if u.toUpper = 'U' ∧ t.toUpper = 'T' ∧ c.toUpper = 'C' then some (0, rest) else none
  | _ => none

/-! ## §3. Instants -/

/-- Whether the calendar of instants has a year. -/
def isYearInRange (year : Int) : Bool :=
  -262143 ≤ year && year ≤ 262142

/-- The instant that a text denotes. -/
def Instant.read? (text : List Char) : Option Instant := do
  let (date, s) ← readDate text
  let s ← match s with
    | c :: rest => if c = 'T' ∨ c = 't' ∨ c = ' ' then some rest else none
    | [] => none
  let ((ofDay, nanos), s) ← readTime s
  let (offset, s) ← readOffset s
  if (dropBlanks s).isEmpty ∧ isYearInRange date.year then
    Instant.ofParts? (date.toDays * secondsPerDay + ofDay - offset) nanos
  else none

/-- The instant that a text denotes. -/
def Instant.ofText? (text : String) : Option Instant :=
  Instant.read? text.toList

end ProbeGap
