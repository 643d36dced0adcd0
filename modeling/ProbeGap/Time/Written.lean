import ProbeGap.Numeric.Count
import ProbeGap.Time.Instant

/-!
# Written instants

An instant is written as its date and its time of day in UTC. Nanoseconds beyond the first
thousand million are written as one second more, which after the last second of a minute is
the sixtieth, the leap second. Of the rest as many digits are written as are needed, in steps
of three, and none at all for a whole second. Years outside the four digit range carry a sign.

There are three layouts of the same parts: the one of data files,
`2025-05-01T10:00:00.250Z`, the one of messages, `2025-05-01 10:00:00.250 UTC`, and the
one of the time of a run, `2025-05-01T10:00:00.250+00:00`.
-/

namespace ProbeGap

/-! ## §1. Date and time of day -/

/-- The parts in which an instant is written. -/
structure Clock where
  date : Date
  hour : Nat
  minute : Nat
  /-- From 0 to 59, or 60 in a leap second at the end of the minute. -/
  second : Nat
  nanos : Nat
  deriving DecidableEq, Repr

/-- The date and time of day of an instant. -/
def Instant.clock (t : Instant) : Clock :=
  let ofDay := (t.seconds % secondsPerDay).toNat
  { date := Date.ofDays (t.seconds / secondsPerDay)
    hour := ofDay / 3600
    minute := ofDay / 60 % 60
    second := if t.isLeap then ofDay % 60 + 1 else ofDay % 60
    nanos := if t.isLeap then t.nanos - nanosPerSecond else t.nanos }

/-! ## §2. The written parts -/

/-- Four digits for the years from 0 to 9999; a sign and at least four digits for others. -/
def writtenYear (year : Int) : List Char :=
  if 0 ≤ year ∧ year ≤ 9999 then paddedDigits 4 year.toNat
  else (if year < 0 then '-' else '+') :: paddedDigits 4 year.natAbs

/-- A point and three, six or nine digits; nothing for a whole second. -/
def writtenFraction (nanos : Nat) : List Char :=
  if nanos = 0 then []
  else if nanos % 1000000 = 0 then '.' :: paddedDigits 3 (nanos / 1000000)
  else if nanos % 1000 = 0 then '.' :: paddedDigits 6 (nanos / 1000)
  else '.' :: paddedDigits 9 nanos

/-- Year, month and day. -/
def writtenDate (d : Date) : List Char :=
  writtenYear d.year ++ '-' :: paddedDigits 2 d.month ++ '-' :: paddedDigits 2 d.day

/-- Hour, minute, second and fraction. -/
def writtenTime (c : Clock) : List Char :=
  paddedDigits 2 c.hour ++ ':' :: paddedDigits 2 c.minute ++ ':' :: paddedDigits 2 c.second
    ++ writtenFraction c.nanos

/-! ## §3. The layouts -/

/-- The characters of an instant in a data file. -/
def Instant.written (t : Instant) : List Char :=
  writtenDate t.clock.date ++ 'T' :: writtenTime t.clock ++ ['Z']

/-- The text of an instant in a data file. -/
def Instant.text (t : Instant) : String :=
  String.ofList t.written

/-- The text of the time of a run. -/
def Instant.runText (t : Instant) : String :=
  String.ofList (writtenDate t.clock.date ++ 'T' :: writtenTime t.clock) ++ "+00:00"

/-- The text of an instant in a message. -/
def Instant.messageText (t : Instant) : String :=
  String.ofList (writtenDate t.clock.date ++ ' ' :: writtenTime t.clock) ++ " UTC"

end ProbeGap
