import ProbeGap.Time.Calendar

/-!
# Instants

An instant is a second, counted from 1970-01-01T00:00:00 UTC, and nanoseconds within it.
A leap second has no number of its own: its nanoseconds continue those of the second before
it, from one thousand million on. So instants are ordered by second and then by nanosecond,
also around a leap second.

A leap second follows the last second of a minute. That is left to those who name instants:
the type has room for two thousand million nanoseconds in every second. Such an instant lies
before the next second in the order, although its text is that of an instant within it.

The years run from -262143 to 262142.

## Contents

  * `Instant`, with its range as part of the type.
  * `Instant.ofParts?`: the instant of a second and nanoseconds, if there is one.
  * `Instant.later?`: a later instant, which leaves a leap second by the clock that
    does not count it.
  * `TimeWindow`: the instants from a start, inclusive, to an end, exclusive.
-/

namespace ProbeGap

/-! ## §1. Instants -/

/-- Nanoseconds in a second. -/
def nanosPerSecond : Nat := 1000000000

/-- Seconds in a day. -/
def secondsPerDay : Int := 86400

/-- The first second of the year -262143. -/
def firstSecond : Int := Date.toDays ⟨-262143, 1, 1⟩ * secondsPerDay

/-- The last second of the year 262142. -/
def lastSecond : Int := Date.toDays ⟨262142, 12, 31⟩ * secondsPerDay + (secondsPerDay - 1)

/-- A point in time. -/
structure Instant where
  /-- Seconds since 1970-01-01T00:00:00 UTC, leap seconds left out. -/
  seconds : Int
  /-- Nanoseconds since the start of the second, which run on in a leap second. -/
  nanos : Nat
  inRange : firstSecond ≤ seconds ∧ seconds ≤ lastSecond
  fits : nanos < 2 * nanosPerSecond
  deriving DecidableEq

namespace Instant

/-- An instant is determined by its second and its nanoseconds. -/
@[ext] theorem ext {s t : Instant} (hs : s.seconds = t.seconds) (hn : s.nanos = t.nanos) :
    s = t := by
  cases s; cases t; cases hs; cases hn; rfl

/-- The instant of a second and nanoseconds within it, if they name one. -/
def ofParts? (seconds : Int) (nanos : Nat) : Option Instant :=
  if inRange : firstSecond ≤ seconds ∧ seconds ≤ lastSecond then
    if fits : nanos < 2 * nanosPerSecond then some ⟨seconds, nanos, inRange, fits⟩
    else none
  else none

@[simp] theorem ofParts?_parts (t : Instant) : ofParts? t.seconds t.nanos = some t := by
  simp [ofParts?, t.inRange, t.fits]

/-- The start of a second. -/
def ofSeconds (seconds : Int) (inRange : firstSecond ≤ seconds ∧ seconds ≤ lastSecond) :
    Instant where
  seconds := seconds
  nanos := 0
  inRange := inRange
  fits := by decide

/-- Earlier than: by second, then by nanosecond. -/
def before (s t : Instant) : Bool :=
  decide (s.seconds < t.seconds) || (s.seconds == t.seconds && decide (s.nanos < t.nanos))

instance : LT Instant := ⟨fun s t => s.before t = true⟩

instance : DecidableLT Instant := fun s t => inferInstanceAs (Decidable (s.before t = true))

theorem lt_iff {s t : Instant} :
    s < t ↔ s.seconds < t.seconds ∨ (s.seconds = t.seconds ∧ s.nanos < t.nanos) := by
  show s.before t = true ↔ _
  simp [before]

/-- Whether the instant lies within a leap second. -/
def isLeap (t : Instant) : Bool :=
  nanosPerSecond ≤ t.nanos

/-! ## §2. Moving forward -/

/-- The instant `seconds` and `nanos` after another, where `nanos` is less than a second.
A step that stays within a leap second keeps it; a longer one counts from the second that
the leap second continues. There is none beyond the last year. -/
def later? (t : Instant) (seconds nanos : Nat) : Option Instant :=
  if t.isLeap && seconds == 0 && decide (t.nanos + nanos < 2 * nanosPerSecond) then
    ofParts? t.seconds (t.nanos + nanos)
  else
    -- From here on the leap second counts as the second that it continues.
    let total := (if t.isLeap then t.nanos - nanosPerSecond else t.nanos) + nanos
    ofParts? (t.seconds + seconds + (total / nanosPerSecond : Nat)) (total % nanosPerSecond)

/-- The instant a number of whole seconds after another. -/
def addSeconds? (t : Instant) (seconds : Nat) : Option Instant :=
  t.later? seconds 0

/-- The instant a number of milliseconds after another. -/
def addMillis? (t : Instant) (millis : Nat) : Option Instant :=
  t.later? (millis / 1000) (millis % 1000 * 1000000)

end Instant

/-! ## §3. Windows -/

/-- The instants from `start`, inclusive, to `stop`, exclusive. -/
structure TimeWindow where
  start : Instant
  stop : Instant
  deriving DecidableEq

/-- Whether an instant lies within the window. -/
def TimeWindow.contains (w : TimeWindow) (t : Instant) : Bool :=
  !decide (t < w.start) && decide (t < w.stop)

end ProbeGap
