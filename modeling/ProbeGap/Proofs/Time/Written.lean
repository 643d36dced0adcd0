import ProbeGap.Proofs.Text.Digits
import ProbeGap.Proofs.Time.Calendar
import ProbeGap.Time.Reading
import ProbeGap.Time.Written

/-!
# Reading written instants

The text of an instant is read as that instant, also within a leap second, with a fraction,
and in the years outside the four digit range. There is one exception. Only the last second of
a minute has a text of its own for the leap second that follows it. Where the nanoseconds of
another second run on, the text is that of an instant in the next second, and that one is read
(`Instant.carried`).

The reader is followed part by part. Each part is read from the front of a text that goes on
with the character which the written text has there, and the rest is left.

Main statement: `Instant.ofText?_text`.
-/

namespace ProbeGap

/-! ## §1. Numbers and separators -/

theorem isBlank_eq_false_of_isDigit {c : Char} (h : c.isDigit = true) : isBlank c = false := by
  have hrange := Char.isDigit_iff_toNat.mp h
  have hzero : '0'.toNat = 48 := rfl
  have hnine : '9'.toNat = 57 := rfl
  simp [isBlank, blankRanges]
  omega

theorem dropBlanks_cons {c : Char} (h : isBlank c = false) (s : List Char) :
    dropBlanks (c :: s) = c :: s := by
  simp [dropBlanks, h]

/-- White space is not looked for in front of digits. -/
theorem dropBlanks_append {ds : List Char} (hds : ∀ c ∈ ds, c.isDigit = true) (hne : ds ≠ [])
    (rest : List Char) : dropBlanks (ds ++ rest) = ds ++ rest := by
  obtain ⟨d, ds, rfl⟩ := List.exists_cons_of_ne_nil hne
  exact dropBlanks_cons (isBlank_eq_false_of_isDigit (hds d List.mem_cons_self)) _

/-- A number that fills its width is read whatever follows. -/
theorem readNumber_paddedDigits {width n : Nat} (hwidth : 0 < width) (h : n < Nat.pow 10 width)
    (rest : List Char) : readNumber width (paddedDigits width n ++ rest) = some (n, rest) := by
  have hlength := length_paddedDigits hwidth h
  have hall : ∀ c ∈ paddedDigits width n, c.isDigit = true := fun _ => isDigit_of_mem_paddedDigits
  have hkept : ((paddedDigits width n ++ rest).take width).takeWhile Char.isDigit
      = paddedDigits width n := by
    have hspan := spanDigits_append hall endsDigits_nil
    rw [List.append_nil] at hspan
    rw [List.take_left' hlength]
    exact congrArg Prod.fst hspan
  have hnotEmpty : (paddedDigits width n).isEmpty = false := by
    simp [paddedDigits_ne_nil]
  unfold readNumber
  rw [dropBlanks_append hall (paddedDigits_ne_nil width n)]
  simp only [hkept, hnotEmpty, valueOfDigits_paddedDigits, List.drop_left]
  rfl

/-- Two digits are read as the number that they were written for. -/
theorem readNumber_two {n : Nat} (h : n < 100) (rest : List Char) :
    readNumber 2 (paddedDigits 2 n ++ rest) = some (n, rest) :=
  readNumber_paddedDigits (by decide) h rest

/-- Any number of digits is read up to the first character that is none. -/
theorem readAllDigits_paddedDigits (width n : Nat) {rest : List Char} (hrest : EndsDigits rest) :
    readAllDigits (paddedDigits width n ++ rest) = some (n, rest) := by
  have hnotEmpty : (paddedDigits width n).isEmpty = false := by
    simp [paddedDigits_ne_nil]
  unfold readAllDigits
  rw [spanDigits_append (fun _ => isDigit_of_mem_paddedDigits) hrest]
  simp [hnotEmpty]

theorem readSeparator_cons {c : Char} (h : isBlank c = false) (rest : List Char) :
    readSeparator c (c :: rest) = some rest := by
  unfold readSeparator
  rw [dropBlanks_cons h]
  simp

/-! ## §2. Date -/

/-- A year is read with its sign, or from its four digits. -/
theorem readYear_writtenYear (year : Int) {rest : List Char} (hrest : EndsDigits rest) :
    readYear (writtenYear year ++ rest) = some (year, rest) := by
  unfold writtenYear
  by_cases hplain : 0 ≤ year ∧ year ≤ 9999
  · -- The first character is a digit and thus no sign.
    rw [if_pos hplain]
    have hfits : year.toNat < Nat.pow 10 4 := by
      have hvalue : Nat.pow 10 4 = 10000 := rfl
      omega
    have hread := readNumber_paddedDigits (by decide) hfits rest
    obtain ⟨d, ds, hds⟩ := List.exists_cons_of_ne_nil (paddedDigits_ne_nil 4 year.toNat)
    have hfirst : d ∈ paddedDigits 4 year.toNat := hds ▸ List.mem_cons_self
    have hdigit : d.isDigit = true := isDigit_of_mem_paddedDigits hfirst
    have hminus : d ≠ '-' := by rintro rfl; cases hdigit
    have hplus : d ≠ '+' := by rintro rfl; cases hdigit
    rw [hds, List.cons_append] at hread ⊢
    unfold readYear
    rw [dropBlanks_cons (isBlank_eq_false_of_isDigit hdigit)]
    split
    case h_1 heq => exact absurd (List.cons.inj heq).1 hminus
    case h_2 heq => exact absurd (List.cons.inj heq).1 hplus
    case h_3 =>
      rw [hread]
      show some ((year.toNat : Int), rest) = some (year, rest)
      rw [Int.toNat_of_nonneg hplain.1]
  · rw [if_neg hplain]
    have hread := readAllDigits_paddedDigits 4 year.natAbs hrest
    unfold readYear
    by_cases hnegative : year < 0
    · rw [if_pos hnegative, List.cons_append, dropBlanks_cons (by decide)]
      simp only [hread, Option.map_some]
      congr 2
      omega
    · rw [if_neg hnegative, List.cons_append, dropBlanks_cons (by decide)]
      simp only [hread, Option.map_some]
      congr 2
      omega

/-- The date of a day is read back. -/
theorem readDate_writtenDate (days : Int) (rest : List Char) :
    readDate (writtenDate (Date.ofDays days) ++ rest) = some (Date.ofDays days, rest) := by
  obtain ⟨hmonth, hday⟩ := Date.ofDays_bounds days
  have hmonth' : (Date.ofDays days).month < 100 := by omega
  have hday' : (Date.ofDays days).day < 100 := by omega
  have hends : EndsDigits ('-' :: (paddedDigits 2 (Date.ofDays days).month ++
      '-' :: (paddedDigits 2 (Date.ofDays days).day ++ rest))) := by simp
  have hdash := readSeparator_cons (c := '-') (by decide)
  unfold readDate writtenDate
  simp only [List.append_assoc, List.cons_append, readYear_writtenYear _ hends, hdash,
    readNumber_two hmonth', readNumber_two hday', Option.bind_eq_bind, Option.bind_some]
  exact if_pos (Date.isValid_ofDays days)

/-! ## §3. Time of day -/

/-- A fraction of three, six or nine digits has the nanoseconds that it was written for. -/
theorem nanosOfDigits_paddedDigits {width n : Nat} (hwidth : 0 < width) (hnine : width ≤ 9)
    (h : n < Nat.pow 10 width) :
    nanosOfDigits (paddedDigits width n) = n * Nat.pow 10 (9 - width) := by
  have hlength := length_paddedDigits hwidth h
  simp only [nanosOfDigits]
  rw [List.take_of_length_le (by omega), valueOfDigits_paddedDigits, hlength]

theorem readFraction_point {width n : Nat} (hwidth : 0 < width) (hnine : width ≤ 9)
    (h : n < Nat.pow 10 width) {rest : List Char} (hrest : EndsDigits rest) :
    readFraction ('.' :: (paddedDigits width n ++ rest))
      = some (n * Nat.pow 10 (9 - width), rest) := by
  have hnotEmpty : (paddedDigits width n).isEmpty = false := by
    simp [paddedDigits_ne_nil]
  simp only [readFraction]
  rw [spanDigits_append (fun _ => isDigit_of_mem_paddedDigits) hrest]
  simp only [hnotEmpty, nanosOfDigits_paddedDigits hwidth hnine h]
  rfl

/-- A fraction is read back; nothing is read as a whole second. -/
theorem readFraction_writtenFraction {nanos : Nat} (h : nanos < nanosPerSecond)
    {c : Char} (hc : c.isDigit = false) (hpoint : c ≠ '.') (rest : List Char) :
    readFraction (writtenFraction nanos ++ c :: rest) = some (nanos, c :: rest) := by
  have hlimit : nanosPerSecond = 1000000000 := rfl
  have hthree : Nat.pow 10 3 = 1000 := rfl
  have hsix : Nat.pow 10 6 = 1000000 := rfl
  have hnine : Nat.pow 10 9 = 1000000000 := rfl
  have hends : EndsDigits (c :: rest) := endsDigits_cons.mpr hc
  unfold writtenFraction
  by_cases hzero : nanos = 0
  · rw [if_pos hzero, hzero]
    unfold readFraction
    split
    case h_1 heq => exact absurd (List.cons.inj heq).1 hpoint
    case h_2 => rfl
  · rw [if_neg hzero]
    by_cases hmillis : nanos % 1000000 = 0
    · rw [if_pos hmillis, List.cons_append,
        readFraction_point (by decide) (by decide) (by omega) hends]
      show some (nanos / 1000000 * Nat.pow 10 6, c :: rest) = _
      rw [hsix, Nat.div_mul_cancel (Nat.dvd_of_mod_eq_zero hmillis)]
    · rw [if_neg hmillis]
      by_cases hmicros : nanos % 1000 = 0
      · rw [if_pos hmicros, List.cons_append,
          readFraction_point (by decide) (by decide) (by omega) hends]
        show some (nanos / 1000 * Nat.pow 10 3, c :: rest) = _
        rw [hthree, Nat.div_mul_cancel (Nat.dvd_of_mod_eq_zero hmicros)]
      · rw [if_neg hmicros, List.cons_append,
          readFraction_point (by decide) (by decide) (by omega) hends]
        show some (nanos * 1, c :: rest) = _
        rw [Nat.mul_one]

/-- Second of the day and nanoseconds of an instant, which run on in a leap second. -/
def Instant.ofDay (t : Instant) : Nat × Nat :=
  ((t.seconds % secondsPerDay).toNat, t.nanos)

/-- The sixtieth second is written only in a leap second, which follows the fifty-ninth. -/
theorem Instant.clock_bounds (t : Instant) :
    (t.clock.hour < 24 ∧ t.clock.minute < 60 ∧ t.clock.second ≤ 60) ∧
      t.clock.nanos < nanosPerSecond := by
  have hnanos := t.fits
  simp only [Instant.clock, Instant.isLeap, decide_eq_true_eq, secondsPerDay] at hnanos ⊢
  refine ⟨⟨by omega, by omega, ?_⟩, ?_⟩
  · split <;> omega
  · split <;> omega

/-! ### Nanoseconds that run on -/

/-- Whether the nanoseconds run on although the second is not the last one of its minute. -/
def Instant.isStray (t : Instant) : Bool :=
  t.isLeap && t.seconds % 60 != 59

theorem Instant.isStray_iff {t : Instant} :
    t.isStray = true ↔ nanosPerSecond ≤ t.nanos ∧ t.seconds % 60 ≠ 59 := by
  simp [isStray, isLeap]

/-- The calendar ends with a minute. -/
theorem Instant.next_inRange {t : Instant} (h : t.isStray = true) :
    firstSecond ≤ t.seconds + 1 ∧ t.seconds + 1 ≤ lastSecond := by
  have hlast : lastSecond % 60 = 59 := by decide
  have hrange := t.inRange
  have hstray := (isStray_iff.mp h).2
  omega

/-- The instant that the text of an instant stands for. Where the nanoseconds of a second run
on, a second is carried, unless the text can name a leap second. -/
def Instant.carried (t : Instant) : Instant :=
  if h : t.isStray = true then
    { seconds := t.seconds + 1
      nanos := t.nanos - nanosPerSecond
      inRange := next_inRange h
      fits := Nat.lt_of_le_of_lt (Nat.sub_le _ _) t.fits }
  else t

theorem Instant.carried_of_not_isStray {t : Instant} (h : t.isStray = false) : t.carried = t :=
  dif_neg (by simp [h])

theorem Instant.parts_carried {t : Instant} (h : t.isStray = true) :
    t.carried.seconds = t.seconds + 1 ∧ t.carried.nanos + nanosPerSecond = t.nanos := by
  have hleap := (isStray_iff.mp h).1
  unfold carried
  rw [dif_pos h]
  exact ⟨rfl, Nat.sub_add_cancel hleap⟩

/-- What is carried once needs not be carried again. -/
theorem Instant.isStray_carried (t : Instant) : t.carried.isStray = false := by
  cases hstray : t.isStray with
  | false => rw [carried_of_not_isStray hstray, hstray]
  | true =>
    have hfits := t.fits
    have hnanos := (parts_carried hstray).2
    apply Bool.eq_false_iff.mpr
    intro hagain
    have hleap := (isStray_iff.mp hagain).1
    omega

/-- An instant is what its text stands for exactly if nothing is to be carried. -/
theorem Instant.carried_eq_self_iff {t : Instant} : t.carried = t ↔ t.isStray = false := by
  constructor
  · intro h
    rw [← h]
    exact t.isStray_carried
  · exact carried_of_not_isStray

/-- The day is kept. -/
theorem Instant.day_carried (t : Instant) :
    t.carried.seconds / secondsPerDay = t.seconds / secondsPerDay := by
  cases hstray : t.isStray with
  | false => rw [carried_of_not_isStray hstray]
  | true =>
    have hsecond := (isStray_iff.mp hstray).2
    rw [(parts_carried hstray).1, secondsPerDay]
    omega

/-- It is written in the same parts. -/
theorem Instant.clock_carried (t : Instant) : t.carried.clock = t.clock := by
  cases hstray : t.isStray with
  | false => rw [carried_of_not_isStray hstray]
  | true =>
    obtain ⟨hleap, hsecond⟩ := isStray_iff.mp hstray
    obtain ⟨hnext, hnanos⟩ := parts_carried hstray
    have hfits := t.fits
    have hshort : ¬ nanosPerSecond ≤ t.carried.nanos := by omega
    simp only [Instant.clock, Instant.isLeap, decide_eq_true_eq, if_neg hshort, if_pos hleap,
      Clock.mk.injEq]
    refine ⟨by rw [t.day_carried], ?_⟩
    simp only [hnext, secondsPerDay]
    refine ⟨?_, ?_, ?_, ?_⟩ <;> omega

/-- Hour, minute, second and nanoseconds are the parts of the second of the day of the instant
that the text stands for. -/
theorem Instant.ofDay_clock (t : Instant) :
    (if t.clock.second = 60 then
        (t.clock.hour * 3600 + t.clock.minute * 60 + 59, t.clock.nanos + nanosPerSecond)
      else (t.clock.hour * 3600 + t.clock.minute * 60 + t.clock.second, t.clock.nanos))
      = t.carried.ofDay := by
  cases hstray : t.isStray with
  | true =>
    -- The second is carried to one of the same minute, and not to the sixtieth.
    obtain ⟨hleap, hsecond⟩ := isStray_iff.mp hstray
    obtain ⟨hnext, hnanos⟩ := parts_carried hstray
    simp only [Instant.clock, Instant.isLeap, decide_eq_true_eq, secondsPerDay, Instant.ofDay,
      hnext, if_pos hleap]
    rw [if_neg (by omega), ← hnanos, Nat.add_sub_cancel]
    congr 1
    omega
  | false =>
    rw [carried_of_not_isStray hstray]
    have hkept : ¬ (nanosPerSecond ≤ t.nanos ∧ t.seconds % 60 ≠ 59) :=
      mt isStray_iff.mpr (by simp [hstray])
    simp only [Instant.clock, Instant.isLeap, decide_eq_true_eq, secondsPerDay, Instant.ofDay]
    -- Without a leap second, the second that is written is below sixty.
    by_cases hleap : nanosPerSecond ≤ t.nanos
    · have hlast : (t.seconds % 86400).toNat % 60 = 59 := by omega
      rw [if_pos hleap, if_pos hleap, hlast, if_pos rfl, Nat.sub_add_cancel hleap]
      congr 1
      omega
    · rw [if_neg hleap, if_neg hleap, if_neg (by omega)]
      congr 1
      omega

/-- The time of day is read as that of the instant that the text stands for. -/
theorem readTime_writtenTime (t : Instant) {c : Char} (hc : c.isDigit = false) (hpoint : c ≠ '.')
    (rest : List Char) :
    readTime (writtenTime t.clock ++ c :: rest) = some (t.carried.ofDay, c :: rest) := by
  obtain ⟨hclock, hnanos⟩ := t.clock_bounds
  have hhour : t.clock.hour < 100 := by omega
  have hminute : t.clock.minute < 100 := by omega
  have hsecond : t.clock.second < 100 := by omega
  have hcolon := readSeparator_cons (c := ':') (by decide)
  have hfraction := readFraction_writtenFraction hnanos hc hpoint rest
  unfold readTime writtenTime
  simp only [List.append_assoc, List.cons_append, readNumber_two hhour, readNumber_two hminute,
    readNumber_two hsecond, hcolon, hfraction, Option.bind_eq_bind, Option.bind_some]
  rw [if_pos hclock, ← t.ofDay_clock]
  split <;> rfl

/-! ## §4. Instants -/

/-- The years of instants are those that the calendar of instants has. -/
theorem Instant.isYearInRange_clock (t : Instant) : isYearInRange t.clock.date.year = true := by
  obtain ⟨hfirst, hlast⟩ := t.inRange
  have hfirst' : firstSecond = (daysBeforeYear (-262143) - epochDay) * 86400 := by decide
  have hlast' : lastSecond = (daysBeforeYear (262142 + 1) - epochDay) * 86400 - 1 := by decide
  have hfrom : daysBeforeYear (-262143) ≤ t.seconds / 86400 + epochDay := by omega
  have hto : t.seconds / 86400 + epochDay < daysBeforeYear (262142 + 1) := by omega
  have hbounds := yearOfDay_bounds hfrom hto
  simp only [isYearInRange, Bool.and_eq_true, decide_eq_true_eq]
  exact hbounds

/-- What is written of an instant is read as the instant that it stands for. -/
theorem Instant.read?_written (t : Instant) : Instant.read? t.written = some t.carried := by
  have hdate := readDate_writtenDate (t.seconds / secondsPerDay)
    ('T' :: (writtenTime t.clock ++ ['Z']))
  have htime := readTime_writtenTime t (c := 'Z') (by decide) (by decide) []
  have hoffset : readOffset ['Z'] = some (0, []) := by decide
  have hyear := t.isYearInRange_clock
  have hseconds : t.clock.date.toDays * secondsPerDay + t.carried.ofDay.1 - 0
      = t.carried.seconds := by
    show (Date.ofDays (t.seconds / secondsPerDay)).toDays * secondsPerDay
      + ((t.carried.seconds % secondsPerDay).toNat : Nat) - 0 = t.carried.seconds
    rw [Date.toDays_ofDays, ← t.day_carried, secondsPerDay]
    omega
  -- The date is read up to the `T`, the time of day up to the `Z`, which is the whole offset.
  unfold Instant.read? Instant.written
  rw [List.append_assoc, List.cons_append]
  show (readDate (writtenDate (Date.ofDays (t.seconds / secondsPerDay)) ++ 'T' ::
    (writtenTime t.clock ++ ['Z']))).bind _ = some t.carried
  rw [hdate]
  simp only [Option.bind_eq_bind, Option.bind_some, true_or, if_true, htime, hoffset]
  rw [if_pos ⟨rfl, hyear⟩]
  show Instant.ofParts? (t.clock.date.toDays * secondsPerDay + t.carried.ofDay.1 - 0)
    t.carried.ofDay.2 = some t.carried
  rw [hseconds]
  exact t.carried.ofParts?_parts

/-- The text of an instant is read as the instant that it stands for. -/
@[simp] theorem Instant.ofText?_text (t : Instant) :
    Instant.ofText? t.text = some t.carried := by
  unfold Instant.ofText? Instant.text
  rw [String.toList_ofList]
  exact t.read?_written

/-- An instant has the text of the instant that the text stands for. -/
theorem Instant.text_carried (t : Instant) : t.carried.text = t.text := by
  unfold Instant.text Instant.written
  rw [t.clock_carried]

/-- No instant takes many characters. -/
theorem Instant.length_written_le (t : Instant) : t.written.length ≤ 80 := by
  obtain ⟨⟨hhour, hminute, hsecond⟩, hnanos⟩ := t.clock_bounds
  obtain ⟨hmonth, hday⟩ : t.clock.date.month ≤ 12 ∧ t.clock.date.day ≤ 31 :=
    Date.ofDays_bounds (t.seconds / secondsPerDay)
  have hrange := t.isYearInRange_clock
  simp only [isYearInRange, Bool.and_eq_true, decide_eq_true_eq] at hrange
  simp only [nanosPerSecond] at hnanos
  -- Every number that is written has at most nine digits.
  have hnine : Nat.pow 10 9 = 1000000000 := rfl
  have hle : ∀ width n, width ≤ 9 → n < 1000000000 → (paddedDigits width n).length ≤ 9 :=
    fun width n hwidth hn => length_paddedDigits_le (by decide) hwidth (by omega)
  have hyear : (writtenYear t.clock.date.year).length ≤ 10 := by
    unfold writtenYear
    split
    · exact Nat.le_succ_of_le (hle 4 _ (by decide) (by omega))
    · exact Nat.succ_le_succ (hle 4 _ (by decide) (by omega))
  have hfraction : (writtenFraction t.clock.nanos).length ≤ 10 := by
    unfold writtenFraction
    split
    · exact Nat.zero_le 10
    · split
      · exact Nat.succ_le_succ (hle 3 _ (by decide) (by omega))
      · split
        · exact Nat.succ_le_succ (hle 6 _ (by decide) (by omega))
        · exact Nat.succ_le_succ (hle 9 _ (by decide) (by omega))
  have hmonth' := hle 2 t.clock.date.month (by decide) (by omega)
  have hday' := hle 2 t.clock.date.day (by decide) (by omega)
  have hhour' := hle 2 t.clock.hour (by decide) (by omega)
  have hminute' := hle 2 t.clock.minute (by decide) (by omega)
  have hsecond' := hle 2 t.clock.second (by decide) (by omega)
  unfold Instant.written writtenDate writtenTime
  simp only [List.length_append, List.length_cons, List.length_nil]
  omega

/-- A leap second with a fraction, in a year before the common era. -/
example : (Instant.ofParts? (-63549360001) 1250000000).map Instant.written
    = some "-0044-03-14T23:59:60.250Z".toList := by decide +kernel

end ProbeGap
