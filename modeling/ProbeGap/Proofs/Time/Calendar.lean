import ProbeGap.Time.Calendar

/-!
# Days and dates

Naming a day by a date and counting the days to a date undo each other. A year is as long
as the calendar says (`daysBeforeYear_succ`), so the years cover all days without gap or
overlap. The guess from the mean length of a year is at most one off, as the count of leap
days strays from its mean by less than two days. Within a year the walk through the months
ends in the month that holds the day.

## Contents

  * `yearOfDay_spec`: the year of a day is the one that holds it.
  * `splitByMonth_spec`: where the walk through the months ends.
  * `Date.isValid_ofDays`, `Date.toDays_ofDays`: each day has a date, which leads back.
-/

namespace ProbeGap

/-! ## §1. Years -/

/-- The number of days of a year. -/
def yearLength (year : Int) : Nat :=
  if isLeapYear year then 366 else 365

theorem isLeapYear_iff {year : Int} :
    isLeapYear year = true ↔ year % 4 = 0 ∧ (year % 100 ≠ 0 ∨ year % 400 = 0) := by
  simp [isLeapYear]

/-- A year begins when the one before it ends. -/
theorem daysBeforeYear_succ (year : Int) :
    daysBeforeYear (year + 1) = daysBeforeYear year + yearLength year := by
  unfold daysBeforeYear yearLength
  by_cases hleap : isLeapYear year = true
  · rw [if_pos hleap]
    have hrule := isLeapYear_iff.mp hleap
    omega
  · rw [if_neg hleap]
    have hrule := mt isLeapYear_iff.mpr hleap
    omega

theorem daysBeforeYear_mono {y z : Int} (h : y ≤ z) : daysBeforeYear y ≤ daysBeforeYear z := by
  unfold daysBeforeYear
  omega

/-- A day lies in a year. -/
def InYear (year day : Int) : Prop :=
  daysBeforeYear year ≤ day ∧ day < daysBeforeYear (year + 1)

/-- The year that is found for a day holds it. -/
theorem yearOfDay_spec (day : Int) : InYear (yearOfDay day) day := by
  -- The leap days of the years up to the guess differ from their mean by less than two.
  have hbefore : daysBeforeYear (day * 400 / 146097 - 1) ≤ day := by
    unfold daysBeforeYear
    omega
  have hafter : day < daysBeforeYear (day * 400 / 146097 + 1 + 1) := by
    unfold daysBeforeYear
    omega
  unfold yearOfDay InYear
  generalize day * 400 / 146097 = guess at hbefore hafter
  dsimp only
  split
  case isTrue hlow =>
    rw [Int.sub_add_cancel]
    exact ⟨hbefore, hlow⟩
  case isFalse hlow =>
    split
    case isTrue hhigh => exact ⟨hhigh, hafter⟩
    case isFalse hhigh => exact ⟨Int.not_lt.mp hlow, Int.not_le.mp hhigh⟩

/-- A day within a span of years has one of them as its year. -/
theorem yearOfDay_bounds {first last day : Int} (hfirst : daysBeforeYear first ≤ day)
    (hlast : day < daysBeforeYear (last + 1)) :
    first ≤ yearOfDay day ∧ yearOfDay day ≤ last := by
  obtain ⟨hbefore, hafter⟩ := yearOfDay_spec day
  constructor
  · apply Int.not_lt.mp
    intro hearly
    have hmono := daysBeforeYear_mono (Int.add_one_le_of_lt hearly)
    omega
  · apply Int.not_lt.mp
    intro hlate
    have hmono := daysBeforeYear_mono (Int.add_one_le_of_lt hlate)
    omega

/-! ## §2. Months -/

/-- The walk ends in the month that holds the day. -/
theorem splitByMonth_spec {lengths : List Nat} {day : Nat} (h : day < total lengths) :
    ∃ length, lengths[(splitByMonth lengths day).1]? = some length ∧
      (splitByMonth lengths day).2 < length ∧
      total (lengths.take (splitByMonth lengths day).1) + (splitByMonth lengths day).2 = day := by
  induction lengths generalizing day with
  | nil => simp at h
  | cons length rest ih =>
    rw [total_cons] at h
    unfold splitByMonth
    by_cases hday : day < length
    · rw [if_pos hday]
      exact ⟨length, rfl, hday, Nat.zero_add day⟩
    · rw [if_neg hday]
      have hrest : day - length < total rest := by omega
      obtain ⟨found, hget, hleft, hsum⟩ := ih hrest
      refine ⟨found, hget, hleft, ?_⟩
      show total ((length :: rest).take ((splitByMonth rest (day - length)).1 + 1))
        + (splitByMonth rest (day - length)).2 = day
      rw [List.take_succ_cons, total_cons]
      omega

/-- The months make up the year. -/
theorem total_monthLengths (year : Int) :
    total (monthLengths (isLeapYear year)) = yearLength year := by
  unfold yearLength
  cases isLeapYear year <;> rfl

/-- The months of a year, by their number. -/
theorem lt_of_getElem?_monthLengths {leap : Bool} {i length : Nat}
    (h : (monthLengths leap)[i]? = some length) : i < 12 ∧ length ≤ 31 := by
  have hall : ∀ leap : Bool, ∀ l ∈ monthLengths leap, l ≤ 31 := by decide
  obtain ⟨hi, -⟩ := List.getElem?_eq_some_iff.mp h
  exact ⟨hi, hall leap length (List.mem_of_getElem? h)⟩

/-! ## §3. Dates -/

namespace Date

/-- What the date of a day is made of: the year that holds it, and a month of that year that
holds what is left. -/
theorem ofDays_spec (days : Int) :
    ∃ month left length, InYear (ofDays days).year (days + epochDay) ∧
      (ofDays days).month = month + 1 ∧ (ofDays days).day = left + 1 ∧
      (monthLengths (isLeapYear (ofDays days).year))[month]? = some length ∧ left < length ∧
      (total ((monthLengths (isLeapYear (ofDays days).year)).take month) + left : Int)
        = days + epochDay - daysBeforeYear (ofDays days).year := by
  have hyear := yearOfDay_spec (days + epochDay)
  -- With the date written out, nothing but its interval is used of the year.
  have hdate : ofDays days =
      ⟨yearOfDay (days + epochDay),
        (splitByMonth (monthLengths (isLeapYear (yearOfDay (days + epochDay))))
          (days + epochDay - daysBeforeYear (yearOfDay (days + epochDay))).toNat).1 + 1,
        (splitByMonth (monthLengths (isLeapYear (yearOfDay (days + epochDay))))
          (days + epochDay - daysBeforeYear (yearOfDay (days + epochDay))).toNat).2 + 1⟩ := rfl
  rw [hdate]
  generalize yearOfDay (days + epochDay) = year at hyear
  obtain ⟨hbefore, hafter⟩ := hyear
  rw [daysBeforeYear_succ, ← total_monthLengths] at hafter
  have hshort : (days + epochDay - daysBeforeYear year).toNat
      < total (monthLengths (isLeapYear year)) := by omega
  obtain ⟨length, hget, hleft, hsum⟩ := splitByMonth_spec hshort
  refine ⟨_, _, length, ⟨hbefore, ?_⟩, rfl, rfl, hget, hleft, ?_⟩
  · rw [daysBeforeYear_succ, ← total_monthLengths]
    exact hafter
  · dsimp only
    omega

/-- The date of a day is one that the calendar has. -/
theorem isValid_ofDays (days : Int) : (ofDays days).isValid = true := by
  obtain ⟨month, left, length, -, hmonth, hday, hget, hleft, -⟩ := ofDays_spec days
  have hle : left + 1 ≤ length := hleft
  unfold isValid
  rw [hmonth, hday, Nat.add_sub_cancel, hget]
  simp [hle]

/-- The months are numbered up to twelve, their days up to thirty-one. -/
theorem ofDays_bounds (days : Int) : (ofDays days).month ≤ 12 ∧ (ofDays days).day ≤ 31 := by
  obtain ⟨month, left, length, -, hmonth, hday, hget, hleft, -⟩ := ofDays_spec days
  have hlimits := lt_of_getElem?_monthLengths hget
  omega

/-- The date of a day leads back to it. -/
@[simp] theorem toDays_ofDays (days : Int) : (ofDays days).toDays = days := by
  obtain ⟨month, left, length, -, hmonth, hday, -, -, hsum⟩ := ofDays_spec days
  unfold toDays dayOfYear
  rw [hmonth, hday, Nat.add_sub_cancel, Nat.add_sub_cancel]
  omega

end Date
end ProbeGap
