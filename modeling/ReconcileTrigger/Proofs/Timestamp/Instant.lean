import Mathlib.Data.List.Lex
import Mathlib.Data.Nat.Order.Lemmas
import ReconcileTrigger.Proofs.Timestamp

/-!
An instant counts the nanoseconds since year 0. At one offset it numbers the valid times in the
order of the calendar, without gaps; at different offsets it is the same where the clocks are as
far apart as the offsets. A minute that ends a month, where a leap second can be, is found from the
local date.
-/

namespace ReconcileTrigger

namespace Calendar

theorem monthStart_succ (year month : Nat) :
    monthStart year (month + 1) = monthStart year month + monthLength year month := by
  rw [monthStart, monthStart, daysBeforeMonth, List.range_succ, List.foldl_append, Nat.add_assoc]
  rfl

theorem daysBeforeMonth_thirteen (year : Nat) :
    daysBeforeMonth year 13 = 337 + monthLength year 2 := by
  have hrange : List.range 13 = [0, 1, 2, 3, 4, 5, 6, 7, 8, 9, 10, 11, 12] := rfl
  rw [daysBeforeMonth, hrange]
  simp only [List.foldl_cons, List.foldl_nil, monthLength]
  omega

/-- A year that is a multiple of `k + 1` is one more of them before the next year. -/
theorem multiples_succ (k year : Nat) : (year + 1 + k) / (k + 1) =
    (year + k) / (k + 1) + if year % (k + 1) = 0 then 1 else 0 := by
  rw [Nat.add_right_comm, Nat.succ_div]
  simp only [Nat.add_assoc, Nat.dvd_iff_mod_eq_zero, Nat.add_mod_right]

/-- A day is added every four years, but not every hundred, and yet every four hundred. -/
theorem monthLength_february (year : Nat) :
    monthLength year 2 + (if year % 100 = 0 then 1 else 0) =
      28 + (if year % 4 = 0 then 1 else 0) + (if year % 400 = 0 then 1 else 0) := by
  by_cases h400 : year % 400 = 0
  · have h100 : year % 100 = 0 := by omega
    have h4 : year % 4 = 0 := by omega
    simp [monthLength, isLeapYear, h4, h100, h400]
  · by_cases h100 : year % 100 = 0
    · have h4 : year % 4 = 0 := by omega
      simp [monthLength, isLeapYear, h4, h100, h400]
    · by_cases h4 : year % 4 = 0
      · simp [monthLength, isLeapYear, h4, h100, h400]
      · simp [monthLength, isLeapYear, h4, h100, h400]

/-- A year ends with its twelfth month. -/
theorem daysBeforeYear_succ (year : Nat) : daysBeforeYear (year + 1) = monthStart year 13 := by
  have hfourths : (year + 1 + 3) / 4 = (year + 3) / 4 + if year % 4 = 0 then 1 else 0 :=
    multiples_succ 3 year
  have hcenturies : (year + 1 + 99) / 100 = (year + 99) / 100 + if year % 100 = 0 then 1 else 0 :=
    multiples_succ 99 year
  have hcycles : (year + 1 + 399) / 400 = (year + 399) / 400 + if year % 400 = 0 then 1 else 0 :=
    multiples_succ 399 year
  have hfebruary := monthLength_february year
  have hle : (year + 99) / 100 ≤ 365 * year + (year + 3) / 4 := by omega
  rw [monthStart, daysBeforeMonth_thirteen, daysBeforeYear, daysBeforeYear, hfourths, hcenturies,
    hcycles]
  generalize (year + 3) / 4 = fourths at *
  generalize (year + 99) / 100 = centuries at *
  generalize (year + 399) / 400 = cycles at *
  omega

theorem monthStart_mono (year : Nat) : Monotone (monthStart year) := by
  refine monotone_nat_of_le_succ fun month => ?_
  rw [monthStart_succ]
  exact Nat.le_add_right _ _

theorem daysBeforeYear_mono : Monotone daysBeforeYear := by
  refine monotone_nat_of_le_succ fun year => ?_
  rw [daysBeforeYear_succ]
  exact Nat.le_add_right _ _

theorem daysBeforeYear_le_monthStart (year month : Nat) :
    daysBeforeYear year ≤ monthStart year month :=
  Nat.le_add_right _ _

theorem monthStart_le_daysBeforeYear {year later month : Nat} (h : year < later)
    (hmonth : month ≤ 13) : monthStart year month ≤ daysBeforeYear later :=
  calc monthStart year month
      ≤ monthStart year 13 := monthStart_mono year hmonth
    _ = daysBeforeYear (year + 1) := (daysBeforeYear_succ year).symm
    _ ≤ daysBeforeYear later := daysBeforeYear_mono h

/-- No month starts inside another one. -/
theorem monthStart_le_or_le (year year' : Nat) {month month' : Nat} (hmonth : month ≤ 12)
    (hmonth' : month' ≤ 12) : monthStart year' month' ≤ monthStart year month ∨
      monthStart year (month + 1) ≤ monthStart year' month' := by
  rcases Nat.lt_trichotomy year' year with hlt | rfl | hgt
  · exact .inl ((monthStart_le_daysBeforeYear hlt (by omega)).trans
      (daysBeforeYear_le_monthStart year month))
  · rcases Nat.lt_or_ge month month' with hlt | hge
    · exact .inr (monthStart_mono year' hlt)
    · exact .inl (monthStart_mono year' hge)
  · exact .inr ((monthStart_le_daysBeforeYear hgt (Nat.succ_le_succ hmonth)).trans
      (daysBeforeYear_le_monthStart year' month'))

/-- Every day is in a month of a year. -/
theorem exists_month {days : Nat} (h : days < daysBeforeYear 10000) :
    ∃ year month, year < 10000 ∧ monthStart year month ≤ days ∧
      days < monthStart year month + monthLength year month := by
  obtain ⟨year, hstart, hend⟩ : ∃ year, ¬ days < daysBeforeYear year ∧
      days < daysBeforeYear (year + 1) :=
    Nat.exists_not_and_succ_of_not_zero_of_exists (Nat.not_lt_zero _) ⟨10000, h⟩
  rw [daysBeforeYear_succ] at hend
  obtain ⟨month, hmonth, hnext⟩ : ∃ month, ¬ days < monthStart year month ∧
      days < monthStart year (month + 1) :=
    Nat.exists_not_and_succ_of_not_zero_of_exists hstart ⟨13, hend⟩
  have hyear : year < 10000 := by
    by_contra hge
    exact hstart (h.trans_le (daysBeforeYear_mono (not_lt.1 hge)))
  rw [monthStart_succ] at hnext
  exact ⟨year, month, hyear, not_lt.1 hmonth, hnext⟩

end Calendar

namespace LocalTime

open Calendar

/-- What calendar and clock show, the longest unit first. -/
def fields (t : LocalTime) : List Nat :=
  [t.year, t.month, t.day, t.hour, t.minute, t.second, t.nanosecond]

def dayNumber (t : LocalTime) : Nat :=
  monthStart t.year t.month + (t.day - 1)

def clock (t : LocalTime) : Nat :=
  ((t.hour * 60 + t.minute) * 60 + t.second) * 1000000000 + t.nanosecond

/-- The nanoseconds from the start of year 0 to the date and time, without the offset. -/
def reading (t : LocalTime) : Nat :=
  t.dayNumber * 86400000000000 + t.clock

variable {t u : LocalTime}

theorem instant_eq (h : t.isValid = true) :
    t.instant = t.reading - t.offset * 60000000000 := by
  have hday := (ranges_of_isValid h).2.1
  simp only [instant, utcMinutes, reading, dayNumber, clock]
  omega

theorem clock_lt (h : t.isValid = true) : t.clock < 86400000000000 := by
  have hranges := ranges_of_isValid h
  rw [clock]
  omega

theorem dayNumber_lt (h : t.isValid = true) :
    t.dayNumber < monthStart t.year (t.month + 1) := by
  have hranges := ranges_of_isValid h
  rw [dayNumber, monthStart_succ]
  omega

theorem dayNumber_lt_of_year_lt (h : t.isValid = true) (hyear : t.year < u.year) :
    t.dayNumber < u.dayNumber := by
  calc t.dayNumber
      < monthStart t.year (t.month + 1) := dayNumber_lt h
    _ ≤ daysBeforeYear u.year :=
      monthStart_le_daysBeforeYear hyear (Nat.succ_le_succ (month_le_of_isValid h))
    _ ≤ u.dayNumber := (daysBeforeYear_le_monthStart _ _).trans (Nat.le_add_right _ _)

theorem dayNumber_lt_of_month_lt (h : t.isValid = true) (hyear : t.year = u.year)
    (hmonth : t.month < u.month) : t.dayNumber < u.dayNumber := by
  calc t.dayNumber
      < monthStart t.year (t.month + 1) := dayNumber_lt h
    _ ≤ monthStart t.year u.month := monthStart_mono t.year hmonth
    _ = monthStart u.year u.month := by rw [hyear]
    _ ≤ u.dayNumber := Nat.le_add_right _ _

theorem reading_lt_of_dayNumber_lt (h : t.isValid = true) (hday : t.dayNumber < u.dayNumber) :
    t.reading < u.reading := by
  have hclock := clock_lt h
  rw [reading, reading]
  omega

/-- The first field that differs decides. -/
theorem reading_lt_of_fields_lt (ht : t.isValid = true) (hu : u.isValid = true)
    (h : t.fields < u.fields) : t.reading < u.reading := by
  have htranges := ranges_of_isValid ht
  have huranges := ranges_of_isValid hu
  simp only [fields, List.cons_lt_cons_iff, List.not_lt_nil, and_false, or_false] at h
  rcases h with hyear | ⟨hyear, hmonth | ⟨hmonth, hday | ⟨hday, htime⟩⟩⟩
  · exact reading_lt_of_dayNumber_lt ht (dayNumber_lt_of_year_lt ht hyear)
  · exact reading_lt_of_dayNumber_lt ht (dayNumber_lt_of_month_lt ht hyear hmonth)
  · have hnumber : t.dayNumber < u.dayNumber := by
      rw [dayNumber, dayNumber, hyear, hmonth]
      omega
    exact reading_lt_of_dayNumber_lt ht hnumber
  · have hnumber : t.dayNumber = u.dayNumber := by
      rw [dayNumber, dayNumber, hyear, hmonth, hday]
    rw [reading, reading, hnumber, clock, clock]
    omega

theorem reading_eq_of_fields_eq (h : t.fields = u.fields) : t.reading = u.reading := by
  simp only [fields, List.cons.injEq, and_true] at h
  obtain ⟨hyear, hmonth, hday, hhour, hminute, hsecond, hnanosecond⟩ := h
  simp only [reading, dayNumber, clock, hyear, hmonth, hday, hhour, hminute, hsecond, hnanosecond]

/-- Readings are in the order of the calendar. -/
theorem reading_lt_iff (ht : t.isValid = true) (hu : u.isValid = true) :
    t.reading < u.reading ↔ t.fields < u.fields := by
  constructor
  · intro h
    rcases lt_trichotomy t.fields u.fields with hlt | heq | hgt
    · exact hlt
    · exact absurd h (reading_eq_of_fields_eq heq).not_lt
    · exact absurd h (reading_lt_of_fields_lt hu ht hgt).not_gt
  · exact reading_lt_of_fields_lt ht hu

theorem fields_eq_of_reading_eq (ht : t.isValid = true) (hu : u.isValid = true)
    (h : t.reading = u.reading) : t.fields = u.fields := by
  rcases lt_trichotomy t.fields u.fields with hlt | heq | hgt
  · exact absurd h (reading_lt_of_fields_lt ht hu hlt).ne
  · exact heq
  · exact absurd h (reading_lt_of_fields_lt hu ht hgt).ne'

theorem eq_of_fields_eq (h : t.fields = u.fields) (hoffset : t.offset = u.offset) : t = u := by
  cases t
  cases u
  simp only [fields, List.cons.injEq, and_true] at h
  simpa only [mk.injEq, h, true_and] using hoffset

/-- Every number of nanoseconds before the year 10000 is the reading of a valid time. -/
theorem exists_reading_eq {offset : Int} (hoffset : offset.natAbs < 1440) {n : Nat}
    (hn : n < daysBeforeYear 10000 * 86400000000000) :
    ∃ t : LocalTime, t.isValid = true ∧ t.offset = offset ∧ t.reading = n := by
  let seconds := n / 1000000000
  let minutes := seconds / 60
  let hours := minutes / 60
  let days := hours / 24
  have hdays : days < daysBeforeYear 10000 := by omega
  obtain ⟨year, month, hyear, hstart, hend⟩ := exists_month hdays
  let day := days - monthStart year month + 1
  refine ⟨⟨year, month, day, hours % 24, minutes % 60, seconds % 60, n % 1000000000, offset⟩,
    ?_, rfl, ?_⟩
  · simp only [isValid, Bool.and_eq_true, decide_eq_true_eq]
    omega
  · simp only [reading, dayNumber, clock]
    omega

/-- The minute ends a month where the next one starts a month, whichever month that is. -/
theorem endsMonth_iff (h : t.endOfMinute.isValid = true) :
    t.endsMonth = true ↔ ∃ year month, 1 ≤ month ∧ month ≤ 12 ∧
      t.utcMinutes + 1 = monthStart year month * 1440 := by
  have hranges := ranges_of_isValid h
  have hmonth := month_le_of_isValid h
  simp only [endOfMinute] at hranges hmonth
  have hfirst : 1 ≤ t.month := by
    by_contra hlt
    have hzero : monthLength t.year t.month = 0 := by
      rw [Nat.lt_one_iff.1 (not_le.1 hlt)]
      rfl
    omega
  have hnext := monthStart_succ t.year t.month
  rw [endsMonth, Bool.or_eq_true, beq_iff_eq, beq_iff_eq, ← hnext]
  constructor
  · rintro (hstart | hend)
    · exact ⟨t.year, t.month, hfirst, hmonth, hstart⟩
    · rcases Nat.lt_or_ge t.month 12 with hlt | hge
      · exact ⟨t.year, t.month + 1, by omega, hlt, hend⟩
      · have hdecember : t.month = 12 := by omega
        rw [hdecember, ← daysBeforeYear_succ] at hend
        exact ⟨t.year + 1, 1, le_refl 1, by decide, hend⟩
  · rintro ⟨year, month, -, hle, hutc⟩
    have hbeside := monthStart_le_or_le t.year year hmonth hle
    simp only [utcMinutes] at hutc ⊢
    omega

end LocalTime

namespace Timestamp

theorem instant_eq (t : Timestamp) :
    t.instant = t.localTime.reading - t.localTime.offset * 60000000000 :=
  LocalTime.instant_eq t.valid

/-- At one offset, the later instant is the one whose date and time come later. -/
theorem instant_lt_iff {t u : Timestamp} (h : t.localTime.offset = u.localTime.offset) :
    t.instant < u.instant ↔ t.localTime.fields < u.localTime.fields := by
  rw [instant_eq, instant_eq, h, ← LocalTime.reading_lt_iff t.valid u.valid]
  omega

theorem eq_of_instant_eq {t u : Timestamp} (hoffset : t.localTime.offset = u.localTime.offset)
    (h : t.instant = u.instant) : t = u := by
  rw [instant_eq, instant_eq, hoffset] at h
  have hreading : t.localTime.reading = u.localTime.reading := by omega
  have hfields := LocalTime.fields_eq_of_reading_eq t.valid u.valid hreading
  have hlocal : t.localTime = u.localTime := LocalTime.eq_of_fields_eq hfields hoffset
  cases t
  cases u
  rwa [mk.injEq]

/-- Moving the date and time together with the offset keeps the instant. -/
theorem sameInstant_iff (t u : Timestamp) :
    t.sameInstant u = true ↔ (t.localTime.reading : Int) - u.localTime.reading =
      (t.localTime.offset - u.localTime.offset) * 60000000000 := by
  rw [sameInstant, beq_iff_eq, instant_eq, instant_eq]
  omega

/-- The last half hour of a February, an hour west of UTC, is in March. -/
example : sameInstant ⟨⟨2024, 2, 29, 23, 30, 0, 0, -60⟩, by decide⟩
    ⟨⟨2024, 3, 1, 0, 30, 0, 0, 0⟩, by decide⟩ = true := by decide

/-- At every offset, the nanoseconds from year 0 to year 9999 have one timestamp each. -/
theorem existsUnique_instant {offset : Int} (hoffset : offset.natAbs < 1440) {n : Nat}
    (hn : n < Calendar.daysBeforeYear 10000 * 86400000000000) :
    ∃! t : Timestamp, t.localTime.offset = offset ∧ t.instant = n - offset * 60000000000 := by
  obtain ⟨t, hvalid, ht, hreading⟩ := LocalTime.exists_reading_eq hoffset hn
  have hinstant : instant ⟨t, hvalid⟩ = n - offset * 60000000000 := by
    rw [instant_eq, hreading, ht]
  refine ⟨⟨t, hvalid⟩, ⟨ht, hinstant⟩, ?_⟩
  rintro u ⟨hu, huinstant⟩
  exact eq_of_instant_eq (hu.trans ht.symm) (huinstant.trans hinstant.symm)

end Timestamp

end ReconcileTrigger
