import Mathlib.Data.List.TakeWhile
import ReconcileTrigger.Proofs.Text.Digits
import ReconcileTrigger.Timestamp

/-!
Timestamps are read back as they were written. Every part has its fixed place, except for the
fraction, which loses the zeros at its end, and the offset, which follows the last digit.
-/

namespace ReconcileTrigger

open Text

theorem Calendar.monthLength_le (year month : Nat) : monthLength year month ≤ 31 := by
  unfold monthLength
  split
  case h_12 => split <;> decide
  all_goals decide

theorem Calendar.month_le_of_monthLength_pos {year month : Nat} (h : 0 < monthLength year month) :
    month ≤ 12 := by
  unfold monthLength at h
  split at h <;> omega

theorem LocalTime.ranges_of_isValid {t : LocalTime} (h : t.isValid = true) :
    t.year < 10000 ∧ 1 ≤ t.day ∧ t.day ≤ Calendar.monthLength t.year t.month ∧ t.hour < 24 ∧
      t.minute < 60 ∧ t.second < 60 ∧ t.nanosecond < 1000000000 ∧ t.offset.natAbs < 1440 := by
  simp only [isValid, Bool.and_eq_true, decide_eq_true_eq] at h
  omega

theorem LocalTime.month_le_of_isValid {t : LocalTime} (h : t.isValid = true) : t.month ≤ 12 := by
  have hranges := ranges_of_isValid h
  have hpos : 0 < Calendar.monthLength t.year t.month := by omega
  exact Calendar.month_le_of_monthLength_pos hpos

/-- The fields of a valid time fit the places where they are written. -/
theorem LocalTime.bounds_of_isValid {t : LocalTime} (h : t.isValid = true) :
    t.year < 10000 ∧ t.month < 100 ∧ t.day < 100 ∧ t.hour < 100 ∧ t.minute < 100 ∧
      t.second < 60 ∧ t.nanosecond < 1000000000 ∧ t.offset.natAbs < 1440 := by
  have hranges := ranges_of_isValid h
  have hlength := Calendar.monthLength_le t.year t.month
  have hmonth := month_le_of_isValid h
  omega

namespace Timestamp

section Fraction

/-- What is dropped are zeros. -/
theorem exists_eq_dropTrailingZeros_append (digits : List Char) :
    ∃ k, digits = dropTrailingZeros digits ++ List.replicate k '0' := by
  have hsplit : digits.reverse =
      digits.reverse.takeWhile (· = '0') ++ digits.reverse.dropWhile (· = '0') :=
    List.takeWhile_append_dropWhile.symm
  have hzeros : digits.reverse.takeWhile (· = '0') =
      List.replicate (digits.reverse.takeWhile (· = '0')).length '0' := by
    apply List.eq_replicate_of_mem
    intro c hc
    simpa using List.mem_takeWhile_imp hc
  refine ⟨(digits.reverse.takeWhile (· = '0')).length, ?_⟩
  rw [dropTrailingZeros, ← List.reverse_replicate, ← List.reverse_append, ← hzeros, ← hsplit,
    List.reverse_reverse]

/-- The digits of a fraction give its nanoseconds without the zeros at their end. -/
theorem readFraction_dropTrailingZeros {n : Nat} (h : n < 1000000000) :
    readFraction (dropTrailingZeros (paddedDigits 9 n)) = n := by
  have hlength : (paddedDigits 9 n).length = 9 := length_paddedDigits (by decide) h
  have hvalue := ofDigitChars_paddedDigits 9 n
  obtain ⟨k, hk⟩ := exists_eq_dropTrailingZeros_append (paddedDigits 9 n)
  rw [hk, List.length_append, List.length_replicate] at hlength
  rw [hk, Nat.ofDigitChars_append, Nat.ofDigitChars_replicate_zero] at hvalue
  have hkept : (dropTrailingZeros (paddedDigits 9 n)).take 9 =
      dropTrailingZeros (paddedDigits 9 n) := List.take_of_length_le (by omega)
  have hmissing : 9 - (dropTrailingZeros (paddedDigits 9 n)).length = k := by omega
  rw [readFraction, hkept, hmissing, Nat.mul_comm]
  exact hvalue

theorem dropTrailingZeros_ne_nil {n : Nat} (h : n ≠ 0) :
    dropTrailingZeros (paddedDigits 9 n) ≠ [] := by
  intro hnil
  have hvalue := ofDigitChars_paddedDigits 9 n
  obtain ⟨k, hk⟩ := exists_eq_dropTrailingZeros_append (paddedDigits 9 n)
  rw [hk, hnil, List.nil_append, Nat.ofDigitChars_replicate_zero, Nat.mul_zero] at hvalue
  exact h hvalue.symm

/-- A fraction is read up to what follows it, which does not go on like one. -/
theorem scanFraction?_fractionChars {n : Nat} (h : n < 1000000000) {c : Char} {rest : List Char}
    (hpoint : c ≠ '.') (hdigit : c.isDigit = false) :
    scanFraction? (fractionChars n ++ c :: rest) = some (n, c :: rest) := by
  by_cases hn : n = 0
  · rw [fractionChars, if_pos hn, List.nil_append, hn]
    unfold scanFraction?
    split
    · rename_i heq
      exact absurd (List.cons.inj heq).1 hpoint
    · rfl
  · have hdigits : ∀ d ∈ dropTrailingZeros (paddedDigits 9 n), d.isDigit = true := by
      intro d hd
      obtain ⟨k, hk⟩ := exists_eq_dropTrailingZeros_append (paddedDigits 9 n)
      have hmem : d ∈ paddedDigits 9 n := by
        rw [hk]
        exact List.mem_append_left _ hd
      exact isDigit_of_mem_paddedDigits hmem
    have hstop : ¬ c.isDigit = true := by rw [hdigit]; decide
    have htake : (dropTrailingZeros (paddedDigits 9 n) ++ c :: rest).takeWhile Char.isDigit =
        dropTrailingZeros (paddedDigits 9 n) := by
      rw [List.takeWhile_append_of_pos hdigits, List.takeWhile_cons_of_neg hstop, List.append_nil]
    have hdrop : (dropTrailingZeros (paddedDigits 9 n) ++ c :: rest).dropWhile Char.isDigit =
        c :: rest := by
      rw [List.dropWhile_append_of_pos hdigits, List.dropWhile_cons_of_neg hstop]
    have hempty : (dropTrailingZeros (paddedDigits 9 n)).isEmpty = false :=
      List.isEmpty_eq_false_iff.2 (dropTrailingZeros_ne_nil hn)
    rw [fractionChars, if_neg hn, List.cons_append, scanFraction?, htake, hdrop, hempty,
      readFraction_dropTrailingZeros h]
    rfl

end Fraction

/-- An offset starts with a letter or a sign. -/
theorem exists_offsetChars_eq_cons (offset : Int) :
    ∃ c rest, offsetChars offset = c :: rest ∧ c ≠ '.' ∧ c.isDigit = false := by
  unfold offsetChars
  by_cases hzero : offset = 0
  · rw [if_pos hzero]
    exact ⟨'Z', [], rfl, by decide, by decide⟩
  · rw [if_neg hzero]
    by_cases hnegative : offset < 0
    · simp only [if_pos hnegative]
      exact ⟨'-', _, rfl, by decide, by decide⟩
    · simp only [if_neg hnegative]
      exact ⟨'+', _, rfl, by decide, by decide⟩

theorem readOffset?_offsetChars {offset : Int} (h : offset.natAbs < 1440) :
    readOffset? (offsetChars offset) = some offset := by
  by_cases hzero : offset = 0
  · rw [hzero]
    rfl
  · obtain ⟨a, b, hhours, hhoursValue⟩ :=
      exists_paddedDigits_two (n := offset.natAbs / 60) (by omega)
    obtain ⟨c, d, hminutes, hminutesValue⟩ :=
      exists_paddedDigits_two (n := offset.natAbs % 60) (by omega)
    have hlegal : ¬ (23 < offset.natAbs / 60 ∨ 59 < offset.natAbs % 60) := by omega
    rw [offsetChars, if_neg hzero, hhours, hminutes]
    by_cases hnegative : offset < 0
    · have hvalue : -((offset.natAbs / 60 : Nat) * 60 + (offset.natAbs % 60 : Nat) : Int) =
          offset := by omega
      simpa [readOffset?, pairValue?, hhoursValue, hminutesValue, hnegative, hlegal] using hvalue
    · have hvalue : ((offset.natAbs / 60 : Nat) * 60 + (offset.natAbs % 60 : Nat) : Int) =
          offset := by omega
      simpa [readOffset?, pairValue?, hhoursValue, hminutesValue, hnegative, hlegal] using hvalue

/-- Seconds of a valid time end before the leap second, so it is taken as it is. -/
theorem ofLocalTime?_localTime (t : Timestamp) : ofLocalTime? t.localTime = some t := by
  have hsecond : t.localTime.second ≠ 60 := by
    have hbounds := LocalTime.bounds_of_isValid t.valid
    omega
  rw [ofLocalTime?, if_neg hsecond, ofValid?, dif_pos t.valid]

theorem ofChars?_chars (t : Timestamp) : ofChars? t.chars = some t := by
  obtain ⟨hyear, hmonth, hday, hhour, hminute, hsecond, hnanosecond, hoffset⟩ :=
    LocalTime.bounds_of_isValid t.valid
  obtain ⟨y₁, y₂, y₃, y₄, hyearChars, hyearValue⟩ := exists_paddedDigits_four hyear
  obtain ⟨m₁, m₂, hmonthChars, hmonthValue⟩ := exists_paddedDigits_two hmonth
  obtain ⟨d₁, d₂, hdayChars, hdayValue⟩ := exists_paddedDigits_two hday
  obtain ⟨h₁, h₂, hhourChars, hhourValue⟩ := exists_paddedDigits_two hhour
  obtain ⟨n₁, n₂, hminuteChars, hminuteValue⟩ := exists_paddedDigits_two hminute
  obtain ⟨s₁, s₂, hsecondChars, hsecondValue⟩ :=
    exists_paddedDigits_two (n := t.localTime.second) (by omega)
  obtain ⟨c, rest, hoffsetChars, hpoint, hdigit⟩ := exists_offsetChars_eq_cons t.localTime.offset
  have hfraction : scanFraction? (fractionChars t.localTime.nanosecond ++ c :: rest) =
      some (t.localTime.nanosecond, c :: rest) :=
    scanFraction?_fractionChars hnanosecond hpoint hdigit
  have hread : readOffset? (c :: rest) = some t.localTime.offset := by
    rw [← hoffsetChars]
    exact readOffset?_offsetChars hoffset
  have hseparator : (guard ('T'.toNat < 128) : Option Unit) = some () := rfl
  simp only [chars, hyearChars, hmonthChars, hdayChars, hhourChars, hminuteChars, hsecondChars,
    hoffsetChars, List.cons_append, List.nil_append, ofChars?, pairValue?,
    hyearValue, hmonthValue, hdayValue, hhourValue, hminuteValue, hsecondValue, ↓hseparator,
    Option.bind_eq_bind, Option.bind_some, hfraction, hread]
  exact ofLocalTime?_localTime t

theorem parse?_text (t : Timestamp) : parse? t.text = some t := by
  rw [parse?, text, String.toList_ofList, ofChars?_chars]

end Timestamp

end ReconcileTrigger
