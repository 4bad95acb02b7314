import Mathlib.Data.List.TakeWhile
import ReconcileTrigger.Proofs.Decimal
import ReconcileTrigger.Proofs.Text.Digits
import ReconcileTrigger.Quantity

/-!
Reading quantities part by part: the digits, the sign in front of them and the suffix behind. A
number with an exponent is read as the product of both, unless the exponent is too large.
-/

namespace ReconcileTrigger.Quantity

open Text (digitsValue? digitsValue?_eq_some digitsValue?_toDigits signedValue? splitSign)

/-- Digits without a point. -/
theorem magnitude?_digits {digits : List Char} (hne : digits ≠ [])
    (hdigits : ∀ c ∈ digits, c.isDigit = true) :
    magnitude? digits = some ⟨Nat.ofDigitChars 10 digits 0, 0⟩ := by
  have htake : digits.takeWhile Char.isDigit = digits := List.takeWhile_eq_self_iff.2 hdigits
  have hdrop : digits.dropWhile Char.isDigit = [] := List.dropWhile_eq_nil_iff.2 hdigits
  simp only [magnitude?, htake, hdrop, List.append_nil, digitsValue?_eq_some hne hdigits]
  rfl

/-- Digits around a point. -/
theorem magnitude?_point {whole fraction : List Char} (hne : whole ++ fraction ≠ [])
    (hwhole : ∀ c ∈ whole, c.isDigit = true) (hfraction : ∀ c ∈ fraction, c.isDigit = true) :
    magnitude? (whole ++ '.' :: fraction) =
      some ⟨Nat.ofDigitChars 10 (whole ++ fraction) 0, -(fraction.length : Int)⟩ := by
  have htake : (whole ++ '.' :: fraction).takeWhile Char.isDigit = whole := by
    rw [List.takeWhile_append_of_pos hwhole, List.takeWhile_cons_of_neg (by decide),
      List.append_nil]
  have hdrop : (whole ++ '.' :: fraction).dropWhile Char.isDigit = '.' :: fraction := by
    rw [List.dropWhile_append_of_pos hwhole, List.dropWhile_cons_of_neg (by decide)]
  have hdigits : ∀ c ∈ whole ++ fraction, c.isDigit = true := by
    intro c hc
    rcases List.mem_append.1 hc with hc | hc
    · exact hwhole c hc
    · exact hfraction c hc
  simp only [magnitude?, htake, hdrop, digitsValue?_eq_some hne hdigits]
  rfl

/-- The number ends where a suffix starts. -/
theorem takeWhile_dropWhile_append {number suffix : List Char}
    (hnumber : ∀ c ∈ number, isNumberChar c = true)
    (hsuffix : ∀ c ∈ suffix.head?, isNumberChar c = false) :
    (number ++ suffix).takeWhile isNumberChar = number ∧
      (number ++ suffix).dropWhile isNumberChar = suffix := by
  rw [List.takeWhile_append_of_pos hnumber, List.dropWhile_append_of_pos hnumber]
  cases suffix with
  | nil => exact ⟨List.append_nil number, rfl⟩
  | cons c rest =>
    have hc : ¬ isNumberChar c = true := by simpa using hsuffix c rfl
    rw [List.takeWhile_cons_of_neg hc, List.dropWhile_cons_of_neg hc]
    exact ⟨List.append_nil number, rfl⟩

/-- The number in front of a suffix, read on its own, and the suffix on its own. -/
theorem ofChars?_append {number suffix : List Char}
    (hnumber : ∀ c ∈ number, isNumberChar c = true)
    (hsuffix : ∀ c ∈ suffix.head?, isNumberChar c = false) :
    ofChars? (number ++ suffix) = (number? number).bind fun m =>
      (multiplier? suffix).map fun u => ⟨m.mul u, !suffix.isEmpty⟩ := by
  obtain ⟨htake, hdrop⟩ := takeWhile_dropWhile_append hnumber hsuffix
  simp only [ofChars?, htake, hdrop, Option.map_eq_bind]
  rfl

theorem signedValue?_minus (n : Nat) :
    signedValue? ('-' :: Nat.toDigits 10 n) = some (-(n : Int)) := by
  simp [signedValue?, splitSign, digitsValue?_toDigits]

theorem signedValue?_plus (n : Nat) : signedValue? ('+' :: Nat.toDigits 10 n) = some (n : Int) := by
  simp [signedValue?, splitSign, digitsValue?_toDigits]

theorem isNumberChar_of_isDigit {c : Char} (h : c.isDigit = true) : isNumberChar c = true := by
  simp [isNumberChar, h]

theorem parse_eq_ok_iff {s : String} {q : Quantity} :
    parse s = .ok q ↔ ofChars? s.toList = some q := by
  unfold parse
  cases ofChars? s.toList with
  | none => exact ⟨nofun, nofun⟩
  | some p => rw [Except.ok.injEq, Option.some_inj]

theorem value_decimalUnit (e : Int) : (decimalUnit e).value = 10 ^ e := by
  rw [decimalUnit, Decimal.value, Int.cast_one, one_mul]

end ReconcileTrigger.Quantity
