import Mathlib.Algebra.Group.Nat.Defs
import Mathlib.Data.List.Basic
import ReconcileTrigger.Text.Digits

/-!
Digits that are written and read back. Zeros in front of them fill a fixed width and do not change
the value, and a sign in front of them is split off.
-/

namespace ReconcileTrigger.Text

theorem digitsValue?_eq_some {digits : List Char} (hne : digits ≠ [])
    (hdigits : ∀ c ∈ digits, c.isDigit = true) :
    digitsValue? digits = some (Nat.ofDigitChars 10 digits 0) := by
  have hempty : digits.isEmpty = false := List.isEmpty_eq_false_iff.2 hne
  rw [digitsValue?, hempty, if_neg Bool.false_ne_true, if_pos (List.all_eq_true.2 hdigits)]

theorem digitsValue?_toDigits (n : Nat) : digitsValue? (Nat.toDigits 10 n) = some n := by
  rw [digitsValue?_eq_some Nat.toDigits_ne_nil fun c hc =>
    Nat.isDigit_of_mem_toDigits (by decide) (by decide) hc, Nat.ofDigitChars_ten_toDigits]

theorem length_toDigits_pos (n : Nat) : 0 < (Nat.toDigits 10 n).length :=
  List.length_pos_of_ne_nil Nat.toDigits_ne_nil

theorem lt_pow_length_toDigits (n : Nat) : n < 10 ^ (Nat.toDigits 10 n).length :=
  (Nat.length_toDigits_le_iff (by decide) (length_toDigits_pos n)).1 (Nat.le_refl _)

/-- The first digit of a number other than zero is not zero. -/
theorem pow_length_toDigits_le {n : Nat} (hn : n ≠ 0) :
    10 ^ ((Nat.toDigits 10 n).length - 1) ≤ n := by
  by_contra hlt
  rw [Nat.not_le] at hlt
  have hlength := length_toDigits_pos n
  by_cases hone : (Nat.toDigits 10 n).length = 1
  · rw [hone] at hlt
    exact hn (Nat.lt_one_iff.1 hlt)
  · have hle := (Nat.length_toDigits_le_iff (by decide) (by omega)).2 hlt
    omega

theorem isDigit_of_mem_paddedDigits {width n : Nat} {c : Char} (h : c ∈ paddedDigits width n) :
    c.isDigit = true := by
  rw [paddedDigits, List.mem_append] at h
  rcases h with hzero | hdigit
  · rw [List.eq_of_mem_replicate hzero]
    rfl
  · exact Nat.isDigit_of_mem_toDigits (by decide) (by decide) hdigit

/-- A number that fits the width fills it exactly. -/
theorem length_paddedDigits {width n : Nat} (hwidth : 0 < width) (h : n < Nat.pow 10 width) :
    (paddedDigits width n).length = width := by
  have hle : (Nat.toDigits 10 n).length ≤ width :=
    (Nat.length_toDigits_le_iff (by decide) hwidth).2 h
  rw [paddedDigits, List.length_append, List.length_replicate]
  omega

theorem ofDigitChars_paddedDigits (width n : Nat) :
    Nat.ofDigitChars 10 (paddedDigits width n) 0 = n := by
  rw [paddedDigits, Nat.ofDigitChars_append, Nat.ofDigitChars_replicate_zero, Nat.mul_zero,
    Nat.ofDigitChars_ten_toDigits]

theorem digitsValue?_paddedDigits (width n : Nat) :
    digitsValue? (paddedDigits width n) = some n := by
  have hne : paddedDigits width n ≠ [] :=
    List.append_ne_nil_of_right_ne_nil _ Nat.toDigits_ne_nil
  rw [digitsValue?_eq_some hne fun c hc => isDigit_of_mem_paddedDigits hc,
    ofDigitChars_paddedDigits]

/-- Two digits write a number below a hundred. -/
theorem exists_paddedDigits_two {n : Nat} (h : n < 100) :
    ∃ a b, paddedDigits 2 n = [a, b] ∧ digitsValue? [a, b] = some n := by
  have hlength : (paddedDigits 2 n).length = 2 := length_paddedDigits (by decide) h
  have hvalue := digitsValue?_paddedDigits 2 n
  obtain ⟨a, b, heq⟩ := List.length_eq_two.1 hlength
  rw [heq] at hvalue
  exact ⟨a, b, heq, hvalue⟩

/-- Four digits write a number below ten thousand. -/
theorem exists_paddedDigits_four {n : Nat} (h : n < 10000) :
    ∃ a b c d, paddedDigits 4 n = [a, b, c, d] ∧ digitsValue? [a, b, c, d] = some n := by
  have hlength : (paddedDigits 4 n).length = 4 := length_paddedDigits (by decide) h
  have hvalue := digitsValue?_paddedDigits 4 n
  match hdigits : paddedDigits 4 n, hlength with
  | [a, b, c, d], _ =>
    rw [hdigits] at hvalue
    exact ⟨a, b, c, d, rfl, hvalue⟩

structure Digits (cs : List Char) : Prop where
  ne_nil : cs ≠ []
  isDigit : ∀ c ∈ cs, c.isDigit = true

theorem digits_toDigits (n : Nat) : Digits (Nat.toDigits 10 n) :=
  ⟨Nat.toDigits_ne_nil, fun _ => Nat.isDigit_of_mem_toDigits (by decide) (by decide)⟩

theorem isDigit_of_mem_zeros {k : Nat} {c : Char} (h : c ∈ List.replicate k '0') :
    c.isDigit = true := by
  rw [List.eq_of_mem_replicate h]
  rfl

theorem digits_zeros_append (k : Nat) {cs : List Char} (h : Digits cs) :
    Digits (List.replicate k '0' ++ cs) :=
  ⟨List.append_ne_nil_of_right_ne_nil _ h.ne_nil, List.forall_mem_append.2
    ⟨fun _ => isDigit_of_mem_zeros, h.isDigit⟩⟩

theorem digits_append_zeros (k : Nat) {cs : List Char} (h : Digits cs) :
    Digits (cs ++ List.replicate k '0') :=
  ⟨List.append_ne_nil_of_left_ne_nil h.ne_nil _, List.forall_mem_append.2
    ⟨h.isDigit, fun _ => isDigit_of_mem_zeros⟩⟩

theorem digitsValue?_eq_some_iff {cs : List Char} {n : Nat} :
    digitsValue? cs = some n ↔ Digits cs ∧ n = Nat.ofDigitChars 10 cs 0 := by
  constructor
  · intro h
    unfold digitsValue? at h
    split at h
    · contradiction
    · rename_i hempty
      split at h
      · rename_i hall
        exact ⟨⟨fun hnil => hempty (hnil ▸ rfl), List.all_eq_true.1 hall⟩,
          (Option.some.inj h).symm⟩
      · contradiction
  · rintro ⟨hdigits, rfl⟩
    exact digitsValue?_eq_some hdigits.ne_nil hdigits.isDigit

inductive Sign : List Char → Int → Prop
  | none : Sign [] 1
  | plus : Sign ['+'] 1
  | minus : Sign ['-'] (-1)

theorem Sign.splitSign_append {sign rest : List Char} {factor : Int} (h : Sign sign factor)
    (hrest : ∀ c ∈ rest.head?, c ≠ '+' ∧ c ≠ '-') :
    splitSign (sign ++ rest) = (decide (factor < 0), rest) := by
  cases h with
  | none =>
    rw [List.nil_append]
    unfold splitSign
    split
    · exact absurd rfl (hrest '-' rfl).2
    · exact absurd rfl (hrest '+' rfl).1
    · rfl
  | plus => rfl
  | minus => rfl

theorem Sign.ite_eq_mul {sign : List Char} {factor : Int} (h : Sign sign factor) (n : Int) :
    (if decide (factor < 0) = true then -n else n) = factor * n := by
  cases h with
  | none => exact (Int.one_mul n).symm
  | plus => exact (Int.one_mul n).symm
  | minus => exact (Int.neg_one_mul n).symm

theorem Sign.natAbs_mul {sign : List Char} {factor : Int} (h : Sign sign factor) (n : Nat) :
    (factor * n).natAbs = n := by
  cases h <;> simp

/-- The sign that is split off. -/
theorem exists_sign (cs : List Char) :
    ∃ sign factor, Sign sign factor ∧ cs = sign ++ (splitSign cs).2 ∧
      (splitSign cs).1 = decide (factor < 0) := by
  unfold splitSign
  split
  · exact ⟨_, _, .minus, rfl, rfl⟩
  · exact ⟨_, _, .plus, rfl, rfl⟩
  · exact ⟨_, _, .none, rfl, rfl⟩

theorem ne_sign_of_isDigit {c : Char} (h : c.isDigit = true) : c ≠ '+' ∧ c ≠ '-' := by
  constructor
  · rintro rfl
    contradiction
  · rintro rfl
    contradiction

/-- Integers are written as digits with a sign that may stand in front of them. -/
theorem signedValue?_eq_some_iff {cs : List Char} {n : Int} :
    signedValue? cs = some n ↔ ∃ sign factor digits, cs = sign ++ digits ∧ Sign sign factor ∧
      Digits digits ∧ n = factor * Nat.ofDigitChars 10 digits 0 := by
  simp only [signedValue?, Option.bind_eq_bind, Option.bind_eq_some_iff, Option.pure_def,
    Option.some_inj, digitsValue?_eq_some_iff]
  constructor
  · rintro ⟨_, ⟨_, ⟨hdigits, rfl⟩, rfl⟩, rfl⟩
    obtain ⟨sign, factor, hsign, hcs, hnegative⟩ := exists_sign cs
    refine ⟨sign, factor, _, hcs, hsign, hdigits, ?_⟩
    rw [← hsign.ite_eq_mul]
    simp only [hnegative]
  · rintro ⟨sign, factor, digits, rfl, hsign, hdigits, rfl⟩
    have hhead : ∀ c ∈ digits.head?, c ≠ '+' ∧ c ≠ '-' := fun c hc =>
      ne_sign_of_isDigit (hdigits.isDigit c (List.mem_of_mem_head? hc))
    rw [hsign.splitSign_append hhead]
    refine ⟨_, ⟨_, ⟨hdigits, rfl⟩, rfl⟩, ?_⟩
    exact hsign.ite_eq_mul _

end ReconcileTrigger.Text
