import Mathlib.Tactic.NormNum
import ReconcileTrigger.Json.Number
import ReconcileTrigger.Proofs.Quantity.Grammar

/-!
Numbers with an exponent behind them that may be too large. Such a text is a quantity of its value
unless the exponent is beyond the limit, and it has one value and one exponent only. The forms in
which decimals are written are of this kind.
-/

namespace ReconcileTrigger.Quantity

open Text (Digits Sign signedValue?)

section Numerals

/-- Digits with zeros behind them. -/
theorem numeral_zeros (n k : Nat) :
    Numeral (Nat.toDigits 10 n ++ List.replicate k '0') (n * 10 ^ k) := by
  have h := Numeral.whole (Text.digits_append_zeros k (Text.digits_toDigits n))
  rw [Nat.ofDigitChars_append, Nat.ofDigitChars_replicate_zero, Nat.ofDigitChars_ten_toDigits] at h
  push_cast at h
  rwa [mul_comm] at h

/-- Digits with zeros up to the point and one behind it. -/
theorem numeral_zeros_point (n k : Nat) :
    Numeral (Nat.toDigits 10 n ++ List.replicate k '0' ++ ['.', '0']) (n * 10 ^ k) := by
  have hwhole := Text.digits_append_zeros k (Text.digits_toDigits n)
  have h := Numeral.point (Text.digits_append_zeros 1 hwhole)
  rw [Nat.ofDigitChars_append, Nat.ofDigitChars_append, Nat.ofDigitChars_replicate_zero,
    Nat.ofDigitChars_replicate_zero, Nat.ofDigitChars_ten_toDigits, List.length_replicate] at h
  push_cast at h
  rwa [pow_one, mul_div_cancel_left₀ _ (by norm_num), mul_comm] at h

/-- Digits with a point among them, or behind a zero and a point. -/
theorem numeral_withPoint (n : Nat) {fraction : Nat} (hpos : 0 < fraction) :
    Numeral (Decimal.withPoint (Nat.toDigits 10 n) fraction) (n / 10 ^ fraction) := by
  have hdigits := Text.digits_toDigits n
  have hn := Nat.ofDigitChars_ten_toDigits (n := n)
  generalize Nat.toDigits 10 n = digits at hdigits hn ⊢
  rw [Decimal.withPoint, if_neg (by omega)]
  split
  · rename_i hlt
    have hjoin := List.take_append_drop (digits.length - fraction) digits
    have hlength : (digits.drop (digits.length - fraction)).length = fraction := by
      rw [List.length_drop]
      omega
    have h := Numeral.point (hjoin.symm ▸ hdigits)
    rwa [hjoin, hn, hlength] at h
  · rename_i hge
    have hzeros := Text.digits_zeros_append 1
      (Text.digits_zeros_append (fraction - digits.length) hdigits)
    have hlength : (List.replicate (fraction - digits.length) '0' ++ digits).length = fraction := by
      rw [List.length_append, List.length_replicate]
      omega
    have h := Numeral.point hzeros
    rw [Nat.ofDigitChars_append, Nat.ofDigitChars_append, Nat.ofDigitChars_replicate_zero,
      Nat.ofDigitChars_replicate_zero, Nat.mul_zero, hn, hlength] at h
    rw [List.append_assoc]
    exact h

/-- Digits with a point after the first of them. -/
theorem numeral_withLeadingPoint (n : Nat) :
    Numeral (Decimal.withLeadingPoint (Nat.toDigits 10 n))
      (n / 10 ^ ((Nat.toDigits 10 n).length - 1)) := by
  have hdigits := Text.digits_toDigits n
  have hn := Nat.ofDigitChars_ten_toDigits (n := n)
  generalize Nat.toDigits 10 n = digits at hdigits hn ⊢
  match digits, hdigits with
  | [d], hdigits =>
    have h := Numeral.whole hdigits
    rw [hn] at h
    rwa [List.length_singleton, Nat.sub_self, pow_zero, div_one]
  | d :: d' :: rest, hdigits =>
    have h : Numeral ([d] ++ '.' :: d' :: rest) _ := .point hdigits
    have hjoin : [d] ++ d' :: rest = d :: d' :: rest := rfl
    rw [hjoin, hn] at h
    exact h
  | [], hdigits => exact absurd rfl hdigits.ne_nil

end Numerals

/-- What may follow a number: an exponent, zero where there is none. -/
inductive Exponent : List Char → Int → Prop
  | absent : Exponent [] 0
  | given {mark : Char} {cs : List Char} {e : Int} (hmark : mark = 'e' ∨ mark = 'E')
      (h : signedValue? cs = some e) : Exponent (mark :: cs) e

namespace Exponent

variable {cs : List Char} {e e' : Int}

theorem unique (h : Exponent cs e) (h' : Exponent cs e') : e = e' := by
  cases h with
  | absent =>
    cases h'
    rfl
  | given _ hread =>
    cases h' with
    | given _ hread' => exact Option.some.inj (hread.symm.trans hread')

theorem head?_not_isNumberChar (h : Exponent cs e) :
    ∀ c ∈ cs.head?, Quantity.isNumberChar c = false := by
  cases h with
  | absent => exact nofun
  | given hmark =>
    rintro c ⟨⟩
    rcases hmark with rfl | rfl <;> rfl

/-- A power of ten that is not too large. -/
theorem multiplier?_eq (h : Exponent cs e) :
    multiplier? cs = if e.natAbs ≤ exponentLimit then some (decimalUnit e) else none := by
  cases h with
  | absent => rfl
  | given hmark hread => exact multiplier?_exponent hmark hread

end Exponent

inductive Magnitude : List Char → ℚ → Int → Prop
  | intro {number tail : List Char} {amount : ℚ} {e : Int} (hnumber : Numeral number amount)
      (hexponent : Exponent tail e) : Magnitude (number ++ tail) (amount * 10 ^ e) e

theorem Magnitude.of_numeral {cs : List Char} {v : ℚ} (h : Numeral cs v) : Magnitude cs v 0 := by
  have hmagnitude := Magnitude.intro h .absent
  rwa [List.append_nil, zpow_zero, mul_one] at hmagnitude

theorem exponent_plus (n : Nat) : Exponent ('e' :: '+' :: Nat.toDigits 10 n) n :=
  .given (.inl rfl) (signedValue?_plus n)

theorem exponent_minus {mark : Char} (hmark : mark = 'e' ∨ mark = 'E') (n : Nat) :
    Exponent (mark :: '-' :: Nat.toDigits 10 n) (-n) :=
  .given hmark (signedValue?_minus n)

/-- Digits with a point after the first of them, and an exponent that makes up for it. -/
theorem magnitude_withLeadingPoint (n : Nat) {k e : Int} {tail : List Char}
    (hexponent : Exponent tail e) (he : e = (Nat.toDigits 10 n).length + k - 1) :
    Magnitude (Decimal.withLeadingPoint (Nat.toDigits 10 n) ++ tail) (Decimal.value ⟨n, k⟩) e := by
  have hlength : 0 < (Nat.toDigits 10 n).length := List.length_pos_iff.2 Nat.toDigits_ne_nil
  have hk : k = -(((Nat.toDigits 10 n).length - 1 : ℕ) : Int) + e := by omega
  have hvalue := Decimal.value_neg_exponent n ((Nat.toDigits 10 n).length - 1)
  rw [Int.cast_natCast] at hvalue
  have hmagnitude := Magnitude.intro (numeral_withLeadingPoint n) hexponent
  rwa [← hvalue, ← Decimal.value_add_exponent, ← hk] at hmagnitude

/-- Digits with a point among them or in front of them. -/
theorem magnitude_withPoint (n : Nat) {k : Int} (hneg : k < 0) :
    Magnitude (Decimal.withPoint (Nat.toDigits 10 n) (-k).toNat) (Decimal.value ⟨n, k⟩) 0 := by
  have hpos : 0 < (-k).toNat := by omega
  have hk : -((-k).toNat : Int) = k := by omega
  have hvalue := Decimal.value_neg_exponent n (-k).toNat
  rw [hk, Int.cast_natCast] at hvalue
  rw [hvalue]
  exact .of_numeral (numeral_withPoint n hpos)

inductive Scientific : List Char → ℚ → Int → Prop
  | intro {sign cs : List Char} {factor e : Int} {v : ℚ} (hsign : Sign sign factor)
      (h : Magnitude cs v e) : Scientific (sign ++ cs) (factor * v) e

namespace Scientific

variable {cs : List Char} {v w : ℚ} {e e' : Int}

/-- What is written is read part by part. -/
theorem exists_parts (h : Scientific cs v e) :
    ∃ m : Decimal, number? (cs.takeWhile isNumberChar) = some m ∧
      Exponent (cs.dropWhile isNumberChar) e ∧ v = m.value * 10 ^ e := by
  obtain @⟨sign, _, factor, _, _, hsign, @⟨number, tail, amount, _, hnumber, hexponent⟩⟩ := h
  have hplain : ∀ c ∈ sign ++ number, isNumberChar c = true :=
    List.forall_mem_append.2 ⟨isNumberChar_of_mem_sign hsign, hnumber.isNumberChar⟩
  obtain ⟨htake, hdrop⟩ := takeWhile_dropWhile_append hplain hexponent.head?_not_isNumberChar
  obtain ⟨m, hm, hvalue⟩ := hnumber.exists_number? hsign
  rw [← List.append_assoc, htake, hdrop, ← mul_assoc, ← hvalue]
  exact ⟨m, hm, hexponent, rfl⟩

theorem unique (h : Scientific cs v e) (h' : Scientific cs w e') : v = w ∧ e = e' := by
  obtain ⟨m, hm, hexponent, rfl⟩ := h.exists_parts
  obtain ⟨m', hm', hexponent', rfl⟩ := h'.exists_parts
  obtain rfl := Option.some.inj (hm.symm.trans hm')
  obtain rfl := hexponent.unique hexponent'
  exact ⟨rfl, rfl⟩

theorem ofChars?_eq (h : Scientific cs v e) :
    ∃ q : Quantity, ofChars? cs = (if e.natAbs ≤ exponentLimit then some q else none) ∧
      q.amount.value = v := by
  obtain ⟨m, hm, hexponent, rfl⟩ := h.exists_parts
  refine ⟨⟨m.mul (decimalUnit e), !(cs.dropWhile isNumberChar).isEmpty⟩, ?_, ?_⟩
  · have hmultiplier := hexponent.multiplier?_eq
    simp only [ofChars?, hm, hmultiplier, Option.bind_eq_bind, Option.bind_some]
    split <;> rfl
  · rw [Decimal.value_mul, value_decimalUnit]

theorem plain (h : Magnitude cs v e) : Scientific cs v e := by
  have hplain := Scientific.intro .none h
  rwa [Int.cast_one, one_mul] at hplain

theorem minus (h : Magnitude cs v e) : Scientific ('-' :: cs) (-v) e := by
  have hminus := Scientific.intro .minus h
  rwa [Int.cast_neg, Int.cast_one, neg_one_mul] at hminus

theorem signed (h : Magnitude cs v e) (negative : Bool) :
    Scientific (Json.Number.signed negative cs) (if negative then -v else v) e := by
  cases negative with
  | false => exact plain h
  | true => exact minus h

end Scientific

end ReconcileTrigger.Quantity
