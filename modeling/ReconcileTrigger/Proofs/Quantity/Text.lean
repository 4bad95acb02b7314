import ReconcileTrigger.Proofs.Quantity.Scientific

/-!
The written form of a quantity. Quantities of the same value are written as the same text, others
are not, and what is written is read as the same quantity, as long as its exponent is within the
limit for reading.
-/

namespace ReconcileTrigger.Quantity

open Text (signedValue?)

private theorem magnitudeText_eq (n : Nat) (k : Int) :
    Decimal.magnitudeText n k =
      if 15 < k then Nat.toDigits 10 n ++ 'e' :: '+' :: Nat.toDigits 10 k.toNat
      else if 0 ≤ k then Nat.toDigits 10 n ++ List.replicate k.toNat '0'
      else if (Nat.toDigits 10 n).length + 5 < (-k).toNat then
        Decimal.withLeadingPoint (Nat.toDigits 10 n) ++
          'E' :: '-' :: Nat.toDigits 10 ((-k).toNat + 1 - (Nat.toDigits 10 n).length)
      else Decimal.withPoint (Nat.toDigits 10 n) (-k).toNat := by
  simp only [Decimal.magnitudeText, List.append_assoc, List.cons_append, List.nil_append]

/-- A magnitude is written as a number and an exponent, which give its value. -/
theorem exists_magnitude_magnitudeText (n : Nat) (k : Int) :
    ∃ e, Magnitude (Decimal.magnitudeText n k) (Decimal.value ⟨n, k⟩) e := by
  rw [magnitudeText_eq]
  split
  · rename_i hlarge
    have hnumber : Numeral (Nat.toDigits 10 n) n := by
      simpa using numeral_zeros n 0
    have hmagnitude := Magnitude.intro hnumber (exponent_plus k.toNat)
    rw [Int.toNat_of_nonneg (by omega)] at hmagnitude
    exact ⟨k, hmagnitude⟩
  · split
    · rename_i hnonneg
      have hmagnitude := Magnitude.of_numeral (numeral_zeros n k.toNat)
      rw [← zpow_natCast, Int.toNat_of_nonneg hnonneg] at hmagnitude
      exact ⟨0, hmagnitude⟩
    · rename_i hneg
      split
      · rename_i hsmall
        refine ⟨_, magnitude_withLeadingPoint n (exponent_minus (.inr rfl) _) ?_⟩
        omega
      · exact ⟨0, magnitude_withPoint n (Int.lt_of_not_ge hneg)⟩

/-- The canonical form of a value is written as a number and an exponent, which give the value. -/
theorem exists_scientific_chars (a : Decimal) : ∃ e, Scientific a.chars a.value e := by
  rw [Decimal.chars, ← Decimal.value_normalize a]
  obtain ⟨coefficient, k⟩ := a.normalize
  obtain ⟨e, hmagnitude⟩ := exists_magnitude_magnitudeText coefficient.natAbs k
  refine ⟨e, ?_⟩
  split
  · rename_i hneg
    dsimp only at hneg
    have habs : (coefficient.natAbs : Int) = -coefficient := by omega
    have hminus := Scientific.minus hmagnitude
    rwa [habs, Decimal.value_neg ⟨coefficient, k⟩, neg_neg] at hminus
  · rename_i hnonneg
    dsimp only at hnonneg
    have habs : (coefficient.natAbs : Int) = coefficient := by omega
    rw [habs] at hmagnitude
    exact .plain hmagnitude

/-- The same text is written for the same values only. -/
theorem text_eq_iff {a b : Decimal} : a.text = b.text ↔ a.value = b.value := by
  constructor
  · intro h
    have hchars : a.chars = b.chars := by
      simpa [Decimal.text] using congrArg String.toList h
    obtain ⟨e, ha⟩ := exists_scientific_chars a
    obtain ⟨e', hb⟩ := exists_scientific_chars b
    exact (ha.unique (hchars ▸ hb)).1
  · intro h
    rw [Decimal.text, Decimal.text, Decimal.chars, Decimal.chars, Decimal.normalize_eq_iff.2 h]

def writtenExponent? (cs : List Char) : Option Int :=
  match cs.dropWhile fun c => c ≠ 'e' && c ≠ 'E' with
  | [] => some 0
  | _ :: exponent => signedValue? exponent

theorem Scientific.writtenExponent?_eq {cs : List Char} {v : ℚ} {e : Int} (h : Scientific cs v e) :
    writtenExponent? cs = some e := by
  obtain @⟨sign, _, factor, _, _, hsign, @⟨number, tail, amount, _, hnumber, hexponent⟩⟩ := h
  have hplain : ∀ c ∈ sign ++ number, isNumberChar c = true :=
    List.forall_mem_append.2 ⟨isNumberChar_of_mem_sign hsign, hnumber.isNumberChar⟩
  have hunmarked : ∀ c ∈ sign ++ number, (decide (c ≠ 'e') && decide (c ≠ 'E')) = true := by
    intro c hc
    rw [Bool.and_eq_true, decide_eq_true_eq, decide_eq_true_eq]
    constructor
    · rintro rfl
      exact absurd (hplain _ hc) (by decide)
    · rintro rfl
      exact absurd (hplain _ hc) (by decide)
  rw [← List.append_assoc, writtenExponent?, List.dropWhile_append_of_pos hunmarked]
  cases hexponent with
  | absent => rfl
  | given hmark hread =>
    rcases hmark with rfl | rfl
    · exact hread
    · exact hread

/-- Quantities are the same iff they have the same written form. That form is read as the same
quantity, unless the exponent in it is beyond the limit; then it is refused. -/
theorem text_is_canonical_and_read_back :
    (∀ a b : Quantity, a.sameAmount b = true ↔ a.text = b.text) ∧
    ∀ q : Quantity, ∃ e, writtenExponent? q.text.toList = some e ∧
      (e.natAbs ≤ 1024 → ∃ r, parse q.text = .ok r ∧ r.sameAmount q = true) ∧
      (1024 < e.natAbs → parse q.text = .error (.invalidQuantity q.text)) := by
  refine ⟨?_, ?_⟩
  · intro a b
    rw [text, text, text_eq_iff, sameAmount, Decimal.sameValue_iff]
  · intro q
    obtain ⟨e, he⟩ := exists_scientific_chars q.amount
    have htext : q.text.toList = q.amount.chars := String.toList_ofList
    obtain ⟨r, hread, hvalue⟩ := he.ofChars?_eq
    refine ⟨e, ?_, ?_, ?_⟩
    · rw [htext, he.writtenExponent?_eq]
    · intro hlimit
      refine ⟨r, ?_, (Decimal.sameValue_iff _ _).2 hvalue⟩
      rw [parse, htext, hread, exponentLimit, if_pos hlimit]
    · intro hlimit
      rw [parse, htext, hread, exponentLimit, if_neg (Nat.not_le.2 hlimit)]

/-- The written form of `10e1024` is not read any more, that of `-1e18` is. -/
theorem text_is_canonical_and_read_back_limits :
    (∃ q, parse "10e1024" = .ok q ∧ q.text = "1e+1025" ∧
      parse "1e+1025" = .error (.invalidQuantity "1e+1025")) ∧
    ∃ q, parse "-1e18" = .ok q ∧ q.text = "-1e+18" ∧
      ∃ r, parse "-1e+18" = .ok r ∧ r.sameAmount q = true := by
  obtain ⟨_, hback⟩ := text_is_canonical_and_read_back
  have htext : (⟨⟨10, 1024⟩, true⟩ : Quantity).text = "1e+1025" := by decide +kernel
  have htext' : (⟨⟨-1, 18⟩, true⟩ : Quantity).text = "-1e+18" := by decide +kernel
  obtain ⟨e, he, _, hrefused⟩ := hback ⟨⟨10, 1024⟩, true⟩
  obtain ⟨e', he', hread, _⟩ := hback ⟨⟨-1, 18⟩, true⟩
  rw [htext] at he hrefused
  rw [htext'] at he' hread
  obtain rfl : 1025 = e := Option.some.inj he
  obtain rfl : 18 = e' := Option.some.inj he'
  exact ⟨⟨_, rfl, htext, hrefused (by decide)⟩, _, rfl, htext', hread (by decide)⟩

end ReconcileTrigger.Quantity
