import ReconcileTrigger.Proofs.Binary64.Rounding
import ReconcileTrigger.Proofs.Json.Equivalence
import ReconcileTrigger.Proofs.Json.Number

/-!
Which values are encodings of the same amount. Numbers are compared by the values of their written
forms, which are quantities all of them. Texts are compared by their amounts only if one of them
has a suffix, so two texts without a suffix may be equivalent to a third but not to each other.
Nothing else stands in the way of transitivity.
-/

namespace ReconcileTrigger.Json

/-- Equal texts, or quantities of the same amount of which one has a suffix at least. -/
def SameText (s t : String) : Prop :=
  s = t ∨ ∃ p q, Quantity.parse s = .ok p ∧ Quantity.parse t = .ok q ∧
    (p.hasSuffix = true ∨ q.hasSuffix = true) ∧ p.amount.value = q.amount.value

def IsPlainQuantity (s : String) : Prop :=
  ∃ q, Quantity.parse s = .ok q ∧ q.hasSuffix = false

namespace SameText

variable {s t u : String}

theorem symm (h : SameText s t) : SameText t s := by
  rcases h with rfl | ⟨p, q, hp, hq, hsuffix, hvalue⟩
  · exact .inl rfl
  · exact .inr ⟨q, p, hq, hp, hsuffix.symm, hvalue.symm⟩

/-- At the ends of a chain, texts stay apart only if neither has a suffix. -/
theorem not_iff_of_chain (hst : SameText s t) (htu : SameText t u) :
    ¬ SameText s u ↔ s ≠ u ∧ IsPlainQuantity s ∧ IsPlainQuantity u := by
  constructor
  · intro h
    refine ⟨fun heq => h (.inl heq), ?_⟩
    rcases hst with rfl | ⟨p, q, hp, hq, _, hpq⟩
    · exact absurd htu h
    · rcases htu with rfl | ⟨q', r, hq', hr, _, hqr⟩
      · exact absurd (.inr ⟨p, q, hp, hq, ‹_›, hpq⟩) h
      · obtain rfl := Except.ok.inj (hq.symm.trans hq')
        have hplain : ¬ (p.hasSuffix = true ∨ r.hasSuffix = true) := fun hsuffix =>
          h (.inr ⟨p, r, hp, hr, hsuffix, hpq.trans hqr⟩)
        rw [not_or, Bool.not_eq_true, Bool.not_eq_true] at hplain
        exact ⟨⟨p, hp, hplain.1⟩, r, hr, hplain.2⟩
  · rintro ⟨hne, ⟨p, hp, hplain⟩, r, hr, hplain'⟩ h
    rcases h with heq | ⟨p', r', hp', hr', hsuffix, _⟩
    · exact hne heq
    · obtain rfl := Except.ok.inj (hp.symm.trans hp')
      obtain rfl := Except.ok.inj (hr.symm.trans hr')
      rw [hplain, hplain'] at hsuffix
      exact hsuffix.elim Bool.false_ne_true Bool.false_ne_true

end SameText

/-- The written form of a number is read, as a quantity of its decimal value. -/
theorem Number.exists_isWritten_text (n : Number) :
    ∃ q suffix, Quantity.parse n.text = .ok q ∧ q.amount.value = n.decimal ∧
      Quantity.IsWritten n.text.toList n.decimal suffix := by
  obtain ⟨q, hread, hvalue⟩ := n.exists_ofChars?_chars
  obtain ⟨suffix, hwritten⟩ := Quantity.exists_isWritten_of_ofChars? hread
  rw [hvalue] at hwritten
  have htext : n.text.toList = n.chars := String.toList_ofList
  exact ⟨q, suffix, Quantity.parse_eq_ok_iff.2 (htext ▸ hread), hvalue, htext ▸ hwritten⟩

theorem sameQuantity_iff {s t : String} :
    sameQuantity s t = true ↔ ∃ p q, Quantity.parse s = .ok p ∧ Quantity.parse t = .ok q ∧
      (p.hasSuffix = true ∨ q.hasSuffix = true) ∧ p.amount.value = q.amount.value := by
  simp only [Quantity.parse_eq_ok_iff]
  unfold sameQuantity
  constructor
  · intro h
    split at h
    · rename_i p q hp hq
      rw [Bool.and_eq_true, Bool.or_eq_true] at h
      exact ⟨p, q, hp, hq, h.1, (Decimal.sameValue_iff _ _).1 h.2⟩
    · contradiction
  · rintro ⟨p, q, hp, hq, hsuffix, hvalue⟩
    simp only [hp, hq]
    rw [Bool.and_eq_true, Bool.or_eq_true]
    exact ⟨hsuffix, (Decimal.sameValue_iff _ _).2 hvalue⟩

namespace Value

theorem equivalent_number_iff {m n : Number} :
    (number m).equivalent (number n) = true ↔ m.decimal = n.decimal := by
  rw [equivalent, Bool.or_eq_true, ← Number.sameValue_iff]
  refine or_iff_right_of_imp fun h => ?_
  exact Number.sameValue_iff.2 (Number.decimal_eq_of_same h)

theorem equivalent_string_iff {s t : String} :
    (string s).equivalent (string t) = true ↔ SameText s t := by
  rw [equivalent, Bool.or_eq_true, sameQuantity_iff, same, beq_iff_eq, SameText]

/-- Values other than two numbers or two texts are compared as they are. -/
theorem equivalent_eq_same {a b : Value} (hnumbers : ∀ m n, a = number m → b ≠ number n)
    (hstrings : ∀ s t, a = string s → b ≠ string t) : a.equivalent b = a.same b := by
  unfold equivalent
  split
  · exact absurd rfl (hnumbers _ _ rfl)
  · exact absurd rfl (hstrings _ _ rfl)
  · exact Bool.or_false _

/-- Neither a number nor a text. -/
def ComparedAsIs (v : Value) : Prop :=
  (∀ n, v ≠ number n) ∧ ∀ s, v ≠ string s

/-- What equivalent values have in common. -/
theorem cases_of_equivalent {a b : Value} (h : a.equivalent b = true) :
    (∃ m n, a = number m ∧ b = number n ∧ m.decimal = n.decimal) ∨
      (∃ s t, a = string s ∧ b = string t ∧ SameText s t) ∨
        (a.ComparedAsIs ∧ b.ComparedAsIs ∧ a.same b = true) := by
  cases a with
  | number m =>
    cases b with
    | number n => exact .inl ⟨m, n, rfl, rfl, equivalent_number_iff.1 h⟩
    | _ => contradiction
  | string s =>
    cases b with
    | string t => exact .inr (.inl ⟨s, t, rfl, rfl, equivalent_string_iff.1 h⟩)
    | _ => contradiction
  | _ =>
    rw [equivalent_eq_same] at h
    · refine .inr (.inr ⟨⟨nofun, nofun⟩, ⟨?_, ?_⟩, h⟩)
      · rintro n rfl
        contradiction
      · rintro s rfl
        contradiction
    · exact fun _ _ => nofun
    · exact fun _ _ => nofun

theorem equivalent_symm {a b : Value} (h : a.equivalent b = true) : b.equivalent a = true := by
  rcases cases_of_equivalent h with ⟨m, n, rfl, rfl, hvalue⟩ | ⟨s, t, rfl, rfl, htext⟩ |
    ⟨_, _, hsame⟩
  · exact equivalent_number_iff.2 hvalue.symm
  · exact equivalent_string_iff.2 htext.symm
  · exact equivalent_of_same (same_symm hsame)

theorem equivalent_comm (a b : Value) : a.equivalent b = b.equivalent a :=
  Bool.eq_iff_iff.2 ⟨equivalent_symm, equivalent_symm⟩

/-- At the ends of a chain, values are apart iff they are different quantities without a suffix. -/
theorem not_equivalent_iff_of_chain {a b c : Value} (hab : a.equivalent b = true)
    (hbc : b.equivalent c = true) :
    ¬ a.equivalent c = true ↔ ∃ s u, a = string s ∧ c = string u ∧ s ≠ u ∧
      IsPlainQuantity s ∧ IsPlainQuantity u := by
  rcases cases_of_equivalent hab with ⟨m, n, rfl, rfl, hvalue⟩ | ⟨s, t, rfl, rfl, htext⟩ |
    ⟨ha, hb, hsame⟩
  · obtain ⟨n', k, hn, rfl, hvalue'⟩ | ⟨_, _, hn, _⟩ | ⟨hn, _⟩ := cases_of_equivalent hbc
    · obtain rfl := number.inj hn
      refine iff_of_false (not_not.2 (equivalent_number_iff.2 (hvalue.trans hvalue'))) ?_
      rintro ⟨_, _, hm, _⟩
      contradiction
    · contradiction
    · exact absurd rfl (hn.1 n)
  · obtain ⟨_, _, ht, _⟩ | ⟨t', u, ht, rfl, htext'⟩ | ⟨ht, _⟩ := cases_of_equivalent hbc
    · contradiction
    · obtain rfl := string.inj ht
      rw [equivalent_string_iff, htext.not_iff_of_chain htext']
      constructor
      · intro h
        exact ⟨s, u, rfl, rfl, h⟩
      · rintro ⟨_, _, hs, hu, h⟩
        rwa [string.inj hs, string.inj hu]
    · exact absurd rfl (ht.2 t)
  · obtain ⟨n, _, hn, _⟩ | ⟨t, _, ht, _⟩ | ⟨_, _, hsame'⟩ := cases_of_equivalent hbc
    · exact absurd hn (hb.1 n)
    · exact absurd ht (hb.2 t)
    · refine iff_of_false (not_not.2 (equivalent_of_same (same_trans hsame hsame'))) ?_
      rintro ⟨s, _, hs, _⟩
      exact ha.2 s hs

end Value

/-- Two numbers are equivalent iff their written forms have the same value, and each written form is
a quantity of its value; that of a binary number is the shortest decimal that is rounded to it. Two
texts are equivalent iff they are equal, or quantities of the same amount of which one has a suffix
at least; other values iff they are equal. Equivalence is reflexive and symmetric. At the ends of a
chain, values are not equivalent iff they are different quantities without a suffix. -/
theorem equivalence_of_encodings :
    (∀ m n : Number,
      ((Value.number m).equivalent (.number n) = true ↔ m.decimal = n.decimal)) ∧
    (∀ n : Number, ∃ q suffix, Quantity.parse n.text = .ok q ∧ q.amount.value = n.decimal ∧
      Quantity.IsWritten n.text.toList n.decimal suffix) ∧
    (∀ x : Binary64, x.IsShortest (x.shortest .toEven)) ∧
    (∀ s t : String, (Value.string s).equivalent (.string t) = true ↔
      s = t ∨ ∃ p q, Quantity.parse s = .ok p ∧ Quantity.parse t = .ok q ∧
        (p.hasSuffix = true ∨ q.hasSuffix = true) ∧ p.amount.value = q.amount.value) ∧
    (∀ a b : Value, (∀ m n, a = .number m → b ≠ .number n) →
      (∀ s t, a = .string s → b ≠ .string t) → a.equivalent b = a.same b) ∧
    (∀ a : Value, a.equivalent a = true) ∧
    (∀ a b : Value, a.equivalent b = b.equivalent a) ∧
    ∀ a b c : Value, a.equivalent b = true → b.equivalent c = true →
      (¬ a.equivalent c = true ↔ ∃ s u, a = .string s ∧ c = .string u ∧ s ≠ u ∧
        IsPlainQuantity s ∧ IsPlainQuantity u) := by
  refine ⟨fun _ _ => Value.equivalent_number_iff, Number.exists_isWritten_text,
    Binary64.isShortest_shortest .toEven, fun _ _ => Value.equivalent_string_iff,
    fun _ _ => Value.equivalent_eq_same, Value.equivalent_refl, Value.equivalent_comm,
    fun _ _ _ => Value.not_equivalent_iff_of_chain⟩

/-- The binary number `2 ^ 53`; no binary number is the integer after it. -/
def wide : Binary64 :=
  ⟨false, Binary64.leastFull, 1075, by decide, by decide, .inr (Nat.le_refl _)⟩

/-- `1.0` and `1` are both the same amount as `1000m` and stay apart. A number is never a text, and
not rounded before it is compared. -/
theorem equivalence_of_encodings_versions :
    ((Value.string "1.0").equivalent (.string "1000m") = true ∧
      (Value.string "1000m").equivalent (.string "1") = true ∧
      ¬ (Value.string "1.0").equivalent (.string "1") = true) ∧
    (Value.number (.integer 1)).equivalent (.string "1") = false ∧
    (Number.integer 9007199254740992).decimal = (Number.binary wide).decimal ∧
    (Number.integer 9007199254740993).decimal ≠ (Number.binary wide).decimal := by
  obtain ⟨hnumbers, _, _, _, hothers, _, _, hchain⟩ := equivalence_of_encodings
  have hleft : (Value.string "1.0").equivalent (.string "1000m") = true := by decide +kernel
  have hright : (Value.string "1000m").equivalent (.string "1") = true := by decide +kernel
  have hplain : IsPlainQuantity "1.0" := ⟨⟨⟨10, -1⟩, false⟩, rfl, rfl⟩
  have hplain' : IsPlainQuantity "1" := ⟨⟨⟨1, 0⟩, false⟩, rfl, rfl⟩
  refine ⟨⟨hleft, hright, (hchain _ _ _ hleft hright).2 ?_⟩, ?_, ?_, ?_⟩
  · exact ⟨"1.0", "1", rfl, rfl, by decide, hplain, hplain'⟩
  · exact hothers (.number (.integer 1)) (.string "1") (fun _ _ _ => nofun) (fun _ _ => nofun)
  · rw [← hnumbers]
    decide +kernel
  · rw [ne_eq, ← hnumbers]
    decide +kernel

end ReconcileTrigger.Json
