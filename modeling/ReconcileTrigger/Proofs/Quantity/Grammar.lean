import Mathlib.Data.List.TakeWhile
import Mathlib.Tactic.NormNum
import ReconcileTrigger.Proofs.Quantity

/-!
The written forms of quantities: a sign, digits with a point, and a unit or an exponent. A text is
read iff it has this form, and then as the exact product of its parts.
-/

namespace ReconcileTrigger.Quantity

open Text (Digits Sign digitsValue? digitsValue?_eq_some_iff signedValue? splitSign)

/-- A number without a sign: digits with a point among them, in front of them or behind them, or
without one. -/
inductive Numeral : List Char → ℚ → Prop
  | whole {digits : List Char} (h : Digits digits) : Numeral digits (Nat.ofDigitChars 10 digits 0)
  | point {whole fraction : List Char} (h : Digits (whole ++ fraction)) :
      Numeral (whole ++ '.' :: fraction)
        (Nat.ofDigitChars 10 (whole ++ fraction) 0 / 10 ^ fraction.length)

def binaryLetters : List (Char × Nat) :=
  [('K', 1), ('M', 2), ('G', 3), ('T', 4), ('P', 5), ('E', 6)]

def decimalLetters : List (Char × Int) :=
  [('n', -9), ('u', -6), ('m', -3), ('k', 3), ('M', 6), ('G', 9), ('T', 12), ('P', 15), ('E', 18)]

inductive Suffix : List Char → ℚ → Prop
  | none : Suffix [] 1
  | binary {letter : Char} {power : Nat} (h : (letter, power) ∈ binaryLetters) :
      Suffix [letter, 'i'] (1024 ^ power)
  | decimal {letter : Char} {exponent : Int} (h : (letter, exponent) ∈ decimalLetters) :
      Suffix [letter] (10 ^ exponent)
  | exponent {mark : Char} {sign digits : List Char} {factor : Int}
      (hmark : mark = 'e' ∨ mark = 'E') (hsign : Sign sign factor) (hdigits : Digits digits)
      (hlimit : Nat.ofDigitChars 10 digits 0 ≤ 1024) :
      Suffix (mark :: (sign ++ digits)) (10 ^ (factor * Nat.ofDigitChars 10 digits 0))

/-- The characters write a sign, a number and a suffix, whose product is the value. -/
inductive IsWritten : List Char → ℚ → List Char → Prop
  | intro {sign number suffix : List Char} {factor : Int} {amount multiplier : ℚ}
      (hsign : Sign sign factor) (hnumber : Numeral number amount)
      (hsuffix : Suffix suffix multiplier) :
      IsWritten (sign ++ number ++ suffix) (factor * amount * multiplier) suffix

theorem numeral_of_magnitude? {cs : List Char} {m : Decimal} (h : magnitude? cs = some m) :
    Numeral cs m.value := by
  have hsplit := List.takeWhile_append_dropWhile (p := Char.isDigit) (l := cs)
  unfold magnitude? at h
  split at h
  · rename_i fraction hdrop
    simp only [Option.map_eq_some_iff, Option.bind_eq_bind, Option.bind_eq_some_iff,
      Option.pure_def, Option.some_inj, digitsValue?_eq_some_iff] at h
    obtain ⟨_, ⟨_, ⟨hdigits, rfl⟩, rfl⟩, rfl⟩ := h
    have hnumeral := Numeral.point hdigits
    rw [← hdrop, hsplit] at hnumeral
    rw [Decimal.value_neg_exponent, Int.cast_natCast]
    exact hnumeral
  · rename_i hdrop
    simp only [Option.map_eq_some_iff, Option.bind_eq_bind, Option.bind_eq_some_iff,
      Option.pure_def, Option.some_inj, digitsValue?_eq_some_iff] at h
    obtain ⟨_, ⟨_, ⟨hdigits, rfl⟩, rfl⟩, rfl⟩ := h
    rw [hdrop] at hsplit
    rw [hsplit] at hdigits ⊢
    rw [Decimal.value_neg_exponent, Int.cast_natCast, List.length_nil, pow_zero, div_one]
    exact .whole hdigits
  · contradiction

namespace Numeral

variable {cs : List Char} {v : ℚ}

theorem exists_magnitude? (h : Numeral cs v) : ∃ m, magnitude? cs = some m ∧ m.value = v := by
  cases h with
  | whole h =>
    refine ⟨_, magnitude?_digits h.ne_nil h.isDigit, ?_⟩
    rw [Decimal.value_of_exponent_zero, Int.cast_natCast]
  | point h =>
    obtain ⟨hwhole, hfraction⟩ := List.forall_mem_append.1 h.isDigit
    refine ⟨_, magnitude?_point h.ne_nil hwhole hfraction, ?_⟩
    rw [Decimal.value_neg_exponent, Int.cast_natCast]

/-- A number has digits and a point only. -/
theorem isDigit_or_eq (h : Numeral cs v) : ∀ c ∈ cs, c.isDigit = true ∨ c = '.' := by
  cases h with
  | whole h => exact fun c hc => .inl (h.isDigit c hc)
  | point h =>
    obtain ⟨hwhole, hfraction⟩ := List.forall_mem_append.1 h.isDigit
    intro c hc
    rcases List.mem_append.1 hc with hc | hc
    · exact .inl (hwhole c hc)
    · rcases List.mem_cons.1 hc with rfl | hc
      · exact .inr rfl
      · exact .inl (hfraction c hc)

theorem isNumberChar (h : Numeral cs v) : ∀ c ∈ cs, Quantity.isNumberChar c = true := by
  intro c hc
  rcases h.isDigit_or_eq c hc with hdigit | rfl
  · exact isNumberChar_of_isDigit hdigit
  · rfl

theorem head?_ne_sign (h : Numeral cs v) : ∀ c ∈ cs.head?, c ≠ '+' ∧ c ≠ '-' := by
  intro c hc
  rcases h.isDigit_or_eq c (List.mem_of_mem_head? hc) with hdigit | rfl
  · exact Text.ne_sign_of_isDigit hdigit
  · decide

end Numeral

theorem number?_eq (cs : List Char) :
    number? cs = (magnitude? (splitSign cs).2).map fun m =>
      if (splitSign cs).1 = true then ⟨-m.coefficient, m.exponent⟩ else m := by
  rw [number?, Option.map_eq_bind]
  rfl

theorem value_signed {sign : List Char} {factor : Int} (h : Sign sign factor) (m : Decimal) :
    (if decide (factor < 0) = true then ⟨-m.coefficient, m.exponent⟩ else m : Decimal).value =
      factor * m.value := by
  cases h with
  | none => exact (one_mul m.value).symm
  | plus => exact (one_mul m.value).symm
  | minus => exact (Decimal.value_neg m).trans (neg_one_mul m.value).symm

/-- What is read in front of a suffix is a number with a sign. -/
theorem exists_numeral_of_number? {cs : List Char} {m : Decimal} (h : number? cs = some m) :
    ∃ sign number factor amount, cs = sign ++ number ∧ Sign sign factor ∧
      Numeral number amount ∧ m.value = factor * amount := by
  rw [number?_eq, Option.map_eq_some_iff] at h
  obtain ⟨magnitude, hmagnitude, rfl⟩ := h
  obtain ⟨sign, factor, hsign, hcs, hnegative⟩ := Text.exists_sign cs
  refine ⟨sign, _, factor, _, hcs, hsign, numeral_of_magnitude? hmagnitude, ?_⟩
  simp only [hnegative, value_signed hsign]

/-- A number with a sign is read in front of a suffix. -/
theorem Numeral.exists_number? {sign number : List Char} {factor : Int} {amount : ℚ}
    (hsign : Sign sign factor) (h : Numeral number amount) :
    ∃ m, number? (sign ++ number) = some m ∧ m.value = factor * amount := by
  obtain ⟨magnitude, hmagnitude, rfl⟩ := h.exists_magnitude?
  refine ⟨_, ?_, value_signed hsign magnitude⟩
  rw [number?_eq, hsign.splitSign_append h.head?_ne_sign, hmagnitude]
  rfl

theorem value_binaryUnit (power : Nat) : (binaryUnit power).value = 1024 ^ power := by
  rw [binaryUnit, Decimal.value_of_exponent_zero, Nat.pow_eq]
  push_cast
  rfl

/-- Only exponents that start with their mark are no units. -/
theorem lookup_units_exponent {mark : Char} {cs : List Char} {e : Int}
    (hmark : mark = 'e' ∨ mark = 'E') (h : signedValue? cs = some e) :
    units.lookup (mark :: cs) = none := by
  have hempty : cs.isEmpty = false := List.isEmpty_eq_false_iff.2 fun hnil => by
    rw [hnil] at h
    contradiction
  have hbinary : (cs == ['i']) = false := beq_false_of_ne fun hi => by
    rw [hi] at h
    contradiction
  rcases hmark with rfl | rfl
  · simp [units, List.lookup_cons]
  · simp [units, List.lookup_cons, hempty, hbinary]

theorem multiplier?_exponent {mark : Char} {cs : List Char} {e : Int}
    (hmark : mark = 'e' ∨ mark = 'E') (h : signedValue? cs = some e) :
    multiplier? (mark :: cs) =
      if e.natAbs ≤ exponentLimit then some (decimalUnit e) else none := by
  simp only [multiplier?, lookup_units_exponent hmark h, if_pos hmark, h]

namespace Suffix

variable {cs : List Char} {v : ℚ}

theorem exists_multiplier? (h : Suffix cs v) : ∃ u, multiplier? cs = some u ∧ u.value = v := by
  cases h with
  | none => exact ⟨decimalUnit 0, rfl, by rw [value_decimalUnit, zpow_zero]⟩
  | @binary letter power h =>
    refine ⟨binaryUnit power, ?_, value_binaryUnit power⟩
    simp only [binaryLetters, List.mem_cons, Prod.mk.injEq, List.not_mem_nil, or_false] at h
    rcases h with ⟨rfl, rfl⟩ | ⟨rfl, rfl⟩ | ⟨rfl, rfl⟩ | ⟨rfl, rfl⟩ | ⟨rfl, rfl⟩ | ⟨rfl, rfl⟩
    all_goals rfl
  | @decimal letter e h =>
    refine ⟨decimalUnit e, ?_, value_decimalUnit e⟩
    simp only [decimalLetters, List.mem_cons, Prod.mk.injEq, List.not_mem_nil, or_false] at h
    rcases h with ⟨rfl, rfl⟩ | ⟨rfl, rfl⟩ | ⟨rfl, rfl⟩ | ⟨rfl, rfl⟩ | ⟨rfl, rfl⟩ | ⟨rfl, rfl⟩ |
      ⟨rfl, rfl⟩ | ⟨rfl, rfl⟩ | ⟨rfl, rfl⟩ <;> rfl
  | @exponent mark sign digits factor hmark hsign hdigits hlimit =>
    have hread := Text.signedValue?_eq_some_iff.2 ⟨sign, factor, digits, rfl, hsign, hdigits, rfl⟩
    refine ⟨decimalUnit _, ?_, value_decimalUnit _⟩
    rw [multiplier?_exponent hmark hread, hsign.natAbs_mul, exponentLimit, if_pos hlimit]

/-- No suffix could be taken for a part of the number. -/
theorem head?_not_isNumberChar (h : Suffix cs v) :
    ∀ c ∈ cs.head?, Quantity.isNumberChar c = false := by
  have hbinary : ∀ e ∈ binaryLetters, Quantity.isNumberChar e.1 = false := by decide
  have hdecimal : ∀ e ∈ decimalLetters, Quantity.isNumberChar e.1 = false := by decide
  cases h with
  | none => exact nofun
  | binary h =>
    rintro c ⟨⟩
    exact hbinary _ h
  | decimal h =>
    rintro c ⟨⟩
    exact hdecimal _ h
  | exponent hmark =>
    rintro c ⟨⟩
    rcases hmark with rfl | rfl <;> rfl

end Suffix

theorem units_eq_letters :
    units = binaryLetters.map (fun e => ([e.1, 'i'], binaryUnit e.2)) ++
      decimalLetters.map (fun e => ([e.1], decimalUnit e.2)) := rfl

theorem suffix_of_lookup_units {cs : List Char} {u : Decimal} (h : units.lookup cs = some u) :
    Suffix cs u.value := by
  obtain ⟨before, after, heq, _⟩ := List.lookup_eq_some_iff.1 h
  have hmem : (cs, u) ∈ units := by
    rw [heq]
    exact List.mem_append_right _ (List.mem_cons_self ..)
  rw [units_eq_letters, List.mem_append, List.mem_map, List.mem_map] at hmem
  rcases hmem with ⟨e, he, heq⟩ | ⟨e, he, heq⟩
  · obtain ⟨rfl, rfl⟩ := Prod.mk.inj heq
    rw [value_binaryUnit]
    exact .binary he
  · obtain ⟨rfl, rfl⟩ := Prod.mk.inj heq
    rw [value_decimalUnit]
    exact .decimal he

theorem suffix_of_multiplier? {cs : List Char} {u : Decimal} (h : multiplier? cs = some u) :
    Suffix cs u.value := by
  unfold multiplier? at h
  split at h
  · obtain rfl := Option.some.inj h
    rw [value_decimalUnit, zpow_zero]
    exact .none
  · split at h
    · rename_i hunit
      obtain rfl := Option.some.inj h
      exact suffix_of_lookup_units hunit
    · split at h
      · rename_i hmark
        split at h
        · rename_i e he
          split at h
          · rename_i hlimit
            obtain rfl := Option.some.inj h
            obtain ⟨sign, factor, digits, rfl, hsign, hdigits, rfl⟩ :=
              Text.signedValue?_eq_some_iff.1 he
            rw [value_decimalUnit]
            refine .exponent hmark hsign hdigits ?_
            rwa [hsign.natAbs_mul, exponentLimit] at hlimit
          · contradiction
        · contradiction
      · contradiction

theorem isNumberChar_of_mem_sign {sign : List Char} {factor : Int} (h : Sign sign factor) :
    ∀ c ∈ sign, isNumberChar c = true := by
  cases h <;> simp [isNumberChar]

/-- What is written is read, and has the value that is written. -/
theorem IsWritten.exists_ofChars? {cs suffix : List Char} {v : ℚ} (h : IsWritten cs v suffix) :
    ∃ q, ofChars? cs = some q ∧ q.amount.value = v ∧ q.hasSuffix = !suffix.isEmpty := by
  obtain @⟨sign, number, suffix, factor, amount, multiplier, hsign, hnumber, hsuffix⟩ := h
  have hplain : ∀ c ∈ sign ++ number, isNumberChar c = true :=
    List.forall_mem_append.2 ⟨isNumberChar_of_mem_sign hsign, hnumber.isNumberChar⟩
  obtain ⟨m, hm, hvalue⟩ := hnumber.exists_number? hsign
  obtain ⟨u, hu, hmultiplier⟩ := hsuffix.exists_multiplier?
  refine ⟨⟨m.mul u, !suffix.isEmpty⟩, ?_, ?_, rfl⟩
  · rw [ofChars?_append hplain hsuffix.head?_not_isNumberChar, hm, hu]
    rfl
  · rw [Decimal.value_mul, hvalue, hmultiplier]

/-- What is read is written. -/
theorem exists_isWritten_of_ofChars? {cs : List Char} {q : Quantity} (h : ofChars? cs = some q) :
    ∃ suffix, IsWritten cs q.amount.value suffix := by
  have hsplit := List.takeWhile_append_dropWhile (p := isNumberChar) (l := cs)
  simp only [ofChars?, Option.bind_eq_bind, Option.bind_eq_some_iff, Option.pure_def,
    Option.some_inj] at h
  obtain ⟨m, hm, u, hu, rfl⟩ := h
  obtain ⟨sign, number, factor, amount, hfront, hsign, hnumber, hvalue⟩ :=
    exists_numeral_of_number? hm
  have hwritten := IsWritten.intro hsign hnumber (suffix_of_multiplier? hu)
  rw [← hfront, hsplit, ← hvalue, ← Decimal.value_mul] at hwritten
  exact ⟨_, hwritten⟩

/-- A text is a quantity iff it is a number with a sign and a suffix. It is read as the exact
product of these, and it has a suffix iff one is written; any other text is refused. Quantities are
the same iff their values are. -/
theorem parse_reads_what_is_written (s : String) :
    (∀ v suffix, IsWritten s.toList v suffix →
      ∃ q, parse s = .ok q ∧ q.amount.value = v ∧ (q.hasSuffix = true ↔ suffix ≠ [])) ∧
    ((¬ ∃ v suffix, IsWritten s.toList v suffix) → parse s = .error (.invalidQuantity s)) ∧
    (∀ t a b, parse s = .ok a → parse t = .ok b →
      (a.sameAmount b = true ↔ a.amount.value = b.amount.value)) := by
  refine ⟨?_, ?_, ?_⟩
  · intro v suffix h
    obtain ⟨q, hread, hvalue, hsuffix⟩ := h.exists_ofChars?
    refine ⟨q, by rw [parse, hread], hvalue, ?_⟩
    rw [hsuffix, Bool.not_eq_true', List.isEmpty_eq_false_iff]
  · intro h
    unfold parse
    split
    · rename_i q hread
      exact absurd ⟨_, exists_isWritten_of_ofChars? hread⟩ h
    · rfl
  · intro t a b _ _
    exact Decimal.sameValue_iff a.amount b.amount

/-- A point in front of the digits, and an exponent with a sign and with a zero in front. -/
theorem isWritten_half_thousand : IsWritten "-.5E+03".toList (-500) ['E', '+', '0', '3'] := by
  have hdigits : Digits ['5'] := ⟨List.cons_ne_nil _ _, List.all_eq_true.1 rfl⟩
  have hexponent : Digits ['0', '3'] := ⟨List.cons_ne_nil _ _, List.all_eq_true.1 rfl⟩
  have hnumber : Numeral ([] ++ '.' :: ['5']) _ := .point hdigits
  have hsuffix : Suffix ('E' :: (['+'] ++ ['0', '3'])) _ :=
    .exponent (.inr rfl) .plus hexponent (by decide)
  have h := IsWritten.intro .minus hnumber hsuffix
  have hfive : Nat.ofDigitChars 10 ([] ++ ['5']) 0 = 5 := by decide
  have hthree : Nat.ofDigitChars 10 ['0', '3'] 0 = 3 := by decide
  have hvalue : ((-1 : Int) : ℚ) * ((5 : ℕ) / 10 ^ ['5'].length) * 10 ^ ((1 : Int) * (3 : ℕ)) =
      -500 := by
    norm_num
  rw [hfive, hthree, hvalue] at h
  exact h

/-- An exponent of 1025 is not read. -/
theorem parse_reads_what_is_written_half_thousand :
    (∃ q, parse "-.5E+03" = .ok q ∧ q.amount.value = -500 ∧ q.hasSuffix = true) ∧
      parse "1e1025" = .error (.invalidQuantity "1e1025") ∧
      sameAmount ⟨⟨-5, 2⟩, true⟩ ⟨⟨-500, 0⟩, false⟩ = true := by
  obtain ⟨hread, _, hsame⟩ := parse_reads_what_is_written "-.5E+03"
  obtain ⟨_, hrefused, _⟩ := parse_reads_what_is_written "1e1025"
  refine ⟨?_, hrefused ?_, (hsame "-500" _ _ (by rfl) (by rfl)).2 ?_⟩
  · obtain ⟨q, hq, hvalue, hsuffix⟩ := hread _ _ isWritten_half_thousand
    exact ⟨q, hq, hvalue, hsuffix.2 (by decide)⟩
  · rintro ⟨v, suffix, h⟩
    obtain ⟨q, hq, _⟩ := h.exists_ofChars?
    have hnone : ofChars? "1e1025".toList = none := by decide +kernel
    rw [hnone] at hq
    contradiction
  · norm_num [Decimal.value]

end ReconcileTrigger.Quantity
