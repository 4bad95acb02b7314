import Mathlib.Data.Option.Basic
import ReconcileTrigger.Environment
import ReconcileTrigger.Proofs.Text.Digits

/-!
The values of variables. A value is first tried as a flag, an integer and a binary number, and
where one of them can be read, the variable says nothing else. So a text comes through as it was
written only if it cannot be read as any of them, or if it is the text that what is read has.
-/

namespace ReconcileTrigger.Environment

open Binary64 (Datum)
open Text (digitsValue? signedValue?)

def scalar? (value : String) : Option Document :=
  let cs := value.toList
  let word := Text.lowerCase cs
  if word = "true" then some (.flag true)
  else if word = "false" then some (.flag false)
  else
    match integer? cs, real? cs with
    | some n, _ => some (.integer n)
    | none, some x => some (.real x)
    | none, none => none

section Document

variable {key value : String} {d : Document}

/-- The document of a variable is the scalar that its value is taken for, or else a list or the
text itself. -/
theorem document_eq (key value : String) : document key value = (scalar? value).getD
    (if listKeys.contains key then
      .list ((Text.split ',' value.toList).map fun part => .text (String.ofList part))
    else .text value) := by
  simp only [document, scalar?]
  split
  · rfl
  · split
    · rfl
    · cases integer? value.toList with
      | some n => rfl
      | none => cases real? value.toList <;> rfl

theorem integer?_eq_some_iff {cs : List Char} {n : Int} :
    integer? cs = some n ↔ signedValue? cs = some n ∧ Word.FitsSigned n := by
  simp only [integer?, Option.bind_eq_bind, Option.bind_eq_some_iff, Option.pure_def,
    Option.guard_eq_some', Option.some_inj]
  constructor
  · rintro ⟨_, hvalue, _, hfits, rfl⟩
    exact ⟨hvalue, hfits⟩
  · rintro ⟨hvalue, hfits⟩
    exact ⟨n, hvalue, (), hfits, rfl⟩

theorem scalar?_cases (h : scalar? value = some d) :
    (∃ b, d = .flag b) ∨ (∃ n, d = .integer n ∧ Word.FitsSigned n) ∨ ∃ x, d = .real x := by
  simp only [scalar?] at h
  split at h
  · exact .inl ⟨_, (Option.some.inj h).symm⟩
  · split at h
    · exact .inl ⟨_, (Option.some.inj h).symm⟩
    · split at h
      · rename_i n hinteger
        exact .inr (.inl ⟨n, (Option.some.inj h).symm, (integer?_eq_some_iff.1 hinteger).2⟩)
      · exact .inr (.inr ⟨_, (Option.some.inj h).symm⟩)
      · contradiction

theorem entries?_document (key value : String) : (document key value).entries? = none := by
  rw [document_eq]
  cases hd : scalar? value with
  | none =>
    rw [Option.getD_none]
    split <;> rfl
  | some d =>
    obtain ⟨_, rfl⟩ | ⟨_, rfl, _⟩ | ⟨_, rfl⟩ := scalar?_cases hd <;> rfl

/-- A list of names is read from a variable only where its value is split at commas. -/
theorem elements?_document {elements : List Document}
    (h : (document key value).elements? = some elements) :
    elements = (Text.split ',' value.toList).map fun part => .text (String.ofList part) := by
  rw [document_eq] at h
  cases hd : scalar? value with
  | none =>
    rw [hd, Option.getD_none] at h
    split at h
    · exact (Option.some.inj h).symm
    · contradiction
  | some d =>
    rw [hd, Option.getD_some] at h
    obtain ⟨_, rfl⟩ | ⟨_, rfl, _⟩ | ⟨_, rfl⟩ := scalar?_cases hd <;> contradiction

end Document

/-- The fields of an environment are those of its variables, one by one. -/
theorem mem_fields_iff {environment : Environment} {key : String} {d : Document} :
    (key, d) ∈ environment.fields ↔
      ∃ e ∈ environment, key? e.1 = some key ∧ d = document key e.2 := by
  simp only [fields, List.mem_filterMap, Option.map_eq_some_iff, Prod.mk.injEq]
  constructor
  · rintro ⟨e, he, key, hkey, rfl, rfl⟩
    exact ⟨e, he, hkey, rfl⟩
  · rintro ⟨e, he, hkey, rfl⟩
    exact ⟨e, he, key, hkey, rfl, rfl⟩

section AsWritten

/-- The value comes through as it was written: it is a small word for a flag, an integer as integers
are written, a binary number as binary numbers are written, or nothing of these. -/
inductive AsWritten (value : String) : Prop
  | flag (b : Bool) (h : value = if b then "true" else "false")
  | integer {n : Int} (hn : Word.FitsSigned n)
      (h : value = String.ofList (Json.Number.integerChars n))
  | real {x : Datum} (hx : scalar? value = some (.real x)) (h : value = x.text)
  | word (h : scalar? value = none)

variable {value : String}

theorem minus_or_isDigit_of_mem_integerChars {n : Int} {c : Char}
    (h : c ∈ Json.Number.integerChars n) :
    c = '-' ∨ c.isDigit = true := by
  have hdigit : c ∈ Nat.toDigits 10 n.natAbs → c.isDigit = true :=
    Nat.isDigit_of_mem_toDigits (by decide) (by decide)
  rw [Json.Number.integerChars, Json.Number.signed] at h
  split at h
  · exact (List.mem_cons.1 h).imp_right hdigit
  · exact .inr (hdigit h)

theorem toLower_of_minus_or_isDigit {c : Char} (h : c = '-' ∨ c.isDigit = true) :
    c.toLower = c := by
  rcases h with rfl | hdigit
  · rfl
  · rw [Char.isDigit, Bool.and_eq_true, decide_eq_true_eq, decide_eq_true_eq] at hdigit
    refine dif_neg ?_
    rintro ⟨hletter, _⟩
    exact absurd (UInt32.le_trans hletter hdigit.2) (by decide)

theorem lowerCase_integerChars (n : Int) :
    Text.lowerCase (Json.Number.integerChars n) = String.ofList (Json.Number.integerChars n) := by
  rw [Text.lowerCase]
  congr 1
  refine (List.map_congr_left fun c hc => ?_).trans (List.map_id _)
  exact toLower_of_minus_or_isDigit (minus_or_isDigit_of_mem_integerChars hc)

theorem signedValue?_integerChars (n : Int) :
    signedValue? (Json.Number.integerChars n) = some n := by
  have hdigits := Text.digits_toDigits n.natAbs
  rw [Text.signedValue?_eq_some_iff, Json.Number.integerChars, Json.Number.signed]
  by_cases hn : n < 0
  · refine ⟨_, _, _, if_pos (decide_eq_true hn), .minus, hdigits, ?_⟩
    rw [Nat.ofDigitChars_ten_toDigits]
    omega
  · refine ⟨_, _, _, if_neg (mt of_decide_eq_true hn), .none, hdigits, ?_⟩
    rw [Nat.ofDigitChars_ten_toDigits]
    omega

theorem scalar?_integerChars {n : Int} (hn : Word.FitsSigned n) :
    scalar? (String.ofList (Json.Number.integerChars n)) = some (.integer n) := by
  have hword (word : List Char) (hletter : ∃ c ∈ word, ¬ (c = '-' ∨ c.isDigit = true)) :
      Text.lowerCase (Json.Number.integerChars n) ≠ String.ofList word := by
    obtain ⟨c, hc, hletter⟩ := hletter
    rw [lowerCase_integerChars, ne_eq, String.ofList_inj]
    rintro rfl
    exact hletter (minus_or_isDigit_of_mem_integerChars hc)
  have htrue : Text.lowerCase (Json.Number.integerChars n) ≠ "true" :=
    hword ['t', 'r', 'u', 'e'] ⟨'t', by decide, by decide⟩
  have hfalse : Text.lowerCase (Json.Number.integerChars n) ≠ "false" :=
    hword ['f', 'a', 'l', 's', 'e'] ⟨'f', by decide, by decide⟩
  have hinteger : integer? (Json.Number.integerChars n) = some n :=
    integer?_eq_some_iff.2 ⟨signedValue?_integerChars n, hn⟩
  simp only [scalar?, String.toList_ofList, hinteger]
  rw [if_neg htrue, if_neg hfalse]

/-- The texts that come through as they were written are those that are the text of what they are
taken for, if they are taken for anything. -/
theorem asWritten_iff :
    AsWritten value ↔ ∀ d, scalar? value = some d → d.text? = some value := by
  constructor
  · rintro (⟨b, rfl⟩ | ⟨hn, rfl⟩ | ⟨hx, hvalue⟩ | h) d hd
    · cases b <;> cases hd <;> rfl
    · rw [scalar?_integerChars hn] at hd
      cases hd
      rfl
    · rw [hx] at hd
      cases hd
      exact congrArg some hvalue.symm
    · rw [h] at hd
      contradiction
  · intro h
    cases hd : scalar? value with
    | none => exact .word hd
    | some d =>
      obtain ⟨b, rfl⟩ | ⟨n, rfl, hn⟩ | ⟨x, rfl⟩ := scalar?_cases hd
      · exact .flag b (Option.some.inj (h _ hd)).symm
      · exact .integer hn (Option.some.inj (h _ hd)).symm
      · exact .real hd (Option.some.inj (h _ hd)).symm

end AsWritten

end ReconcileTrigger.Environment
