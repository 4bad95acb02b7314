import Mathlib.Data.List.TakeWhile
import ReconcileTrigger.Proofs.Toml.Quotes
import ReconcileTrigger.Toml.Reader

/-!
Values that are read off the front of a text, whatever follows them: quoted texts, flags and lists
of texts. A list may stand on one line or have a line for each of its elements.
-/

namespace ReconcileTrigger.Toml

/-- A character that is neither skipped between values nor starts a comment. -/
def isInk (c : Char) : Bool :=
  !isGap c && c ≠ '\n' && c ≠ '\r' && c ≠ '#'

/-- What may follow a value: a comma, a bracket or the end of the line. -/
def Ends (rest : List Char) : Prop :=
  ∀ c ∈ rest.head?, c = ',' ∨ c = ']' ∨ c = '\n'

theorem ends_cons {c : Char} (h : c = ',' ∨ c = ']' ∨ c = '\n') (rest : List Char) :
    Ends (c :: rest) := by
  rintro _ ⟨⟩
  exact h

theorem Ends.unquoted {rest : List Char} (h : Ends rest) : Unquoted rest := by
  intro c hc
  rcases h c hc with rfl | rfl | rfl <;> decide

section Spaces

variable {c : Char} {cs : List Char}

theorem isGap_of_isInk (h : isInk c = true) : isGap c = false := by
  simp only [isInk, Bool.and_eq_true, Bool.not_eq_true'] at h
  exact h.1.1.1

theorem skipGap_cons (h : isInk c = true) : skipGap (c :: cs) = c :: cs :=
  List.dropWhile_cons_of_neg (by simp [isGap_of_isInk h])

theorem skipSpace_cons (h : isInk c = true) : skipSpace false (c :: cs) = c :: cs := by
  simp only [isInk, Bool.and_eq_true, Bool.not_eq_true', decide_eq_true_eq] at h
  obtain ⟨⟨⟨hgap, hnewline⟩, hreturn⟩, hcomment⟩ := h
  unfold skipSpace
  split
  · contradiction
  · rename_i heq
    exact absurd (List.cons.inj heq).1 hnewline
  · rename_i heq
    exact absurd (List.cons.inj heq).1 hreturn
  · rename_i heq
    obtain ⟨rfl, rfl⟩ := List.cons.inj heq
    rw [if_neg Bool.false_ne_true, hgap, if_neg Bool.false_ne_true, if_neg hcomment]

theorem skipSpace_blank : skipSpace false (' ' :: cs) = skipSpace false cs := by
  rw [skipSpace]
  · rfl
  · exact nofun
  · exact nofun

theorem skipSpace_newline : skipSpace false ('\n' :: cs) = skipSpace false cs := rfl

end Spaces

/-- The quoted form of a text starts with a quote. -/
theorem exists_toList_quoted (s : String) :
    ∃ c more, (quoted s).toList = c :: more ∧ (c = '"' ∨ c = '\'') := by
  rw [quoted, String.toList_ofList]
  generalize quotesFor s.toList = q
  obtain ⟨escapes, multiline⟩ := q
  cases escapes <;> cases multiline
  · exact ⟨_, _, rfl, .inr rfl⟩
  · exact ⟨_, _, rfl, .inr rfl⟩
  · exact ⟨_, _, rfl, .inl rfl⟩
  · exact ⟨_, _, rfl, .inl rfl⟩

section Values

variable {steps depth : Nat} {rest : List Char}

theorem scanValue_quoted (s : String) (hrest : Ends rest) :
    scanValue (steps + 1) depth ((quoted s).toList ++ rest) = some (.text s, rest) := by
  obtain ⟨c, more, hquoted, hc⟩ := exists_toList_quoted s
  have hread := scanQuoted_quoted s hrest.unquoted
  rw [hquoted, List.cons_append] at hread ⊢
  have hlist : c ≠ '[' ∧ c ≠ '\x7b' := by
    rcases hc with rfl | rfl <;> decide
  rw [scanValue, hread]
  · exact fun _ _ _ heq => hlist.1 (List.cons.inj heq).1
  · exact fun _ _ _ heq => hlist.2 (List.cons.inj heq).1

theorem skipSpace_quoted (s : String) (cs : List Char) :
    skipSpace false ((quoted s).toList ++ cs) = (quoted s).toList ++ cs := by
  obtain ⟨c, more, hquoted, hc⟩ := exists_toList_quoted s
  rw [hquoted, List.cons_append]
  exact skipSpace_cons (by rcases hc with rfl | rfl <;> rfl)

theorem toList_quoted_append_ne (s : String) (cs rest : List Char) :
    (quoted s).toList ++ cs ≠ ']' :: rest := by
  obtain ⟨c, more, hquoted, hc⟩ := exists_toList_quoted s
  have hbracket : c ≠ ']' := by
    rcases hc with rfl | rfl <;> decide
  rw [hquoted, List.cons_append]
  exact fun heq => hbracket (List.cons.inj heq).1

/-- An element of a list with a comma behind it. -/
theorem scanElements_comma {cs : List Char} {s : String}
    (hcs : skipSpace false cs = (quoted s).toList ++ ',' :: rest) :
    scanElements (steps + 2) depth cs =
      (scanElements (steps + 1) depth rest).map fun (values, rest) =>
        (.text s :: values, rest) := by
  rw [scanElements, hcs]
  split
  · rename_i heq
    exact absurd heq (toList_quoted_append_ne s _ _)
  · rw [scanValue_quoted s (ends_cons (.inl rfl) rest)]
    simp only [Option.bind_eq_bind, Option.bind_some, Option.map_eq_bind]
    rfl

/-- The last element of a list. -/
theorem scanElements_last {cs : List Char} {s : String}
    (hcs : skipSpace false cs = (quoted s).toList ++ ']' :: rest) :
    scanElements (steps + 2) depth cs = some ([.text s], rest) := by
  rw [scanElements, hcs]
  split
  · rename_i heq
    exact absurd heq (toList_quoted_append_ne s _ _)
  · rw [scanValue_quoted s (ends_cons (.inr (.inl rfl)) rest)]
    rfl

theorem scanElements_nil {cs : List Char} (hcs : skipSpace false cs = ']' :: rest) :
    scanElements (steps + 1) depth cs = some ([], rest) := by
  simp only [scanElements, hcs]

def elementLine (s : String) : List Char :=
  [' ', ' ', ' ', ' '] ++ (quoted s).toList ++ [',', '\n']

theorem length_le_length_flatMap_elementLine (values : List String) :
    values.length ≤ (values.flatMap elementLine).length := by
  induction values with
  | nil => exact Nat.le_refl 0
  | cons s values ih =>
    simp only [List.flatMap_cons, List.length_append, List.length_cons, elementLine]
    omega

/-- Elements of a list on lines of their own. -/
theorem scanElements_lines {values : List String} (hsteps : values.length < steps) :
    scanElements steps depth ('\n' :: (values.flatMap elementLine ++ ']' :: rest)) =
      some (values.map .text, rest) := by
  -- the newline in front of a line is the one that ends the line before it
  induction values generalizing steps with
  | nil =>
    obtain ⟨steps, rfl⟩ : ∃ n, steps = n + 1 := Nat.exists_eq_add_one.2 hsteps
    exact scanElements_nil rfl
  | cons s values ih =>
    obtain ⟨steps, rfl⟩ : ∃ n, steps = n + 2 := Nat.exists_eq_add_of_le' (Nat.le_of_lt_succ
      (Nat.succ_lt_succ (Nat.lt_of_le_of_lt (Nat.le_add_left 1 values.length) hsteps)))
    have hcs : skipSpace false ('\n' :: ((s :: values).flatMap elementLine ++ ']' :: rest)) =
        (quoted s).toList ++ ',' :: ('\n' :: (values.flatMap elementLine ++ ']' :: rest)) := by
      simp only [List.flatMap_cons, elementLine, List.append_assoc, List.cons_append,
        List.nil_append, skipSpace_newline, skipSpace_blank, skipSpace_quoted]
    rw [scanElements_comma hcs, ih (by simp at hsteps; omega)]
    rfl

end Values

structure WritesValue (cs : List Char) (d : Document) : Prop where
  apart : ∀ rest, skipGap (cs ++ rest) = cs ++ rest
  scan : ∀ {steps rest}, cs.length ≤ steps → Ends rest →
    scanValue steps nestingLimit (cs ++ rest) = some (d, rest)

theorem writesValue_quoted (s : String) : WritesValue (quoted s).toList (.text s) := by
  obtain ⟨c, more, hquoted, hc⟩ := exists_toList_quoted s
  constructor
  · intro rest
    rw [hquoted, List.cons_append]
    exact skipGap_cons (by rcases hc with rfl | rfl <;> rfl)
  · intro steps rest hsteps hrest
    rw [hquoted, List.length_cons] at hsteps
    obtain ⟨steps, rfl⟩ : ∃ n, steps = n + 1 := Nat.exists_eq_add_one.2 (by omega)
    exact scanValue_quoted s hrest

/-- The elements of a list are read behind its opening bracket. -/
theorem writesValue_list {cs : List Char} {values : List Document}
    (h : ∀ {steps rest}, cs.length ≤ steps →
      scanElements steps 79 (cs ++ rest) = some (values, rest)) :
    WritesValue ('[' :: cs) (.list values) := by
  constructor
  · exact fun rest => skipGap_cons rfl
  · intro steps rest hsteps _
    rw [List.length_cons] at hsteps
    obtain ⟨steps, rfl⟩ : ∃ n, steps = n + 1 := Nat.exists_eq_add_one.2 (by omega)
    rw [List.cons_append, nestingLimit, scanValue, h (Nat.le_of_succ_le_succ hsteps)]
    rfl

theorem writesValue_emptyList : WritesValue ['[', ']'] (.list []) := by
  refine writesValue_list ?_
  intro steps rest hsteps
  obtain ⟨steps, rfl⟩ : ∃ n, steps = n + 1 := Nat.exists_eq_add_one.2 hsteps
  exact scanElements_nil (skipSpace_cons rfl)

theorem writesValue_singleton (s : String) :
    WritesValue ('[' :: ((quoted s).toList ++ [']'])) (.list [.text s]) := by
  refine writesValue_list ?_
  intro steps rest hsteps
  obtain ⟨c, more, hquoted, _⟩ := exists_toList_quoted s
  have hlength : 2 ≤ ((quoted s).toList ++ [']']).length := by
    simp [hquoted]
  obtain ⟨steps, rfl⟩ : ∃ n, steps = n + 2 := Nat.exists_eq_add_of_le' (hlength.trans hsteps)
  rw [List.append_assoc]
  exact scanElements_last (skipSpace_quoted s _)

theorem writesValue_lines (values : List String) :
    WritesValue ('[' :: '\n' :: (values.flatMap elementLine ++ [']']))
      (.list (values.map .text)) := by
  refine writesValue_list ?_
  intro steps rest hsteps
  have hlength := length_le_length_flatMap_elementLine values
  rw [List.length_cons, List.length_append] at hsteps
  rw [List.cons_append, List.append_assoc]
  exact scanElements_lines (by omega)

/-- What starts neither with a quote nor with a bracket is a scalar. -/
theorem scanValue_scalar {c : Char} {cs : List Char} {found : Document × List Char}
    (hc : c ≠ '"' ∧ c ≠ '\'' ∧ c ≠ '[' ∧ c ≠ '\x7b') (h : scanScalar (c :: cs) = some found) :
    scanValue (steps + 1) depth (c :: cs) = some found := by
  obtain ⟨hdouble, hsingle, hlist, htable⟩ := hc
  have hfind : allQuotes.find? (fun q => q.delimiter.isPrefixOf (c :: cs)) = none := by
    simp [allQuotes, Quotes.delimiter, Quotes.mark, List.replicate_succ, hdouble.symm,
      hsingle.symm]
  have hquoted : scanQuoted allQuotes (c :: cs) = none := by
    rw [scanQuoted, hfind]
    rfl
  rw [scanValue, hquoted, h]
  · exact fun _ _ _ heq => hlist (List.cons.inj heq).1
  · exact fun _ _ _ heq => htable (List.cons.inj heq).1

theorem splitScalar_of_ends {word rest : List Char} (hword : ∀ c ∈ word, isScalarChar c = true)
    (hdate : scanDate word = none) (hrest : Ends rest) :
    splitScalar (word ++ rest) = (word, rest) := by
  have hstop : rest.takeWhile isScalarChar = [] ∧ rest.dropWhile isScalarChar = rest := by
    cases rest with
    | nil => exact ⟨rfl, rfl⟩
    | cons c rest =>
      have hc : ¬ isScalarChar c = true := by
        rcases hrest c rfl with rfl | rfl | rfl <;> decide
      exact ⟨List.takeWhile_cons_of_neg hc, List.dropWhile_cons_of_neg hc⟩
  simp only [splitScalar, List.takeWhile_append_of_pos hword, List.dropWhile_append_of_pos hword,
    hstop, List.append_nil, hdate]

theorem scanValue_flag (b : Bool) (hrest : Ends rest) :
    scanValue (steps + 1) depth ((if b then "true" else "false").toList ++ rest) =
      some (.flag b, rest) := by
  cases b with
  | true =>
    have hsplit : splitScalar (['t', 'r', 'u', 'e'] ++ rest) = (['t', 'r', 'u', 'e'], rest) :=
      splitScalar_of_ends (List.all_eq_true.1 rfl) rfl hrest
    have hscalar : scanScalar (['t', 'r', 'u', 'e'] ++ rest) = some (.flag true, rest) := by
      rw [scanScalar, hsplit]
      rfl
    exact scanValue_scalar (by decide) hscalar
  | false =>
    have hsplit : splitScalar (['f', 'a', 'l', 's', 'e'] ++ rest) =
        (['f', 'a', 'l', 's', 'e'], rest) :=
      splitScalar_of_ends (List.all_eq_true.1 rfl) rfl hrest
    have hscalar : scanScalar (['f', 'a', 'l', 's', 'e'] ++ rest) = some (.flag false, rest) := by
      rw [scanScalar, hsplit]
      rfl
    exact scanValue_scalar (by decide) hscalar

theorem writesValue_flag (b : Bool) :
    WritesValue (if b then "true" else "false").toList (.flag b) := by
  constructor
  · intro rest
    cases b with
    | true => exact skipGap_cons rfl
    | false => exact skipGap_cons rfl
  · intro steps rest hsteps hrest
    obtain ⟨steps, rfl⟩ : ∃ n, steps = n + 1 := by
      refine Nat.exists_eq_add_one.2 (Nat.lt_of_lt_of_le ?_ hsteps)
      cases b <;> decide
    exact scanValue_flag b hrest

end ReconcileTrigger.Toml
