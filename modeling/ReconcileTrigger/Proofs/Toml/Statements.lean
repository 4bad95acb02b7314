import ReconcileTrigger.Proofs.Toml.Values

/-!
Texts that are read line by line. A statement is read off the front of a text, whatever lines
follow it, and the statements of a text are those of its lines, one after another.
-/

namespace ReconcileTrigger.Toml

/-- The characters write a statement, whatever lines follow them. -/
structure WritesStatement (cs : List Char) (s : Statement) : Prop where
  apart : ∀ rest, skipSpace false (cs ++ rest) = cs ++ rest
  ne_nil : cs ≠ []
  scan : ∀ {steps rest}, cs.length ≤ steps →
    scanStatement steps (cs ++ '\n' :: rest) = some (s, '\n' :: rest)

/-- Lines that write statements; an empty line writes none. -/
inductive WritesLines : List Char → List Statement → Prop
  | nil : WritesLines [] []
  | blank {cs : List Char} {statements : List Statement} (h : WritesLines cs statements) :
      WritesLines ('\n' :: cs) statements
  | cons {line cs : List Char} {s : Statement} {statements : List Statement}
      (hline : WritesStatement line s) (h : WritesLines cs statements) :
      WritesLines (line ++ '\n' :: cs) (s :: statements)

theorem WritesLines.append {a b : List Char} {s t : List Statement} (ha : WritesLines a s)
    (hb : WritesLines b t) : WritesLines (a ++ b) (s ++ t) := by
  induction ha with
  | nil => exact hb
  | blank _ ih => exact .blank ih
  | cons hline _ ih =>
    rw [List.append_assoc]
    exact .cons hline ih

theorem WritesLines.line {cs : List Char} {s : Statement} (h : WritesStatement cs s) :
    WritesLines (cs ++ ['\n']) [s] :=
  .cons h .nil

/-- A text is read line by line. -/
theorem WritesLines.scanStatements {cs : List Char} {statements : List Statement}
    (h : WritesLines cs statements) {steps : Nat} (hsteps : cs.length < steps) :
    scanStatements steps cs = some statements := by
  induction h generalizing steps with
  | nil =>
    obtain ⟨steps, rfl⟩ : ∃ n, steps = n + 1 := Nat.exists_eq_add_one.2 hsteps
    rfl
  | blank _ ih =>
    have hread := ih (Nat.lt_of_succ_lt hsteps)
    obtain ⟨steps, rfl⟩ : ∃ n, steps = n + 1 := Nat.exists_eq_add_one.2 (by omega)
    rw [Toml.scanStatements] at hread ⊢
    exact hread
  | @cons line cs s statements hline _ ih =>
    rw [List.length_append, List.length_cons] at hsteps
    obtain ⟨steps, rfl⟩ : ∃ n, steps = n + 1 := Nat.exists_eq_add_one.2 (by omega)
    have hend : lineEnd? ('\n' :: cs) = some cs := rfl
    rw [Toml.scanStatements, hline.apart]
    split
    · rename_i heq
      exact absurd (List.append_eq_nil_iff.1 heq).1 hline.ne_nil
    · rw [hline.scan (Nat.le_of_lt_succ (by omega))]
      simp only [Option.bind_eq_bind, Option.bind_some, hend]
      rw [ih (by omega)]
      rfl

structure IsBare (name : List Char) : Prop where
  ne_nil : name ≠ []
  isKeyChar : ∀ c ∈ name, isKeyChar c = true

instance (name : List Char) : Decidable (IsBare name) :=
  decidable_of_iff (name ≠ [] ∧ name.all isKeyChar = true)
    ⟨fun h => ⟨h.1, List.all_eq_true.1 h.2⟩, fun h => ⟨h.ne_nil, List.all_eq_true.2 h.isKeyChar⟩⟩

section Keys

variable {name rest : List Char}

theorem isInk_of_isKeyChar {c : Char} (h : isKeyChar c = true) : isInk c = true := by
  have hne : ∀ c', isKeyChar c' = false → c ≠ c' := by
    rintro _ hc' rfl
    rw [h] at hc'
    contradiction
  simp [isInk, isGap, hne ' ' rfl, hne '\t' rfl, hne '\n' rfl, hne '\r' rfl, hne '#' rfl]

/-- A bare name is read up to a character that may not stand in it. -/
theorem scanName_bare (h : IsBare name) {c : Char} (hc : isKeyChar c = false) (cs : List Char) :
    scanName (skipGap (name ++ c :: cs)) = some (String.ofList name, c :: cs) := by
  obtain ⟨first, more, rfl⟩ := List.exists_cons_of_ne_nil h.ne_nil
  have hgap : skipGap (first :: more ++ c :: cs) = first :: more ++ c :: cs :=
    skipGap_cons (isInk_of_isKeyChar (h.isKeyChar first (List.mem_cons_self ..)))
  have hstop : ¬ isKeyChar c = true := by
    rw [hc]
    exact Bool.false_ne_true
  rw [hgap, scanName, List.takeWhile_append_of_pos h.isKeyChar,
    List.takeWhile_cons_of_neg hstop, List.append_nil, List.dropWhile_append_of_pos h.isKeyChar,
    List.dropWhile_cons_of_neg hstop]

theorem scanNames_bare (names : Nat) (h : IsBare name) {c : Char} (hc : isKeyChar c = false)
    {cs : List Char} (hpoint : (skipGap (c :: cs)).head? ≠ some '.') :
    scanNames (names + 1) (name ++ c :: cs) =
      some (⟨[], String.ofList name⟩, skipGap (c :: cs)) := by
  rw [scanNames, scanName_bare h hc]
  simp only [Option.bind_eq_bind, Option.bind_some]
  split
  · rename_i heq
    rw [heq] at hpoint
    exact absurd rfl hpoint
  · rfl

theorem scanNames_dotted (names : Nat) (h : IsBare name) (cs : List Char) :
    scanNames (names + 1) (name ++ '.' :: cs) = (scanNames names cs).map fun (key, rest) =>
      (⟨String.ofList name :: key.tables, key.name⟩, rest) := by
  rw [scanNames, scanName_bare h rfl, Option.map_eq_bind]
  rfl

/-- The bracket that ends a header is not a part of its key. -/
theorem scanNames_header (names : Nat) (h : IsBare name) (cs : List Char) :
    scanNames (names + 1) (name ++ ']' :: cs) = some (⟨[], String.ofList name⟩, ']' :: cs) := by
  have hpoint : (skipGap (']' :: cs)).head? ≠ some '.' :=
    fun heq => absurd (Option.some.inj heq) (by decide)
  rw [scanNames_bare names h rfl hpoint]
  rfl

/-- A bare key, an equals sign and a value. -/
theorem writesStatement_entry {value : List Char} {d : Document} (h : IsBare name)
    (hvalue : WritesValue value d) :
    WritesStatement (name ++ ' ' :: '=' :: ' ' :: value) (.entry ⟨[], String.ofList name⟩ d) := by
  obtain ⟨c, more, rfl⟩ := List.exists_cons_of_ne_nil h.ne_nil
  have hc := h.isKeyChar c (List.mem_cons_self ..)
  refine ⟨fun rest => skipSpace_cons (isInk_of_isKeyChar hc), List.cons_ne_nil _ _, ?_⟩
  intro steps rest hsteps
  have hkey : scanKey (c :: more ++ ' ' :: '=' :: ' ' :: (value ++ '\n' :: rest)) =
      some (⟨[], String.ofList (c :: more)⟩, '=' :: ' ' :: (value ++ '\n' :: rest)) := by
    have hpoint : (skipGap (' ' :: '=' :: ' ' :: (value ++ '\n' :: rest))).head? ≠ some '.' :=
      fun heq => absurd (Option.some.inj heq) (by decide)
    rw [scanKey, nestingLimit, scanNames_bare _ h rfl hpoint]
    rfl
  have hgap : skipGap (' ' :: (value ++ '\n' :: rest)) = value ++ '\n' :: rest :=
    hvalue.apart _
  have hjoin : c :: more ++ ' ' :: '=' :: ' ' :: value ++ '\n' :: rest =
      c :: more ++ ' ' :: '=' :: ' ' :: (value ++ '\n' :: rest) := by
    simp only [List.append_assoc, List.cons_append]
  have hlength : value.length ≤ steps := by
    simp only [List.length_append, List.length_cons] at hsteps
    omega
  have hbracket : c ≠ '[' := by
    rintro rfl
    contradiction
  rw [hjoin]
  rw [List.cons_append] at hkey ⊢
  rw [scanStatement, hkey]
  · simp only [Option.bind_eq_bind, Option.bind_some, hgap,
      hvalue.scan hlength (ends_cons (.inr (.inr rfl)) rest)]
    rfl
  · exact fun _ heq => hbracket (List.cons.inj heq).1
  · exact fun _ heq => hbracket (List.cons.inj heq).1

/-- A bare key between brackets. -/
theorem writesStatement_table (h : IsBare name) :
    WritesStatement ('[' :: (name ++ [']'])) (.table ⟨[], String.ofList name⟩) := by
  refine ⟨fun rest => skipSpace_cons rfl, List.cons_ne_nil _ _, ?_⟩
  intro steps rest _
  have hjoin : '[' :: (name ++ [']']) ++ '\n' :: rest = '[' :: (name ++ ']' :: '\n' :: rest) := by
    simp only [List.append_assoc, List.cons_append, List.nil_append]
  rw [hjoin, scanStatement, scanKey, nestingLimit, scanNames_header _ h]
  · rfl
  · intro more heq
    obtain ⟨c, name, rfl⟩ := List.exists_cons_of_ne_nil h.ne_nil
    obtain rfl : c = '[' := (List.cons.inj heq).1
    exact absurd (h.isKeyChar '[' (List.mem_cons_self ..)) (by decide)

/-- A bare key of two names between double brackets. -/
theorem writesStatement_element {table : List Char} (htable : IsBare table) (h : IsBare name) :
    WritesStatement ('[' :: '[' :: (table ++ '.' :: (name ++ [']', ']'])))
      (.element ⟨[String.ofList table], String.ofList name⟩) := by
  refine ⟨fun rest => skipSpace_cons rfl, List.cons_ne_nil _ _, ?_⟩
  intro steps rest _
  have hjoin : '[' :: '[' :: (table ++ '.' :: (name ++ [']', ']'])) ++ '\n' :: rest =
      '[' :: '[' :: (table ++ '.' :: (name ++ ']' :: ']' :: '\n' :: rest)) := by
    simp only [List.append_assoc, List.cons_append, List.nil_append]
  rw [hjoin, scanStatement, scanKey, nestingLimit, scanNames_dotted _ htable, scanNames_header _ h]
  rfl

end Keys

end ReconcileTrigger.Toml
