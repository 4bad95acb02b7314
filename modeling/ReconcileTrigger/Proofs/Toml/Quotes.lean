import Mathlib.Data.List.TakeWhile
import ReconcileTrigger.Toml.Quotes.Reader

/-!
Quoted texts are read back, in whatever way they are quoted. With escapes every text is read back;
without them those are that have neither control characters nor closing quotes inside.
-/

namespace ReconcileTrigger.Toml

def Unquoted (rest : List Char) : Prop :=
  ∀ c ∈ rest.head?, c ≠ '"' ∧ c ≠ '\''

theorem Unquoted.ne_mark {rest : List Char} (h : Unquoted rest) (q : Quotes) :
    ∀ c ∈ rest.head?, c ≠ q.mark := by
  intro c hc
  obtain ⟨hdouble, hsingle⟩ := h c hc
  unfold Quotes.mark
  split
  · exact hdouble
  · exact hsingle

section Closing

variable {q : Quotes} {k : Nat} {rest : List Char}

/-- The run of marks that is looked at for closing quotes over several lines. -/
theorem takeWhile_marks {mark : Char} (hk : k ≤ 5) (hrest : ∀ c ∈ rest.head?, c ≠ mark) :
    ((List.replicate k mark ++ rest).take 5).takeWhile (· = mark) = List.replicate k mark := by
  have hmarks : ∀ c ∈ List.replicate k mark, decide (c = mark) = true := fun c hc =>
    decide_eq_true (List.eq_of_mem_replicate hc)
  have hnone : (rest.take (5 - k)).takeWhile (fun c => decide (c = mark)) = [] := by
    cases rest with
    | nil => rw [List.take_nil, List.takeWhile_nil]
    | cons c rest =>
      cases 5 - k with
      | zero => rw [List.take_zero, List.takeWhile_nil]
      | succ n => rw [List.take_succ_cons, List.takeWhile_cons, decide_eq_false (hrest c rfl),
          if_neg Bool.false_ne_true]
  rw [List.take_append, List.take_replicate, List.length_replicate, Nat.min_eq_right hk,
    List.takeWhile_append_of_pos hmarks, hnone, List.append_nil]

/-- Marks at the end of a text over several lines are left to the text by the closing quotes. -/
theorem closing?_marks (hmultiline : q.multiline = true) (hk : k ≤ 2)
    (hrest : ∀ c ∈ rest.head?, c ≠ q.mark) :
    closing? q (List.replicate k q.mark ++ q.delimiter ++ rest) =
      some (List.replicate k q.mark, rest) := by
  have hdelimiter : List.replicate k q.mark ++ q.delimiter = List.replicate (k + 3) q.mark := by
    rw [Quotes.delimiter, if_pos hmultiline, List.replicate_append_replicate]
  rw [hdelimiter]
  simp only [closing?, if_pos hmultiline, takeWhile_marks (by omega : k + 3 ≤ 5) hrest,
    List.length_replicate, List.drop_replicate, Nat.add_sub_cancel]
  rw [if_neg (by omega), List.drop_left' (List.length_replicate ..)]

/-- Fewer than three marks in front of another character close nothing. -/
theorem closing?_apart (hmultiline : q.multiline = true) (hk : k ≤ 2) {c : Char}
    (hc : c ≠ q.mark) (more : List Char) :
    closing? q (List.replicate k q.mark ++ c :: more) = none := by
  have hrest : ∀ c' ∈ (c :: more).head?, c' ≠ q.mark := by
    rintro _ ⟨⟩
    exact hc
  simp only [closing?, if_pos hmultiline, takeWhile_marks (by omega : k ≤ 5) hrest,
    List.length_replicate]
  rw [if_pos (by omega)]

end Closing

/-- Closing quotes that are found at the front of a written text, with its own quotes behind it,
are these. -/
def ClosesAtEnd (q : Quotes) (written text : List Char) : Prop :=
  ∀ rest, Unquoted rest →
    closing? q (written ++ q.delimiter ++ rest) = some (text, rest) ∨
      closing? q (written ++ q.delimiter ++ rest) = none

theorem closing?_nil (q : Quotes) {rest : List Char} (hrest : Unquoted rest) :
    closing? q ([] ++ q.delimiter ++ rest) = some ([], rest) := by
  cases hmultiline : q.multiline with
  | true => exact closing?_marks hmultiline (Nat.zero_le 2) (hrest.ne_mark q)
  | false => simp [closing?, Quotes.delimiter, hmultiline]

theorem closesAtEnd_nil (q : Quotes) : ClosesAtEnd q [] [] :=
  fun _ hrest => .inl (closing?_nil q hrest)

/-- Another character than a mark closes nothing. -/
theorem closing?_cons_of_ne {q : Quotes} {c : Char} (hc : c ≠ q.mark) (more : List Char) :
    closing? q (c :: more) = none := by
  cases hmultiline : q.multiline with
  | true => exact closing?_apart hmultiline (Nat.zero_le 2) hc more
  | false => simp [closing?, hmultiline, hc]

/-- The marks at the front of a written text make up all of it, or another character follows. -/
inductive Leading (mark : Char) (limit : Nat) : List Char → List Char → Prop
  | all {k : Nat} (h : k ≤ limit) :
      Leading mark limit (List.replicate k mark) (List.replicate k mark)
  | apart {k : Nat} {c : Char} {more text : List Char} (h : k ≤ limit) (hc : c ≠ mark) :
      Leading mark limit (List.replicate k mark ++ c :: more) text

theorem Leading.mark_cons {mark : Char} {limit : Nat} {written text : List Char}
    (h : Leading mark limit written text) :
    Leading mark (limit + 1) (mark :: written) (mark :: text) := by
  cases h with
  | all h => exact .all (Nat.succ_le_succ h)
  | apart h hc => exact .apart (Nat.succ_le_succ h) hc

theorem Leading.mono {mark : Char} {limit limit' : Nat} {written text : List Char}
    (h : Leading mark limit written text) (hle : limit ≤ limit') :
    Leading mark limit' written text := by
  cases h with
  | all h => exact .all (Nat.le_trans h hle)
  | apart h hc => exact .apart (Nat.le_trans h hle) hc

theorem Leading.closesAtEnd {q : Quotes} {written text : List Char}
    (hmultiline : q.multiline = true) (h : Leading q.mark 2 written text) :
    ClosesAtEnd q written text := by
  intro rest hrest
  cases h with
  | all hk => exact .inl (closing?_marks hmultiline hk (hrest.ne_mark q))
  | apart hk hc =>
    right
    rw [List.append_assoc, List.append_assoc]
    exact closing?_apart hmultiline hk hc _

section Body

variable {q : Quotes} {cs rest : List Char}

theorem scanBody_of_closing {found : List Char × List Char} (h : closing? q cs = some found) :
    scanBody q cs = some found := by
  rw [scanBody, h]

theorem scanBody_of_part {part : List Char} (hclosing : closing? q cs = none)
    (hpart : scanPart q cs = some (part, rest)) :
    scanBody q cs = (scanBody q rest).map fun (body, rest) => (part ++ body, rest) := by
  rw [scanBody]
  simp only [hclosing]
  split
  · rename_i hnone
    rw [hpart] at hnone
    contradiction
  · rename_i hsome
    rw [hpart] at hsome
    cases hsome
    rfl

theorem scanBody_nil (q : Quotes) {rest : List Char} (hrest : Unquoted rest) :
    scanBody q ([] ++ q.delimiter ++ rest) = some ([], rest) :=
  scanBody_of_closing (closing?_nil q hrest)

/-- One part of a text is read, and the others behind it. -/
theorem scanBody_part (written : List Char) {tail text : List Char} {c : Char}
    (hcloses : ClosesAtEnd q (written ++ tail) (c :: text)) (hrest : Unquoted rest)
    (hpart : scanPart q (written ++ (tail ++ q.delimiter ++ rest)) =
      some ([c], tail ++ q.delimiter ++ rest))
    (htail : scanBody q (tail ++ q.delimiter ++ rest) = some (text, rest)) :
    scanBody q (written ++ tail ++ q.delimiter ++ rest) = some (c :: text, rest) := by
  rcases hcloses rest hrest with hclosing | hclosing
  · exact scanBody_of_closing hclosing
  · have hjoin : written ++ tail ++ q.delimiter ++ rest =
        written ++ (tail ++ q.delimiter ++ rest) := by
      simp only [List.append_assoc]
    rw [hjoin] at hclosing ⊢
    rw [scanBody_of_part hclosing hpart, htail]
    rfl

theorem scanPart_plain {c : Char} (hc : isControl c = false) (hescape : q.escapes = true → c ≠ '\\')
    (tail : List Char) : scanPart q (c :: tail) = some ([c], tail) := by
  unfold scanPart
  split
  · rename_i heq
    obtain ⟨rfl, _⟩ := List.cons.inj heq
    exact absurd hc (by decide)
  · rename_i heq
    obtain ⟨rfl, _⟩ := List.cons.inj heq
    exact absurd hc (by decide)
  · rename_i heq
    obtain ⟨rfl, rfl⟩ := List.cons.inj heq
    have hliteral : (!q.escapes) = true := by
      rw [Bool.not_eq_true', ← Bool.not_eq_true]
      exact fun hescapes => hescape hescapes rfl
    rw [if_pos hliteral]
  · rename_i heq
    obtain ⟨rfl, rfl⟩ := List.cons.inj heq
    rw [hc, if_neg Bool.false_ne_true]
  · contradiction

theorem scanPart_newline (hmultiline : q.multiline = true) (tail : List Char) :
    scanPart q ('\n' :: tail) = some (['\n'], tail) :=
  if_pos hmultiline

/-- A backslash that does not continue a line starts an escape. -/
theorem scanPart_escape {c : Char} (hescapes : q.escapes = true) (hgap : isGap c = false)
    (hnewline : c ≠ '\n') (hreturn : c ≠ '\r') (tail : List Char) :
    scanPart q ('\\' :: c :: tail) =
      (scanEscape (c :: tail)).map fun (c, rest) => ([c], rest) := by
  have hstop : ¬ isGap c = true := by
    rw [hgap]
    exact Bool.false_ne_true
  have hline : newline? (c :: tail) = none := by
    unfold newline?
    split
    · rename_i heq
      exact absurd (List.cons.inj heq).1 hnewline
    · rename_i heq
      exact absurd (List.cons.inj heq).1 hreturn
    · rfl
  simp only [scanPart, hescapes, Bool.not_true, List.dropWhile_cons_of_neg hstop, hline,
    Option.isSome_none, Bool.and_false, if_neg Bool.false_ne_true]

end Body

section Escapes

/-- The code of a control character is read back. -/
theorem codeChar?_codeEscape {c : Char} (h : isControl c = true) :
    codeChar? ['0', '0', (Nat.digitChar (c.toNat / 16)).toUpper,
      (Nat.digitChar (c.toNat % 16)).toUpper] = some c := by
  have hcodes : ∀ n < 128, codeChar? ['0', '0', (Nat.digitChar (n / 16)).toUpper,
      (Nat.digitChar (n % 16)).toUpper] = some (Char.ofNat n) := by
    decide +kernel
  have hlt : c.toNat < 128 := by
    simp [isControl] at h
    omega
  rw [hcodes c.toNat hlt, Char.ofNat_toNat]

/-- A letter behind a backslash is read as what it stands for. -/
theorem scanPart_letter {letter c : Char} (h : letterEscape? letter = some c) (multiline : Bool)
    (tail : List Char) :
    scanPart ⟨true, multiline⟩ ('\\' :: letter :: tail) = some ([c], tail) := by
  have hne : ∀ other, letterEscape? other = none → letter ≠ other := by
    rintro _ hother rfl
    rw [h] at hother
    contradiction
  have hgap : isGap letter = false := by
    simp [isGap, hne ' ' rfl, hne '\t' rfl]
  have hread : scanEscape (letter :: tail) = some (c, tail) := by
    rw [scanEscape, h]
    · rfl
    · exact fun _ _ _ heq _ => hne 'x' rfl heq
    · exact fun _ _ _ _ _ heq _ => hne 'u' rfl heq
    · exact fun _ _ _ _ _ _ _ _ _ heq _ => hne 'U' rfl heq
  rw [scanPart_escape rfl hgap (hne '\n' rfl) (hne '\r' rfl), hread]
  rfl

/-- The code of a control character behind a backslash is read as that character. -/
theorem scanPart_codeEscape {c : Char} (h : isControl c = true) (multiline : Bool)
    (tail : List Char) : scanPart ⟨true, multiline⟩ (codeEscape c ++ tail) = some ([c], tail) := by
  have hread := codeChar?_codeEscape h
  rw [codeEscape, List.cons_append, List.cons_append,
    scanPart_escape rfl rfl (by decide) (by decide)]
  simp only [List.cons_append, List.nil_append, scanEscape, hread]
  rfl

/-- A character other than the quote is written with a letter, with its code, or as it is. -/
theorem escapedChar_cases (multiline : Bool) (c : Char) :
    (∃ letter, letterEscape? letter = some c ∧ escapedChar multiline c = ['\\', letter]) ∨
      (isControl c = true ∧ escapedChar multiline c = codeEscape c) ∨
      (c = '\n' ∧ multiline = true ∧ escapedChar multiline c = [c]) ∨
      (c ≠ '\\' ∧ isControl c = false ∧ escapedChar multiline c = [c]) := by
  unfold escapedChar
  split
  · rename_i hc
    exact .inl ⟨'\\', by rw [hc]; rfl, rfl⟩
  split
  · rename_i hc
    exact .inl ⟨'b', by rw [hc]; rfl, rfl⟩
  split
  · rename_i hc
    exact .inl ⟨'t', by rw [hc]; rfl, rfl⟩
  split
  · rename_i hnewline
    split
    · rename_i hmultiline
      exact .inr (.inr (.inl ⟨hnewline, hmultiline, by rw [hnewline]⟩))
    · exact .inl ⟨'n', by rw [hnewline]; rfl, rfl⟩
  split
  · rename_i hc
    exact .inl ⟨'f', by rw [hc]; rfl, rfl⟩
  split
  · rename_i hc
    exact .inl ⟨'r', by rw [hc]; rfl, rfl⟩
  split
  · rename_i hcontrol
    exact .inr (.inl ⟨hcontrol, rfl⟩)
  · rename_i hbackslash _ _ _ _ _ hcontrol
    exact .inr (.inr (.inr ⟨hbackslash, by simpa using hcontrol, rfl⟩))

/-- The written form of a character starts with no quote and is read back. -/
theorem exists_escapedChar (multiline : Bool) {c : Char} (hc : c ≠ '"') :
    ∃ first more, escapedChar multiline c = first :: more ∧ first ≠ '"' ∧
      ∀ tail, scanPart ⟨true, multiline⟩ (first :: more ++ tail) = some ([c], tail) := by
  rcases escapedChar_cases multiline c with ⟨letter, hletter, hwritten⟩ | ⟨hcontrol, hwritten⟩ |
    ⟨rfl, hmultiline, hwritten⟩ | ⟨hbackslash, hplain, hwritten⟩
  · exact ⟨_, _, hwritten, by decide, scanPart_letter hletter multiline⟩
  · exact ⟨_, _, hwritten, by decide, scanPart_codeEscape hcontrol multiline⟩
  · exact ⟨_, _, hwritten, by decide, scanPart_newline hmultiline⟩
  · exact ⟨_, _, hwritten, hc, scanPart_plain hplain fun _ => hbackslash⟩

/-- A character is written as a quote that stands for itself, or as a part that starts with no
quote. -/
theorem escapedChars_cons (multiline : Bool) (run : Nat) (c : Char) (cs : List Char) :
    (c = '"' ∧ multiline = true ∧ run < 2 ∧
      escapedChars multiline run (c :: cs) = '"' :: escapedChars multiline (run + 1) cs) ∨
    ∃ first more, first ≠ '"' ∧
      (∀ tail, scanPart ⟨true, multiline⟩ (first :: more ++ tail) = some ([c], tail)) ∧
      escapedChars multiline run (c :: cs) = first :: more ++ escapedChars multiline 0 cs := by
  by_cases hc : c = '"'
  · subst hc
    by_cases hplain : multiline = true ∧ run < 2
    · exact .inl ⟨rfl, hplain.1, hplain.2, by rw [escapedChars, if_pos rfl, if_pos hplain]⟩
    · exact .inr ⟨'\\', ['"'], by decide, scanPart_letter rfl multiline,
        by rw [escapedChars, if_pos rfl, if_neg hplain]; rfl⟩
  · obtain ⟨first, more, hwritten, hfirst, hread⟩ := exists_escapedChar multiline hc
    exact .inr ⟨first, more, hfirst, hread, by rw [escapedChars, if_neg hc, hwritten]⟩

/-- With `run` quotes in front of a written text no more than two of them stand side by side. -/
theorem leading_escapedChars {run : Nat} (hrun : run ≤ 2) (cs : List Char) :
    Leading '"' (2 - run) (escapedChars true run cs) cs := by
  induction cs generalizing run with
  | nil => exact .all (Nat.zero_le _)
  | cons c cs ih =>
    rcases escapedChars_cons true run c cs with ⟨rfl, _, hlt, hwritten⟩ |
      ⟨first, more, hfirst, _, hwritten⟩
    · have hlimit : 2 - run = 2 - (run + 1) + 1 := by omega
      rw [hwritten, hlimit]
      exact (ih hlt).mark_cons
    · rw [hwritten]
      exact .apart (k := 0) (Nat.zero_le _) hfirst

theorem closesAtEnd_escapedChars (multiline : Bool) {run : Nat} (hrun : run ≤ 2) (cs : List Char) :
    ClosesAtEnd ⟨true, multiline⟩ (escapedChars multiline run cs) cs := by
  cases multiline with
  | true =>
    have hlimit : Leading '"' 2 (escapedChars true run cs) cs :=
      (leading_escapedChars hrun cs).mono (Nat.sub_le 2 run)
    exact hlimit.closesAtEnd rfl
  | false =>
    cases cs with
    | nil => exact closesAtEnd_nil _
    | cons c cs =>
      rcases escapedChars_cons false run c cs with ⟨_, hmultiline, _⟩ |
        ⟨first, more, hfirst, _, hwritten⟩
      · contradiction
      · intro rest _
        rw [hwritten]
        exact .inr (closing?_cons_of_ne hfirst _)

/-- Whatever a text is, with escapes it is read back. -/
theorem scanBody_escapedChars {multiline : Bool} {run : Nat} (hrun : run ≤ 2) (cs : List Char)
    {rest : List Char} (hrest : Unquoted rest) :
    scanBody ⟨true, multiline⟩ (escapedChars multiline run cs ++
      Quotes.delimiter ⟨true, multiline⟩ ++ rest) = some (cs, rest) := by
  -- the rest of a text is written with another number of quotes in front of it
  induction cs generalizing run with
  | nil => exact scanBody_nil _ hrest
  | cons c cs ih =>
    have hcloses := closesAtEnd_escapedChars multiline hrun (c :: cs)
    rcases escapedChars_cons multiline run c cs with ⟨rfl, _, hlt, hwritten⟩ |
      ⟨first, more, _, hpart, hwritten⟩
    · have hquote : ∀ tail, scanPart ⟨true, multiline⟩ (['"'] ++ tail) = some (['"'], tail) :=
        fun tail => scanPart_plain rfl (fun _ => by decide) tail
      rw [hwritten] at hcloses ⊢
      exact scanBody_part ['"'] hcloses hrest (hquote _) (ih hlt)
    · rw [hwritten] at hcloses ⊢
      exact scanBody_part (first :: more) hcloses hrest (hpart _) (ih (Nat.zero_le 2))

end Escapes

section Literals

variable {q : Quotes}

theorem leading_of_length_le {mark : Char} {limit : Nat} {cs : List Char} (h : cs.length ≤ limit) :
    Leading mark limit cs cs := by
  induction cs generalizing limit with
  | nil => exact .all (k := 0) (Nat.zero_le limit)
  | cons c cs ih =>
    obtain ⟨limit, rfl⟩ : ∃ n, limit = n + 1 := Nat.exists_eq_add_one.2 (Nat.lt_of_lt_of_le
      (Nat.zero_lt_succ _) h)
    by_cases hc : c = mark
    · rw [hc]
      exact (ih (Nat.le_of_succ_le_succ h)).mark_cons
    · exact .apart (k := 0) (Nat.zero_le _) hc

theorem leading_of_not_hasTriple {mark : Char} {cs : List Char} (h : hasTriple mark cs = false) :
    Leading mark 2 cs cs := by
  match cs with
  | [] | [_] | [_, _] => exact leading_of_length_le (by simp)
  | a :: b :: c :: rest =>
    by_cases ha : a = mark
    · by_cases hb : b = mark
      · have hc : c ≠ mark := by
          rintro rfl
          simp [hasTriple, ha, hb] at h
        rw [ha, hb]
        exact .apart (k := 2) (Nat.le_refl 2) hc
      · rw [ha]
        exact .apart (k := 1) (Nat.le_succ 1) hb
    · exact .apart (k := 0) (Nat.zero_le 2) ha

theorem hasTriple_of_cons {mark c : Char} {cs : List Char} (h : hasTriple mark (c :: cs) = false) :
    hasTriple mark cs = false := by
  match cs with
  | [] | [_] => rfl
  | _ :: _ :: _ => exact (Bool.or_eq_false_iff.1 h).2

theorem closesAtEnd_literal {cs : List Char}
    (htriple : q.multiline = true → hasTriple q.mark cs = false)
    (hmark : q.multiline = false → q.mark ∉ cs) : ClosesAtEnd q cs cs := by
  cases hmultiline : q.multiline with
  | true => exact (leading_of_not_hasTriple (htriple hmultiline)).closesAtEnd hmultiline
  | false =>
    cases cs with
    | nil => exact closesAtEnd_nil q
    | cons c cs =>
      have hc : c ≠ q.mark := fun heq => hmark hmultiline (heq ▸ List.mem_cons_self ..)
      exact fun _ _ => .inr (closing?_cons_of_ne hc _)

/-- Without escapes a text is read back that has no control characters and no closing quotes. -/
theorem scanBody_literal {cs rest : List Char} (hrest : Unquoted rest)
    (hescapes : q.escapes = false)
    (hplain : ∀ c ∈ cs, isControl c = true → q.multiline = true ∧ c = '\n')
    (htriple : q.multiline = true → hasTriple q.mark cs = false)
    (hmark : q.multiline = false → q.mark ∉ cs) :
    scanBody q (cs ++ q.delimiter ++ rest) = some (cs, rest) := by
  induction cs with
  | nil => exact scanBody_nil q hrest
  | cons c cs ih =>
    obtain ⟨hc, hcs⟩ := List.forall_mem_cons.1 hplain
    have hpart : ∀ tail, scanPart q ([c] ++ tail) = some ([c], tail) := by
      intro tail
      by_cases hcontrol : isControl c = true
      · obtain ⟨hmultiline, rfl⟩ := hc hcontrol
        exact scanPart_newline hmultiline tail
      · refine scanPart_plain (by simpa using hcontrol) (fun h => ?_) tail
        rw [hescapes] at h
        contradiction
    exact scanBody_part [c] (closesAtEnd_literal htriple hmark) hrest (hpart _)
      (ih hcs (fun h => hasTriple_of_cons (htriple h))
        fun h hmem => hmark h (List.mem_cons_of_mem _ hmem))

end Literals

section Quoting

variable {q : Quotes} {cs text rest : List Char}

/-- A text is written without escapes only if it can be read back so. -/
theorem literal_of_quotesFor (h : (quotesFor cs).escapes = false) :
    (∀ c ∈ cs, isControl c = true → (quotesFor cs).multiline = true ∧ c = '\n') ∧
      ((quotesFor cs).multiline = true → hasTriple (quotesFor cs).mark cs = false) ∧
      ((quotesFor cs).multiline = false → (quotesFor cs).mark ∉ cs) := by
  have hcoded : (cs.any fun c => isControl c && decide (c ≠ '\n')) = false →
      ∀ c ∈ cs, isControl c = true → c = '\n' := by
    intro hany c hc hcontrol
    have hnone := List.any_eq_false.1 hany c hc
    simpa [hcontrol] using hnone
  unfold quotesFor at h ⊢
  simp only at h ⊢
  split at h
  · contradiction
  rename_i hfirst
  rw [if_neg hfirst]
  split at h
  · rename_i hsecond
    rw [if_pos hsecond]
    simp only [Bool.and_eq_true, Bool.not_eq_true', List.contains_eq_mem, decide_eq_false_iff_not]
      at hsecond
    obtain ⟨⟨hany, hnewline⟩, hmark⟩ := hsecond
    refine ⟨fun c hc hcontrol => ?_, nofun, fun _ => hmark⟩
    exact absurd (hcoded hany c hc hcontrol ▸ hc) hnewline
  rename_i hsecond
  rw [if_neg hsecond]
  split at h
  · contradiction
  rename_i hthird
  rw [if_neg hthird]
  split at h
  · rename_i hfourth
    rw [if_pos hfourth]
    rw [Bool.and_eq_true, Bool.not_eq_true', Bool.not_eq_true'] at hfourth
    exact ⟨fun c hc hcontrol => ⟨rfl, hcoded hfourth.1 c hc hcontrol⟩, fun _ => hfourth.2, nofun⟩
  · contradiction

def quotedBody (q : Quotes) (cs : List Char) : List Char :=
  if q.escapes then escapedChars q.multiline 0 cs else cs

def quotedLead (q : Quotes) (cs : List Char) : List Char :=
  if q.multiline && cs.contains '\n' then ['\n'] else []

/-- What stands between the chosen quotes is read back. -/
theorem scanBody_quotedBody (cs : List Char) (hrest : Unquoted rest) :
    scanBody (quotesFor cs) (quotedBody (quotesFor cs) cs ++ (quotesFor cs).delimiter ++ rest) =
      some (cs, rest) := by
  have hliteral := @literal_of_quotesFor cs
  generalize quotesFor cs = q at hliteral ⊢
  obtain ⟨escapes, multiline⟩ := q
  cases escapes with
  | true => exact scanBody_escapedChars (Nat.zero_le 2) cs hrest
  | false =>
    obtain ⟨hplain, htriple, hmark⟩ := hliteral rfl
    exact scanBody_literal hrest rfl hplain htriple hmark

/-- Characters that are read as a text without newlines start with none. -/
theorem newline?_eq_none_of_scanBody (hmultiline : q.multiline = true)
    (h : scanBody q cs = some (text, rest)) (htext : '\n' ∉ text) : newline? cs = none := by
  have hpart : ∀ {c : Char} {tail part more : List Char}, cs = c :: tail → c ≠ q.mark →
      scanPart q (c :: tail) = some (part, more) → '\n' ∉ part := by
    intro c tail part more hcs hc hread hmem
    rw [hcs, scanBody_of_part (closing?_cons_of_ne hc tail) hread, Option.map_eq_some_iff] at h
    obtain ⟨_, _, heq⟩ := h
    rw [← (Prod.mk.inj heq).1] at htext
    exact htext (List.mem_append_left _ hmem)
  have hmark : '\n' ≠ q.mark ∧ '\r' ≠ q.mark := by
    unfold Quotes.mark
    split <;> decide
  unfold newline?
  split
  · exact absurd (List.mem_singleton.2 rfl) (hpart rfl hmark.1 (if_pos hmultiline))
  · exact absurd (List.mem_cons_of_mem _ (List.mem_singleton.2 rfl))
      (hpart rfl hmark.2 (if_pos hmultiline))
  · rfl

/-- On one line two more quotes do not follow the opening one. -/
theorem not_isPrefixOf_of_scanBody (hmultiline : q.multiline = false) (hrest : Unquoted rest)
    (h : scanBody q cs = some (text, rest)) :
    (List.replicate 3 q.mark).isPrefixOf (q.mark :: cs) = false := by
  rw [← Bool.not_eq_true, List.isPrefixOf_iff_prefix]
  rintro ⟨more, heq⟩
  obtain rfl : q.mark :: q.mark :: more = cs := (List.cons.inj heq).2
  have hclosing : closing? q (q.mark :: q.mark :: more) = some ([], q.mark :: more) := by
    simp [closing?, hmultiline]
  rw [scanBody_of_closing hclosing] at h
  obtain ⟨_, rfl⟩ := Prod.mk.inj (Option.some.inj h)
  exact hrest.ne_mark q _ rfl rfl

/-- The way of quoting is found by the opening quotes. -/
theorem find?_allQuotes {inside : List Char}
    (h : q.multiline = false → (List.replicate 3 q.mark).isPrefixOf (q.mark :: inside) = false) :
    allQuotes.find? (fun w => w.delimiter.isPrefixOf (q.delimiter ++ inside)) = some q := by
  obtain ⟨escapes, multiline⟩ := q
  cases escapes <;> cases multiline <;>
    simp_all [allQuotes, Quotes.delimiter, Quotes.mark, List.replicate_succ]

/-- A newline behind the opening quotes does not count, and one stands there if it is needed. -/
theorem newline?_quotedLead (hmultiline : q.multiline = true) {inside : List Char}
    (h : scanBody q inside = some (cs, rest)) :
    (newline? (quotedLead q cs ++ inside)).getD (quotedLead q cs ++ inside) = inside := by
  by_cases hnewline : '\n' ∈ cs
  · rw [quotedLead, hmultiline, List.contains_eq_mem, decide_eq_true hnewline, Bool.and_self,
      if_pos rfl]
    rfl
  · rw [quotedLead, hmultiline, List.contains_eq_mem, decide_eq_false hnewline, Bool.and_false,
      if_neg Bool.false_ne_true, List.nil_append,
      newline?_eq_none_of_scanBody hmultiline h hnewline]
    rfl

/-- What is read between the quotes is read with them. -/
theorem scanQuoted_quotedIn (hrest : Unquoted rest)
    (hbody : scanBody q (quotedBody q cs ++ q.delimiter ++ rest) = some (cs, rest)) :
    scanQuoted allQuotes (quotedIn q cs ++ rest) = some (String.ofList cs, rest) := by
  have hwritten : quotedIn q cs ++ rest =
      q.delimiter ++ (quotedLead q cs ++ (quotedBody q cs ++ q.delimiter ++ rest)) := by
    simp only [quotedIn, quotedLead, quotedBody, List.append_assoc]
  rw [hwritten]
  generalize quotedBody q cs ++ q.delimiter ++ rest = inside at hbody
  have hstart : (if q.multiline then
      (newline? (quotedLead q cs ++ inside)).getD (quotedLead q cs ++ inside)
      else quotedLead q cs ++ inside) = inside := by
    split
    · rename_i hmultiline
      exact newline?_quotedLead hmultiline hbody
    · rename_i hline
      simp [quotedLead, hline]
  have hfind : allQuotes.find? (fun w =>
      w.delimiter.isPrefixOf (q.delimiter ++ (quotedLead q cs ++ inside))) = some q := by
    refine find?_allQuotes fun hline => ?_
    rw [hline, if_neg Bool.false_ne_true] at hstart
    rw [hstart]
    exact not_isPrefixOf_of_scanBody hline hrest hbody
  simp only [scanQuoted, hfind, Option.bind_eq_bind, Option.bind_some, List.drop_left, hstart,
    hbody, Option.pure_def]

/-- Every text is read back from its quoted form. -/
theorem scanQuoted_quoted (s : String) (hrest : Unquoted rest) :
    scanQuoted allQuotes ((quoted s).toList ++ rest) = some (s, rest) := by
  rw [quoted, String.toList_ofList, scanQuoted_quotedIn hrest (scanBody_quotedBody _ hrest),
    String.ofList_toList]

end Quoting

end ReconcileTrigger.Toml
