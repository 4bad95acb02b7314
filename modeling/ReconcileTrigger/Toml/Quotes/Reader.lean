import ReconcileTrigger.Text.Digits
import ReconcileTrigger.Toml.Quotes

/-!
Reading quoted texts. The opening quotes fix the way of quoting; what follows is read part by
part up to the closing ones.
-/

namespace ReconcileTrigger.Toml

open Text (hexValue?)

def newline? : List Char → Option (List Char)
  | '\n' :: rest => some rest
  | '\r' :: '\n' :: rest => some rest
  | _ => none

def codeChar? (digits : List Char) : Option Char := do
  let code ← hexValue? digits
  if code.isValidChar then some (Char.ofNat code) else none

def letterEscape? : Char → Option Char
  | '"' => some '"'
  | '\\' => some '\\'
  | 'b' => some '\x08'
  | 't' => some '\t'
  | 'n' => some '\n'
  | 'f' => some '\x0c'
  | 'r' => some '\r'
  | 'e' => some '\x1b'
  | _ => none

def scanEscape : List Char → Option (Char × List Char)
  | 'x' :: a :: b :: rest => (codeChar? [a, b]).map (·, rest)
  | 'u' :: a :: b :: c :: d :: rest => (codeChar? [a, b, c, d]).map (·, rest)
  | 'U' :: a :: b :: c :: d :: e :: f :: g :: h :: rest =>
    (codeChar? [a, b, c, d, e, f, g, h]).map (·, rest)
  | c :: rest => (letterEscape? c).map (·, rest)
  | [] => none

def skipLines : List Char → List Char
  | '\r' :: '\n' :: rest => skipLines rest
  | c :: rest => if isGap c || c = '\n' then skipLines rest else c :: rest
  | [] => []

/-- A part of a quoted text that can be read on its own, and what follows: a character, an escape
or, over several lines, a newline as it stands or a backslash that continues a line. -/
def scanPart (q : Quotes) : List Char → Option (List Char × List Char)
  | '\n' :: rest => if q.multiline then some (['\n'], rest) else none
  | '\r' :: '\n' :: rest => if q.multiline then some (['\r', '\n'], rest) else none
  | '\\' :: rest =>
    if !q.escapes then some (['\\'], rest)
    else if q.multiline && (newline? (rest.dropWhile isGap)).isSome then
      some ([], skipLines rest)
    else (scanEscape rest).map fun (c, rest) => ([c], rest)
  | c :: rest => if isControl c then none else some ([c], rest)
  | [] => none

/-- The closing quotes at the front, and what follows. Over several lines up to two marks before
them belong to the text. -/
def closing? (q : Quotes) (cs : List Char) : Option (List Char × List Char) :=
  if q.multiline then
    let run := cs.take 5 |>.takeWhile (· = q.mark)
    if run.length < 3 then none else some (run.drop 3, cs.drop run.length)
  else
    match cs with
    | c :: rest => if c = q.mark then some ([], rest) else none
    | [] => none

theorem length_scanEscape {cs rest : List Char} {c : Char} (h : scanEscape cs = some (c, rest)) :
    rest.length < cs.length := by
  unfold scanEscape at h
  split at h
  · obtain ⟨_, _, _, rfl⟩ : ∃ c', _ ∧ c' = c ∧ _ = rest := by simpa using h
    simp only [List.length_cons]
    omega
  · obtain ⟨_, _, _, rfl⟩ : ∃ c', _ ∧ c' = c ∧ _ = rest := by simpa using h
    simp only [List.length_cons]
    omega
  · obtain ⟨_, _, _, rfl⟩ : ∃ c', _ ∧ c' = c ∧ _ = rest := by simpa using h
    simp only [List.length_cons]
    omega
  · obtain ⟨_, _, _, rfl⟩ : ∃ c', _ ∧ c' = c ∧ _ = rest := by simpa using h
    simp
  · simp at h

theorem length_skipLines (cs : List Char) : (skipLines cs).length ≤ cs.length := by
  fun_induction skipLines cs <;> grind

theorem length_scanPart {q : Quotes} {cs part rest : List Char}
    (h : scanPart q cs = some (part, rest)) : rest.length < cs.length := by
  unfold scanPart at h
  split at h
  · grind
  · grind
  · rename_i rest'
    have hskip := length_skipLines rest'
    split at h
    · grind
    · split at h
      · grind
      · simp only [Option.map_eq_some_iff, Prod.mk.injEq, Prod.exists] at h
        obtain ⟨_, _, he, _, rfl⟩ := h
        exact Nat.lt_succ_of_lt (length_scanEscape he)
  · grind
  · simp at h

def scanBody (q : Quotes) (cs : List Char) : Option (List Char × List Char) :=
  match closing? q cs with
  | some found => some found
  | none =>
    match _h : scanPart q cs with
    | none => none
    | some (part, rest) => (scanBody q rest).map fun (body, rest) => (part ++ body, rest)
termination_by cs.length
decreasing_by exact length_scanPart _h

/-- The ways to quote, those with the longer delimiter first. -/
def allQuotes : List Quotes :=
  [⟨true, true⟩, ⟨false, true⟩, ⟨true, false⟩, ⟨false, false⟩]

def scanQuoted (ways : List Quotes) (cs : List Char) : Option (String × List Char) := do
  let q ← ways.find? fun q => q.delimiter.isPrefixOf cs
  let inside := cs.drop q.delimiter.length
  let start := if q.multiline then (newline? inside).getD inside else inside
  let (body, rest) ← scanBody q start
  return (String.ofList body, rest)

end ReconcileTrigger.Toml
