import ReconcileTrigger.Json.Numeral
import ReconcileTrigger.Json.Value
import ReconcileTrigger.Text.Digits

/-!
Tokens of JSON texts: brackets, commas, colons, and the values that hold no other value.
-/

namespace ReconcileTrigger.Json

open Text (hexValue?)

inductive Token
  | openArray
  | closeArray
  | openObject
  | closeObject
  | comma
  | colon
  | scalar (value : Value)

def isHighSurrogate (n : Nat) : Bool := 0xD800 ≤ n && n < 0xDC00

def isLowSurrogate (n : Nat) : Bool := 0xDC00 ≤ n && n < 0xE000

def joinSurrogates (high low : Nat) : Char :=
  Char.ofNat (0x10000 + (high - 0xD800) * 0x400 + (low - 0xDC00))

def escaped? : Char → Option Char
  | '"' => some '"'
  | '\\' => some '\\'
  | '/' => some '/'
  | 'b' => some '\x08'
  | 'f' => some '\x0c'
  | 'n' => some '\n'
  | 'r' => some '\r'
  | 't' => some '\t'
  | _ => none

def surrogatePair? (high low : Option Nat) : Option Char :=
  match high, low with
  | some high, some low =>
    if isHighSurrogate high && isLowSurrogate low then some (joinSurrogates high low) else none
  | _, _ => none

def plainCode? (code : Option Nat) : Option Char :=
  match code with
  | some code =>
    if isHighSurrogate code || isLowSurrogate code then none else some (Char.ofNat code)
  | none => none

/-- The first character of the inside of a string, and what follows. Control characters and
lone surrogates are refused. -/
def scanChar : List Char → Option (Char × List Char)
  | '\\' :: 'u' :: a :: b :: c :: d :: rest =>
    match plainCode? (hexValue? [a, b, c, d]), rest with
    | some code, rest => some (code, rest)
    | none, '\\' :: 'u' :: e :: f :: g :: h :: rest =>
      (surrogatePair? (hexValue? [a, b, c, d]) (hexValue? [e, f, g, h])).map (·, rest)
    | none, _ => none
  | '\\' :: c :: rest => (escaped? c).map (·, rest)
  | c :: rest => if c.toNat < 0x20 || c = '\\' then none else some (c, rest)
  | [] => none

theorem length_scanChar {cs rest : List Char} {c : Char} (h : scanChar cs = some (c, rest)) :
    rest.length < cs.length := by
  unfold scanChar at h
  split at h
  · split at h
    · obtain ⟨_, rfl⟩ : _ ∧ _ = rest := by simpa using h
      simp only [List.length_cons]
      omega
    · obtain ⟨_, _, _, rfl⟩ : ∃ c', _ ∧ c' = c ∧ _ = rest := by simpa using h
      simp only [List.length_cons]
      omega
    · simp at h
  · obtain ⟨_, _, _, rfl⟩ : ∃ c', _ ∧ c' = c ∧ _ = rest := by simpa using h
    simp only [List.length_cons]
    omega
  · grind
  · simp at h

def scanString (cs : List Char) : Option (List Char × List Char) :=
  match cs with
  | '"' :: rest => some ([], rest)
  | cs =>
    match _h : scanChar cs with
    | none => none
    | some (c, rest) => (scanString rest).map fun (s, rest) => (c :: s, rest)
termination_by cs.length
decreasing_by exact length_scanChar _h

theorem length_scanString {cs s rest : List Char} (h : scanString cs = some (s, rest)) :
    rest.length < cs.length := by
  fun_induction scanString cs generalizing s rest with
  | case1 => simp_all
  | case2 => simp at h
  | case3 cs _ c _ hc ih =>
    simp only [Option.map_eq_some_iff, Prod.mk.injEq, Prod.exists] at h
    obtain ⟨s', rest', hrest, _, rfl⟩ := h
    exact Nat.lt_trans (ih hrest) (length_scanChar hc)

def isSpace (c : Char) : Bool :=
  c = ' ' || c = '\n' || c = '\t' || c = '\r'

def punctuation? : Char → Option Token
  | '[' => some .openArray
  | ']' => some .closeArray
  | '\x7b' => some .openObject
  | '\x7d' => some .closeObject
  | ',' => some .comma
  | ':' => some .colon
  | _ => none

def scanToken : List Char → Option (Token × List Char)
  | 'n' :: 'u' :: 'l' :: 'l' :: rest => some (.scalar .null, rest)
  | 't' :: 'r' :: 'u' :: 'e' :: rest => some (.scalar (.bool true), rest)
  | 'f' :: 'a' :: 'l' :: 's' :: 'e' :: rest => some (.scalar (.bool false), rest)
  | '"' :: rest =>
    (scanString rest).map fun (s, rest) => (.scalar (.string (String.ofList s)), rest)
  | c :: rest =>
    match punctuation? c with
    | some token => some (token, rest)
    | none => do
      let (literal, rest) ← scanLiteral (c :: rest)
      return (.scalar (.number (← literal.number?)), rest)
  | [] => none

theorem length_scanToken {cs rest : List Char} {t : Token} (h : scanToken cs = some (t, rest)) :
    rest.length < cs.length := by
  unfold scanToken at h
  split at h
  · grind
  · grind
  · grind
  · simp only [Option.map_eq_some_iff, Prod.mk.injEq, Prod.exists] at h
    obtain ⟨_, _, hs, _, rfl⟩ := h
    exact Nat.lt_succ_of_lt (length_scanString hs)
  · split at h
    · grind
    · simp only [Option.bind_eq_bind, Option.bind_eq_some_iff, Option.pure_def,
        Option.some.injEq, Prod.mk.injEq] at h
      obtain ⟨⟨_, _⟩, hl, _, _, _, rfl⟩ := h
      exact length_scanLiteral hl
  · simp at h

def tokens? (cs : List Char) : Option (List Token) :=
  match cs with
  | [] => some []
  | c :: rest =>
    if isSpace c then tokens? rest
    else
      match _h : scanToken (c :: rest) with
      | none => none
      | some (token, rest) => (tokens? rest).map (token :: ·)
termination_by cs.length
decreasing_by
  · simp
  · exact length_scanToken _h

end ReconcileTrigger.Json
