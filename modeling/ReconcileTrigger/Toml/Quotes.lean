/-!
Quoted texts of TOML. There are four ways to quote: with or without escapes, on one line or over
several. A text is written in the plainest way that it admits, in an order that prefers double
quotes.
-/

namespace ReconcileTrigger.Toml

def isGap (c : Char) : Bool :=
  c = ' ' || c = '\t'

def isControl (c : Char) : Bool :=
  (c.toNat < 0x20 && c ≠ '\t') || c.toNat = 0x7f

/-- A way to quote: double quotes and escapes, or single quotes and none, with one mark on each side
or three, between which newlines may stand. -/
structure Quotes where
  escapes : Bool
  multiline : Bool
  deriving DecidableEq

namespace Quotes

def mark (q : Quotes) : Char :=
  if q.escapes then '"' else '\''

def delimiter (q : Quotes) : List Char :=
  List.replicate (if q.multiline then 3 else 1) q.mark

end Quotes

def hasTriple (mark : Char) : List Char → Bool
  | a :: b :: c :: rest =>
    (a = mark && b = mark && c = mark) || hasTriple mark (b :: c :: rest)
  | _ => false

def quotesFor (cs : List Char) : Quotes :=
  let coded := cs.any fun c => isControl c && c ≠ '\n'
  let newline := cs.contains '\n'
  let backslash := cs.contains '\\'
  if !coded && !newline && !backslash && !cs.contains '"' then ⟨true, false⟩
  else if !coded && !newline && !cs.contains '\'' then ⟨false, false⟩
  else if !coded && !backslash && !hasTriple '"' cs then ⟨true, true⟩
  else if !coded && !hasTriple '\'' cs then ⟨false, true⟩
  else ⟨true, newline⟩

def codeEscape (c : Char) : List Char :=
  ['\\', 'u', '0', '0', (Nat.digitChar (c.toNat / 16)).toUpper,
    (Nat.digitChar (c.toNat % 16)).toUpper]

def escapedChar (multiline : Bool) (c : Char) : List Char :=
  if c = '\\' then ['\\', '\\']
  else if c = '\x08' then ['\\', 'b']
  else if c = '\t' then ['\\', 't']
  else if c = '\n' then if multiline then ['\n'] else ['\\', 'n']
  else if c = '\x0c' then ['\\', 'f']
  else if c = '\r' then ['\\', 'r']
  else if isControl c then codeEscape c
  else [c]

/-- The written form of a text with escapes. Over several lines only every third quote of a run
is escaped; `run` quotes have been written since the last other character or escape. -/
def escapedChars (multiline : Bool) (run : Nat) : List Char → List Char
  | [] => []
  | c :: rest =>
    if c = '"' then
      if multiline ∧ run < 2 then '"' :: escapedChars multiline (run + 1) rest
      else '\\' :: '"' :: escapedChars multiline 0 rest
    else escapedChar multiline c ++ escapedChars multiline 0 rest

/-- The text in the given quotes. Over several lines a newline after the opening quotes does not
count, and one stands there if the text has a newline of its own. -/
def quotedIn (q : Quotes) (cs : List Char) : List Char :=
  let lead := if q.multiline && cs.contains '\n' then ['\n'] else []
  let body := if q.escapes then escapedChars q.multiline 0 cs else cs
  q.delimiter ++ lead ++ body ++ q.delimiter

def quoted (s : String) : String :=
  String.ofList (quotedIn (quotesFor s.toList) s.toList)

end ReconcileTrigger.Toml
