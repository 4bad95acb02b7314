import ReconcileTrigger.Toml.Quotes.Reader
import ReconcileTrigger.Toml.Scalar
import ReconcileTrigger.Toml.Table

/-!
Reading TOML texts. Values may nest, so their readers are given as many steps as the text has
characters; each step takes at least one of them. How deep values may nest, and how many names a
key may have, is limited.
-/

namespace ReconcileTrigger.Toml

def isKeyChar (c : Char) : Bool :=
  c.isAlphanum || c = '_' || c = '-'

def skipGap (cs : List Char) : List Char :=
  cs.dropWhile isGap

/-- The text after blanks, newlines and comments. A control character in a comment is left in
place, where nothing can follow. -/
def skipSpace (comment : Bool) : List Char → List Char
  | [] => []
  | '\n' :: rest => skipSpace false rest
  | '\r' :: '\n' :: rest => skipSpace false rest
  | c :: rest =>
    if comment then if isControl c then c :: rest else skipSpace true rest
    else if isGap c then skipSpace false rest
    else if c = '#' then skipSpace true rest
    else c :: rest

def lineEnd? (cs : List Char) : Option (List Char) :=
  let cs := match skipGap cs with
    | '#' :: rest => rest.dropWhile fun c => !isControl c
    | cs => cs
  if cs.isEmpty then some [] else newline? cs

def scanName (cs : List Char) : Option (String × List Char) :=
  match cs.takeWhile isKeyChar with
  | [] => scanQuoted [⟨true, false⟩, ⟨false, false⟩] cs
  | name => some (String.ofList name, cs.dropWhile isKeyChar)

/-- The number of names in a key, and of lists and tables around a value. -/
def nestingLimit : Nat := 80

def scanNames : Nat → List Char → Option (Key × List Char)
  | 0, _ => none
  | names + 1, cs => do
    let (name, rest) ← scanName (skipGap cs)
    match skipGap rest with
    | '.' :: rest =>
      let (key, rest) ← scanNames names rest
      return (⟨name :: key.tables, key.name⟩, rest)
    | rest => return (⟨[], name⟩, rest)

def scanKey (cs : List Char) : Option (Key × List Char) :=
  scanNames nestingLimit cs

mutual

/-- The value at the front, and what follows. At most `depth` lists and tables stand inside one
another, so at depth zero only a value of one piece is left. -/
def scanValue : Nat → Nat → List Char → Option (Document × List Char)
  | 0, _, _ => none
  | steps + 1, depth + 1, '[' :: rest =>
    (scanElements steps depth rest).map fun (elements, rest) => (.list elements, rest)
  | steps + 1, depth + 1, '\x7b' :: rest => do
    let (members, rest) ← scanMembers steps depth rest
    return (← tableOf? members, rest)
  | _ + 1, _, cs =>
    match scanQuoted allQuotes cs with
    | some (s, rest) => some (.text s, rest)
    | none => scanScalar cs

/-- The elements of a list up to its closing bracket, and what follows. A comma may stand after the
last element. -/
def scanElements : Nat → Nat → List Char → Option (List Document × List Char)
  | 0, _, _ => none
  | steps + 1, depth, cs =>
    match skipSpace false cs with
    | ']' :: rest => some ([], rest)
    | cs => do
      let (value, rest) ← scanValue steps depth cs
      match skipSpace false rest with
      | ',' :: rest =>
        let (values, rest) ← scanElements steps depth rest
        return (value :: values, rest)
      | ']' :: rest => return ([value], rest)
      | _ => none

/-- The members of a table up to its closing brace, and what follows. They may stand on several
lines, but each key stands on one, and a comma may stand after the last member. -/
def scanMembers : Nat → Nat → List Char → Option (List (Key × Document) × List Char)
  | 0, _, _ => none
  | steps + 1, depth, cs =>
    match skipSpace false cs with
    | '\x7d' :: rest => some ([], rest)
    | cs => do
      let (key, rest) ← scanKey cs
      match skipSpace false rest with
      | '=' :: rest =>
        let (value, rest) ← scanValue steps depth (skipSpace false rest)
        match skipSpace false rest with
        | ',' :: rest =>
          let (members, rest) ← scanMembers steps depth rest
          return ((key, value) :: members, rest)
        | '\x7d' :: rest => return ([(key, value)], rest)
        | _ => none
      | _ => none

end

def scanStatement (steps : Nat) : List Char → Option (Statement × List Char)
  | '[' :: '[' :: rest => do
    match ← scanKey rest with
    | (key, ']' :: ']' :: rest) => return (.element key, rest)
    | _ => none
  | '[' :: rest => do
    match ← scanKey rest with
    | (key, ']' :: rest) => return (.table key, rest)
    | _ => none
  | cs => do
    match ← scanKey cs with
    | (key, '=' :: rest) =>
      let (value, rest) ← scanValue steps nestingLimit (skipGap rest)
      return (.entry key value, rest)
    | _ => none

def scanStatements : Nat → List Char → Option (List Statement)
  | 0, _ => none
  | steps + 1, cs =>
    match skipSpace false cs with
    | [] => some []
    | cs => do
      let (statement, rest) ← scanStatement steps cs
      let statements ← scanStatements steps (← lineEnd? rest)
      return statement :: statements

def dropMark : List Char → List Char
  | '\ufeff' :: rest => rest
  | cs => cs

def parse? (s : String) : Option (Fields Document) := do
  let cs := dropMark s.toList
  fieldsOf? (← scanStatements (cs.length + 1) cs)

end ReconcileTrigger.Toml
