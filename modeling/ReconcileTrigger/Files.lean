import ReconcileTrigger.Text.Words

/-!
Files as a program finds them: what is under a path. A directory of texts answers for every path
below it. Of what is outside only the directories that every system has and the null device are
known.
-/

namespace ReconcileTrigger

/-- What is found under a path. The null device is no file, but reads as an empty text. -/
inductive FileStatus
  | text (content : String)
  | directory
  | nullDevice
  | missing
  | belowFile
  | nameTooLong
  deriving DecidableEq

namespace FileStatus

def isPresent : FileStatus → Bool
  | .text _ | .directory | .nullDevice => true
  | .missing | .belowFile | .nameTooLong => false

def content? : FileStatus → Option String
  | .text content => some content
  | .nullDevice => some ""
  | _ => none

end FileStatus

abbrev Files := String → FileStatus

namespace Files

def parts (path : String) : List (List Char) :=
  Text.split '/' path.toList

def location (path : String) : List (List Char) :=
  (parts path).filter (· ≠ [])

/-- Where a walk along a path stands: below the directory of the texts or below the root directory,
with the names on the way from there, or at a directory above that of the texts. -/
inductive Position
  | below (names : List (List Char))
  | root (names : List (List Char))
  | above

def statusBelow (texts : List (String × String)) (names : List (List Char)) : FileStatus :=
  match texts.find? fun (path, _) => location path == names with
  | some (_, content) => .text content
  | none =>
    if names.isEmpty || texts.any fun (path, _) => names.isPrefixOf (location path) then .directory
    else .missing

def systemDirectories : List String :=
  ["bin", "boot", "dev", "etc", "home", "lib", "media", "mnt", "opt", "proc", "root", "run", "sbin",
    "srv", "sys", "tmp", "usr", "var"]

def statusOfSystem (names : List (List Char)) : FileStatus :=
  match names.map String.ofList with
  | [] => .directory
  | [name] => if systemDirectories.contains name then .directory else .missing
  | names => if names = ["dev", "null"] then .nullDevice else .missing

def statusAt (texts : List (String × String)) : Position → FileStatus
  | .below names => statusBelow texts names
  | .root names => statusOfSystem names
  | .above => .directory

namespace Position

def parent : Position → Position
  | .above | .below [] => .above
  | .below names => .below names.dropLast
  | .root names => .root names.dropLast

def child? (name : List Char) : Position → Option Position
  | .below names => some (.below (names ++ [name]))
  | .root names => some (.root (names ++ [name]))
  | .above => none

end Position

def nameLimit : Nat := 255

def pathLimit : Nat := 4095

def walk (texts : List (String × String)) : Position → List (List Char) → FileStatus
  | position, [] => statusAt texts position
  | position, part :: rest =>
    match statusAt texts position with
    | .text _ | .nullDevice => .belowFile
    | .directory =>
      if part = [] ∨ part = ['.'] then walk texts position rest
      else if part = ['.', '.'] then walk texts position.parent rest
      else if nameLimit < (String.ofList part).utf8ByteSize then .nameTooLong
      else
        match position.child? part with
        | some position => walk texts position rest
        | none => .missing
    | status => status

def ofTexts (texts : List (String × String)) : Files := fun path =>
  if path.isEmpty then .missing
  else if pathLimit < path.utf8ByteSize then .nameTooLong
  else walk texts (if path.startsWith "/" then .root [] else .below []) (parts path)

end Files

end ReconcileTrigger
