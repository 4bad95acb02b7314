import ReconcileTrigger.Environment

/-!
Command-line arguments. Options belong to the command they follow, except that the path of the
settings file and the log level may stand at any level; of these the value at the deepest level
counts. An option may be given once at a level, and its value may stand beside it, behind an equals
sign or in the next argument.
-/

namespace ReconcileTrigger.CommandLine

inductive Command
  | evaluate (event : String) (owner : Option String)
  | diff (old new : String)
  | showSettings
  deriving DecidableEq

structure Invocation where
  settingsPath : Option String
  command : Command
  deriving DecidableEq

inductive Request
  | run (invocation : Invocation)
  | version
  | help
  deriving DecidableEq

inductive Scope
  | program
  | evaluate
  | diff
  | config
  | configShow
  deriving DecidableEq

inductive Parameter
  | config
  | logLevel
  | event
  | owner
  deriving DecidableEq

namespace Parameter

def word : Parameter → String
  | .config => "config"
  | .logLevel => "log-level"
  | .event => "event"
  | .owner => "owner"

def letter : Parameter → Char
  | .config => 'c'
  | .logLevel => 'l'
  | .event => 'e'
  | .owner => 'o'

end Parameter

namespace Scope

def subcommand? : Scope → String → Option Scope
  | .program, "evaluate" => some .evaluate
  | .program, "diff" => some .diff
  | .program, "config" => some .config
  | .config, "show" => some .configShow
  | _, _ => none

def isGroup : Scope → Bool
  | .program | .config => true
  | _ => false

def parameters : Scope → List Parameter
  | .evaluate => [.config, .logLevel, .event, .owner]
  | _ => [.config, .logLevel]

def operandCount : Scope → Nat
  | .diff => 2
  | _ => 0

end Scope

inductive Argument
  | word (text : String)
  | separator
  | parameter (parameter : Parameter) (value : Option String)
  | inquiry (request : Request)
  | unknown

namespace Argument

def ofLong (scope : Scope) (text : List Char) : Argument :=
  let word := String.ofList (text.takeWhile (· ≠ '='))
  let value := match text.dropWhile (· ≠ '=') with
    | '=' :: value => some (String.ofList value)
    | _ => none
  match scope.parameters.find? (·.word == word) with
  | some p => .parameter p value
  | none =>
    if value.isSome then .unknown
    else if word = "help" then .inquiry .help
    else if word = "version" ∧ scope = .program then .inquiry .version
    else .unknown

/-- An argument with a letter after one dash. What stands beside the letter is the value. -/
def ofShort (scope : Scope) (letter : Char) (rest : List Char) : Argument :=
  match scope.parameters.find? (·.letter == letter) with
  | some p =>
    match rest with
    | [] => .parameter p none
    | '=' :: value => .parameter p (some (String.ofList value))
    | value => .parameter p (some (String.ofList value))
  | none =>
    if letter = 'h' then .inquiry .help
    else if letter = 'V' ∧ scope = .program then .inquiry .version
    else .unknown

/-- A single dash is a word. -/
def ofText (scope : Scope) (text : String) : Argument :=
  match text.toList with
  | ['-', '-'] => .separator
  | '-' :: '-' :: rest => ofLong scope rest
  | '-' :: letter :: rest => ofShort scope letter rest
  | _ => .word text

end Argument

def isValue (text : String) : Bool :=
  text = "-" || !text.startsWith "-"

/-- The arguments read so far. The options of the scopes around this one stand apart, the deepest
first. -/
structure Progress where
  scope : Scope := .program
  options : List (Parameter × String) := []
  outer : List (Parameter × String) := []
  operands : List String := []

namespace Progress

def enter (p : Progress) (scope : Scope) : Progress :=
  { scope, outer := p.options ++ p.outer }

/-- The progress with one more option, which must not have been given in this scope. -/
def give? (p : Progress) (parameter : Parameter) (value : String) : Option Progress :=
  if (p.options.lookup parameter).isSome then none
  else some { p with options := (parameter, value) :: p.options }

def operand? (p : Progress) (text : String) : Option Progress :=
  if p.operands.length < p.scope.operandCount then
    some { p with operands := p.operands ++ [text] }
  else none

def value? (p : Progress) (parameter : Parameter) : Option String :=
  (p.options ++ p.outer).lookup parameter

def command? (p : Progress) : Option Command :=
  match p.scope, p.operands with
  | .evaluate, _ => (p.value? .event).map fun event => .evaluate event (p.value? .owner)
  | .diff, [old, new] => some (.diff old new)
  | .configShow, _ => some .showSettings
  | _, _ => none

def request? (p : Progress) : Option Request :=
  p.command?.map fun command => .run ⟨p.value? .config, command⟩

def readOperands? (p : Progress) (texts : List String) : Option Request := do
  (← texts.foldlM operand? p).request?

/-- The request for help on the command that words select, or on help itself. -/
def readTopic? (scope : Scope) : List String → Option Request
  | [] => some .help
  | word :: rest =>
    match scope.subcommand? word with
    | some scope => readTopic? scope rest
    | none => if word = "help" ∧ scope.isGroup ∧ rest.isEmpty then some .help else none

def read? (p : Progress) : List String → Option Request
  | [] => p.request?
  | text :: rest =>
    match Argument.ofText p.scope text with
    | .separator => p.readOperands? rest
    | .inquiry request => some request
    | .unknown => none
    | .parameter parameter (some value) =>
      (p.give? parameter value).bind fun p => read? p rest
    | .parameter parameter none =>
      match rest with
      | value :: rest =>
        if isValue value then (p.give? parameter value).bind fun p => read? p rest else none
      | [] => none
    | .word word =>
      match p.scope.subcommand? word with
      | some scope => read? (p.enter scope) rest
      | none =>
        if word = "help" ∧ p.scope.isGroup then readTopic? p.scope rest
        else (p.operand? word).bind fun p => read? p rest

end Progress

def settingsVariable : String := "KGATE_CONFIG"

def request? (environment : Environment) (arguments : List String) : Option Request :=
  (Progress.read? {} arguments).map fun
    | .run i =>
      .run { i with settingsPath := i.settingsPath <|> environment.lookup settingsVariable }
    | request => request

end ReconcileTrigger.CommandLine
