import ReconcileTrigger.CommandLine.Arguments
import ReconcileTrigger.Settings.Load
import ReconcileTrigger.Settings.Written
import ReconcileTrigger.Trigger.Gate

/-!
What a run of the program amounts to: an exit code, the output, and for a run that fails the reason.
Settings are loaded first, then files are read in the order of the arguments.
-/

namespace ReconcileTrigger.CommandLine

open Json (Value)
open Trigger (Gate)

inductive Fault
  | settings (cause : Settings.LoadError)
  | unreadableFile (path : String) (status : FileStatus)
  | malformedJson (path : String)
  | notAnEvent (path : String)
  | gate (cause : Failure)
  | comparison (cause : Failure)

namespace Fault

def reason : FileStatus → String
  | .directory => "Is a directory (os error 21)"
  | .belowFile => "Not a directory (os error 20)"
  | .nameTooLong => "File name too long (os error 36)"
  | _ => "No such file or directory (os error 2)"

def message : Fault → String
  | .settings e => "Failed to load kgate configuration: " ++ e.chain
  | .unreadableFile path status => "Failed to read file: " ++ path ++ ": " ++ reason status
  | .malformedJson path => "Invalid JSON in " ++ path
  | .notAnEvent path => path ++ " is not a watch event"
  | .gate e => "Failed to build predicates: " ++ e.message
  | .comparison e => "Failed to diff snapshots: " ++ e.message

end Fault

def readValue (files : Files) (path : String) : Except Fault Value :=
  match (files path).content? with
  | some content =>
    match Value.parse? content with
    | some v => .ok v
    | none => .error (.malformedJson path)
  | none => .error (.unreadableFile path (files path))

def decision (g : Gate) (owner : Option String) (event : Event) : Bool :=
  match owner with
  | some kind => ((g.secondary kind).result.decide event).result
  | none => (g.primary.decide event).result

def decisionOutput (files : Files) (s : Settings) (path : String) (owner : Option String) :
    Except Fault String := do
  match Event.ofValue? (← readValue files path) with
  | none => .error (.notAnEvent path)
  | some event =>
    match Gate.ofSettings s with
    | .error e => .error (.gate e)
    | .ok g => return if decision g owner event then "enqueue\n" else "skip\n"

def comparisonOutput (files : Files) (s : Settings) (old new : String) : Except Fault String := do
  let old ← readValue files old
  let new ← readValue files new
  match Comparison.rendered? ⟨s.diff.volatileFields⟩ old new with
  | .error e => .error (.comparison e)
  | .ok none => return "no changes\n"
  | .ok (some rendered) => return rendered.indented "" ++ "\n"

def Command.output (files : Files) (s : Settings) : Command → Except Fault String
  | .evaluate event owner => decisionOutput files s event owner
  | .diff old new => comparisonOutput files s old new
  | .showSettings => .ok s.written

def Invocation.output (files : Files) (environment : Environment) (i : Invocation) :
    Except Fault String :=
  match Settings.load files i.settingsPath environment with
  | .error e => .error (.settings e)
  | .ok s => i.command.output files s

def Command.paths : Command → List String
  | .evaluate event _ => [event]
  | .diff old new => [old, new]
  | .showSettings => []

def Invocation.paths (i : Invocation) : List String :=
  let settingsPath := i.settingsPath.getD Settings.defaultPath
  settingsPath :: (Settings.filesBeside settingsPath).map Prod.fst ++ i.command.paths

structure Outcome where
  exitCode : UInt32
  output : String
  failure : Option String
  deriving DecidableEq

def versionLine : String := "kgate 0.0.1\n"

def usageLine : String :=
  "Usage: kgate [-c FILE] [-l LEVEL] evaluate -e FILE [-o KIND] | diff OLD NEW | config show\n"

/-- Illegal arguments have an exit code of their own. -/
def Request.outcome (files : Files) (environment : Environment) : Option Request → Outcome
  | none => ⟨2, "", none⟩
  | some .version => ⟨0, versionLine, none⟩
  | some .help => ⟨0, usageLine, none⟩
  | some (.run i) =>
    match i.output files environment with
    | .ok output => ⟨0, output, none⟩
    | .error e => ⟨1, "", some e.message⟩

def outcome (files : Files) (environment : Environment) (arguments : List String) : Outcome :=
  Request.outcome files environment (request? environment arguments)

end ReconcileTrigger.CommandLine
