import ReconcileTrigger.CommandLine.Outcome

/-!
The program: arguments, variables and files come from the system, and the outcome goes to it.
-/

namespace ReconcileTrigger.CommandLine

def systemStatus (path : String) : IO FileStatus := do
  try
    return .text (← IO.FS.readFile path)
  catch
    | .inappropriateType none _ _ => return .directory
    | .inappropriateType (some _) _ _ => return .belowFile
    | .invalidArgument _ _ "name too long" => return .nameTooLong
    | _ => return .missing

def systemEnvironment : IO Environment := do
  let block ← IO.FS.readFile "/proc/self/environ"
  return (block.splitOn "\x00").filterMap fun entry =>
    match entry.splitOn "=" with
    | name :: value => if value.isEmpty then none else some (name, "=".intercalate value)
    | [] => none

def systemFiles (paths : List String) : IO Files := do
  let found ← paths.mapM fun path => return (path, ← systemStatus path)
  return fun path => (found.lookup path).getD .missing

end ReconcileTrigger.CommandLine

open ReconcileTrigger.CommandLine

def main (arguments : List String) : IO UInt32 := do
  let environment ← systemEnvironment
  let request := request? environment arguments
  let paths := match request with
    | some (.run i) => i.paths
    | _ => []
  let outcome := Request.outcome (← systemFiles paths) environment request
  IO.print outcome.output
  match outcome.failure with
  | some reason => IO.eprintln ("✗ " ++ reason)
  | none => if outcome.exitCode ≠ 0 then IO.eprint usageLine
  return outcome.exitCode
