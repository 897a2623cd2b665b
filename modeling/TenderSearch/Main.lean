import Std.Time.DateTime.Timestamp
import TenderSearch.Calendar
import TenderSearch.Command.Run

/-!
# The program

Reads what a command line asks for, runs it, and reports how it ended.
-/

namespace TenderSearch.Command

/-- What is found at a path of the file system. -/
def readFile (path : String) : IO File :=
  try
    return .text (← IO.FS.readFile path)
  catch
    | .noFileOrDirectory .. => return .missing
    | _ => return .unreadable

/-- The files that a command line reads, and standard input if it reads it. -/
def gather (arguments : List String) : IO (List (String × File) × String) :=
  match Invocation.read arguments with
  | .error _ => return ([], "")
  | .ok invocation => do
      let paths := invocation.request.paths
      let files ← (invocation.config :: paths).mapM fun path => return (path, ← readFile path)
      let input ← if paths.any isStandardInput then (← IO.getStdin).readToEnd else pure ""
      return (files, input)

def thisYear : IO Int :=
  return Calendar.yearOfDay ((← Std.Time.Timestamp.now).toSecondsSinceUnixEpoch.val / 86400)

/-- Reports how a command line ended. -/
def report (outcome : Outcome) : IO Unit :=
  match outcome with
  | .printed text => IO.print text
  | .failed failure => IO.eprintln ("Error: " ++ failure.message)
  | .misuse => IO.eprintln "error: unusable arguments\n\nFor more information, try '--help'."

end TenderSearch.Command

open TenderSearch in
def main (arguments : List String) : IO UInt32 := do
  let (files, input) ← Command.gather arguments
  let outcome := Command.run (← Command.thisYear)
    (fun path => (files.lookup path).getD .missing) input arguments
  Command.report outcome
  return UInt32.ofNat outcome.exitCode
