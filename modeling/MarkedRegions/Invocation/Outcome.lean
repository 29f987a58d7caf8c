import MarkedRegions.Edit
import MarkedRegions.Invocation.Arguments
import MarkedRegions.Settings.Format

/-!
# How a run ends

A run prints something, says that it has updated a file, fails, or is refused. Its exit code and
what it says on the error stream follow from which of these it is.

## Main definitions

* `TaskError`: why a task is not carried out
* `Outcome`: how a run ends
* `Outcome.exitCode`, `Outcome.output`, `Outcome.remark`: what the surroundings see of it
-/

namespace MarkedRegions

/-- **Why a task is not carried out.** -/
inductive TaskError
  | edit (cause : EditError)
  | file (cause : FileError)
  | settings (cause : SettingsError)
deriving DecidableEq, Repr

/-- The wording of a task that is not carried out. -/
def TaskError.message : TaskError → String
  | .edit cause => cause.message
  | .file cause => cause.message
  | .settings cause => cause.message

/-- **How a run ends.** -/
inductive Outcome
  -- The output is printed.
  | printed (output : Bytes)
  -- A file has been written, with so many assignments.
  | updated (count : Nat) (path : Path)
  | failed (cause : TaskError)
  -- There is no task, because the command line is refused.
  | refused (cause : UsageError)
deriving DecidableEq, Repr

/-- A word that messages begin with, in bold and in a colour of the terminal's. -/
def inColour (colour : Nat) (word : String) : String :=
  "\x1b[1;" ++ toString colour ++ "m" ++ word ++ "\x1b[0m"

namespace Outcome

/-- The command line's requests that are no tasks: what is printed, or the refusal. -/
def ofRefusal : Arguments.Refusal → Outcome
  | .usage cause => .refused cause
  | .help => .printed (.ofString programUsage)
  | .version => .printed (.ofString (programVersion ++ "\n"))

/-- How a task ends. -/
def ofResult : Except TaskError Outcome → Outcome
  | .ok outcome => outcome
  | .error cause => .failed cause

/-- **The exit code.** -/
def exitCode : Outcome → UInt8
  | .printed _ | .updated .. => 0
  | .failed _ => 1
  | .refused _ => 2

/-- **What is printed.** -/
def output : Outcome → Bytes
  | .printed output => output
  | .updated .. | .failed _ | .refused _ => []

/-- The word before a failure. -/
def failureLabel (coloured : Bool) : String :=
  if coloured then inColour 31 "error" else "error"

/-- The word before a success. -/
def successLabel (coloured : Bool) : String :=
  if coloured then inColour 32 "OK" else "OK"

/-- **What is said on the error stream**, after the reports. -/
def remark (coloured : Bool) : Outcome → String
  | .printed _ => ""
  | .updated count path =>
    successLabel coloured ++ " Updated " ++ toString count ++ " marker(s) in " ++ path.text ++ "\n"
  | .failed cause => failureLabel coloured ++ ": " ++ cause.message ++ "\n"
  | .refused cause => cause.message

end Outcome

end MarkedRegions
