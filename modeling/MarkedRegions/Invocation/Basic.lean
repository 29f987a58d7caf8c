import MarkedRegions.Disk.Path
import MarkedRegions.Text.Plain

/-!
# What a command line asks for

A command line asks for one of two tasks: to replace the contents of regions of a file, or to
display those of one region. Around them stand settings that both share. A command line that asks
for neither is refused, with a message for the user.

## Main definitions

* `Content`, `Assignment`: what a region is to hold
* `Task`, `Invocation`: a task, and the settings around it
* `Switch`, `Operand`: what may be written on a command line
* `UsageError`: why a command line is refused
-/

namespace MarkedRegions

/-- **Where new contents come from.** -/
inductive Content
  | inline (contents : Bytes)
  | file (path : Path)
deriving DecidableEq, Repr

/-- **What a region is to hold.** -/
structure Assignment where
  marker : Bytes
  content : Content
deriving DecidableEq, Repr

/-- **A task**: to replace the contents of regions of a file, in order, and to write the file or
print it; or to print those of one region. -/
inductive Task
  | replace (file : Path) (assignments : List Assignment) (write : Bool)
  | display (file : Path) (marker : Bytes)
deriving DecidableEq, Repr

/-- **A task and the settings around it.** -/
structure Invocation where
  verbose : Bool
  lead : Option Bytes
  settings : Option Path
  task : Task
deriving DecidableEq, Repr

/-! ## Parts of a command line -/

/-- **Switches**, which are given or not. -/
inductive Switch
  | verbose
  | write
  | help
  | version
deriving DecidableEq, Repr

/-- **What takes a value**: options, and the operands that stand alone. -/
inductive Operand
  | lead
  | settings
  | assignment
  | file
  | marker
deriving DecidableEq, Repr

/-- How a switch is written in messages. -/
def Switch.label : Switch → String
  | .verbose => "--verbose"
  | .write => "--write"
  | .help => "--help"
  | .version => "--version"

/-- How what takes a value is written in messages. -/
def Operand.label : Operand → String
  | .lead => "--prefix <PREFIX>"
  | .settings => "--config <CONFIG>"
  | .assignment => "--set <NAME=VALUE>"
  | .file => "<FILE>"
  | .marker => "<MARKER>"

/-! ## Refusals -/

/-- **Why an assignment is refused.** -/
inductive AssignmentFault
  | noValue (text : Bytes)
  | noName
deriving DecidableEq, Repr

/-- The wording of a refused assignment. -/
def AssignmentFault.message : AssignmentFault → String
  | .noValue text => "expected NAME=VALUE, got '" ++ Utf8.lossy text ++ "'"
  | .noName => "marker name must not be empty"

/-- **Why a command line is refused.** -/
inductive UsageError
  -- Nothing of this form is expected here.
  | unexpected (argument : String)
  | unexpectedValue (value : Bytes) (switch : Switch)
  -- A value is missing, or empty where it may not be.
  | missingValue (operand : Operand)
  | repeatedSwitch (switch : Switch)
  | repeatedOption (operand : Operand)
  -- An assignment can not be read.
  | assignment (text : Bytes) (fault : AssignmentFault)
  | notText
  | missingOperands
  | missingCommand
  -- A word stands where a command is expected.
  | unknownCommand (word : String)
  | nothingGiven
deriving DecidableEq, Repr

/-- What the program is for, in one line. -/
def programSummary : String :=
  "Command-line interface for marker region replacement"

def programVersion : String :=
  "mr 0.1.0"

/-- The ways to call the program. -/
def programUsage : String :=
  programSummary ++ "\n\nUsage:\n"
    ++ "  mr [OPTIONS] replace <FILE> --set <NAME=VALUE>... [--write]\n"
    ++ "  mr [OPTIONS] show <FILE> <MARKER>\n\n"
    ++ "Options:\n"
    ++ "  -v, --verbose          Enable verbose output\n"
    ++ "      --prefix <PREFIX>  Prefix that starts every marker line (overrides --config)\n"
    ++ "      --config <CONFIG>  Config file (.toml, .json, .yaml) holding the marker syntax\n"
    ++ "  -h, --help             Print help\n"
    ++ "  -V, --version          Print version\n"

namespace UsageError

/-- The first line of a refusal. -/
def headline : UsageError → String
  | .unexpected argument => "unexpected argument '" ++ argument ++ "' found"
  | .unexpectedValue value switch =>
    "unexpected value '" ++ Utf8.lossy value ++ "' for '" ++ switch.label
      ++ "' found; no more were expected"
  | .missingValue operand =>
    "a value is required for '" ++ operand.label ++ "' but none was supplied"
  | .repeatedSwitch switch =>
    "the argument '" ++ switch.label ++ "' cannot be used multiple times"
  | .repeatedOption operand =>
    "the argument '" ++ operand.label ++ "' cannot be used multiple times"
  | .assignment text fault =>
    "invalid value '" ++ Utf8.lossy text ++ "' for '" ++ Operand.assignment.label ++ "': "
      ++ fault.message
  | .notText => "invalid UTF-8 was detected in one or more arguments"
  | .missingOperands => "the following required arguments were not provided:"
  | .missingCommand => "'mr' requires a subcommand but one was not provided"
  | .unknownCommand word => "unrecognized subcommand '" ++ word ++ "'"
  | .nothingGiven => ""

/-- **The wording of a refusal.** Where nothing is given, the ways to call the program are shown. -/
def message : UsageError → String
  | .nothingGiven => programUsage
  | e => Plain.text ("error: " ++ e.headline ++ "\n\nFor more information, try '--help'.\n")

end UsageError

end MarkedRegions
