import MarkedRegions.Text.Quoted

/-!
# Reports

While the program works it reports what it sees. A report has a level of importance, the part of
the program it comes from, a message and some named values. Reports never influence the work: every
function that computes a result has its reports computed beside it, from the same inputs.

## Main definitions

* `Level`: how important a report is
* `Source`: where it comes from
* `Event`: a report, and `Event.text`, its line
-/

namespace MarkedRegions

/-- **Levels of importance**, from the least on. -/
inductive Level
  | trace
  | debug
  | info
  | warn
  | error
deriving DecidableEq, Repr

namespace Level

/-- The rank of a level: the more important, the lower. -/
def rank : Level → Nat
  | .error => 1
  | .warn => 2
  | .info => 3
  | .debug => 4
  | .trace => 5

/-- The name of a level, set to the right in five columns. -/
def label : Level → String
  | .trace => "TRACE"
  | .debug => "DEBUG"
  | .info => " INFO"
  | .warn => " WARN"
  | .error => "ERROR"

end Level

/-- **Parts of the program** that report. -/
inductive Source
  | scan
  | edit
  | files
  | settings
  | program
  | style
  | replacing
deriving DecidableEq, Repr

/-- The path under which a part of the program reports. Filters select by its beginning. -/
def Source.path : Source → String
  | .scan => "mr_blocks::scanner"
  | .edit => "mr_blocks::replace"
  | .files => "mr_fs::io"
  | .settings => "mr_fs::config"
  | .program => "mr"
  | .style => "mr::syntax"
  | .replacing => "mr::commands::replace"

/-- **A report.** -/
structure Event where
  level : Level
  source : Source
  message : String
  -- Named values, in the order in which they are written.
  fields : List (String × String) := []
deriving DecidableEq, Repr

namespace Event

/-- Characters that a terminal could take for a command are written by number in messages. -/
def disarm (char : Char) : List Char :=
  let n := char.toNat
  if n = 0x1b ∨ n = 0x07 ∨ n = 0x08 ∨ n = 0x0c ∨ n = 0x7f then
    ['\\', 'x', Quoted.hexDigit (n / 16), Quoted.hexDigit (n % 16)]
  else if 0x80 ≤ n ∧ n ≤ 0x9f then
    ['\\', 'u', '\x7b', Quoted.hexDigit (n / 16), Quoted.hexDigit (n % 16), '\x7d']
  else
    [char]

/-- A message as reports show it. -/
def shown (message : String) : String :=
  String.ofList (message.toList.flatMap disarm)

/-- **The line of a report**: level, source, message, and the values by name. -/
def text (event : Event) : String :=
  event.level.label ++ " " ++ event.source.path ++ ": " ++ shown event.message
    ++ String.join (event.fields.map fun (name, value) => " " ++ name ++ "=" ++ value)

end Event

end MarkedRegions
