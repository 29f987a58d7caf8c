import MarkedRegions.Line.Reader
import MarkedRegions.Text.Quoted
import MarkedRegions.Text.Utf8

/-!
# Why a region is not found

A scan fails at the first offence it meets, at that offence's position, or, when the whole text has
been read without one, because a marker line is missing. Positions are given as line and column,
both counted from one.

## Main definitions

* `ScanError`: the causes
* `ScanError.message`: their wording
-/

namespace MarkedRegions

/-- **Causes of a failed scan.** -/
inductive ScanError
  -- A byte that no marker line may hold at this place.
  | unexpected (line column : Nat) (expected : Line.Expectation) (found : UInt8)
  -- The region is opened a second time before it is closed.
  | nested (name : Bytes) (line column : Nat)
  | nameTooLong (line column : Nat)
  | namelessEnd (line column : Nat)
  | notFound (name : Bytes)
  -- The region is opened and never closed.
  | unterminated (name lead : Bytes)
deriving DecidableEq, Repr

/-- The words for what should have stood in place of a byte. -/
def Line.Expectation.text : Line.Expectation → String
  | .command => "'\x7b' or '\x7d'"
  | .endOfLine => "end of line after marker name"

/-- A defect of a line, at its place in the text. -/
def Line.Defect.onLine (line : Nat) : Line.Defect → ScanError
  | .unexpected column expected found => .unexpected line (column + 1) expected found
  | .nameTooLong column => .nameTooLong line (column + 1)

namespace ScanError

/-- A position as messages give it. -/
def position (line column : Nat) : String :=
  "(" ++ toString line ++ ":" ++ toString column ++ ")"

/-- **The wording of a failed scan.** The advice for an unterminated region quotes the lead
followed by a closing brace. -/
def message : ScanError → String
  | .unexpected line column expected found =>
    position line column ++ ": Expected " ++ expected.text ++ ", got " ++ Quoted.byte found
  | .nested name line column =>
    position line column ++ ": Nested markers are not allowed (marker '" ++ Utf8.lossy name
      ++ "' is already open)"
  | .nameTooLong line column =>
    position line column ++ ": Marker names cannot be longer than " ++ toString maxNameLength
      ++ " bytes"
  | .namelessEnd line column =>
    position line column ++ ": Unexpected end of marker, an end line needs a marker name"
  | .notFound name => "Marker '" ++ Utf8.lossy name ++ "' not found"
  | .unterminated name lead =>
    "Expected end of marker '" ++ Utf8.lossy name ++ "', got end of buffer. Please add '"
      ++ Utf8.lossy lead ++ "\x7d'"

end ScanError

end MarkedRegions
