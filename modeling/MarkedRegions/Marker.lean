import MarkedRegions.Bytes

/-!
# Marker lines

A region of a text is bounded by two marker lines. A marker line starts with a **lead**, a literal
that makes it a comment of the surrounding language, and goes on with a brace and a name:

* `lead blank* { blank* name blank*` opens the region `name`;
* `lead blank* } blank* name blank*` closes the open region.

## Main definitions

* `isBlank`: the bytes that separate the parts of a marker line
* `Command`: the two braces
* `MarkerStyle`: the lead of a family of marker lines, and the standard one
* `maxNameLength`: the longest admissible name
-/

namespace MarkedRegions

/-- **Blanks** of a marker line: space, tab and both line-ending bytes. Line-ending bytes that do
not end a line of the text's style are blanks like any other. -/
def isBlank (byte : UInt8) : Bool :=
  byte = 0x20 || byte = 0x09 || byte = lineFeed || byte = carriageReturn

/-- Names hold at most this many bytes. -/
def maxNameLength : Nat := 255

/-- **What a marker line asks for**: to open a region or to close one. -/
inductive Command
  | opening
  | closing
deriving DecidableEq, Repr

namespace Command

/-- The command written by a byte. -/
def ofByte? (byte : UInt8) : Option Command :=
  if byte = openBrace then some .opening
  else if byte = closeBrace then some .closing
  else none

def toByte : Command → UInt8
  | .opening => openBrace
  | .closing => closeBrace

@[simp] theorem ofByte?_toByte (command : Command) : ofByte? command.toByte = some command := by
  cases command <;> rfl

/-- The word for a command in reports. -/
def name : Command → String
  | .opening => "Begin"
  | .closing => "End"

end Command

/-- **A family of marker lines**: all lines that start with the same lead. -/
structure MarkerStyle where
  lead : Bytes
deriving DecidableEq, Repr

namespace MarkerStyle

/-- The lead used where none is chosen. -/
def standardLead : String := "//!mr "

/-- The style used where none is chosen. -/
def standard : MarkerStyle := ⟨.ofString standardLead⟩

instance : Inhabited MarkerStyle := ⟨standard⟩

end MarkerStyle

end MarkedRegions
