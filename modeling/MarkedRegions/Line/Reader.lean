import MarkedRegions.Marker

/-!
# Reading one line, byte by byte

A line is read from left to right by a finite automaton with a little memory: how much of the lead
has agreed, the name read so far, and the columns where command and name began. Bytes after a
mismatch with the lead are never looked at; bytes that break the form of a marker line are refused
where they stand. Columns count from zero.

## Main definitions

* `Line.Phase`: how far the line has been recognised
* `Line.Reader`: the automaton's state
* `Line.Reader.feed`: its step
* `Line.Defect`: why a byte is refused, and at which column
-/

namespace MarkedRegions.Line

/-- **How far a line has been recognised.** -/
inductive Phase
  -- The first `matched` bytes of the lead have agreed.
  | lead (matched : Nat)
  | text
  | beforeCommand
  | beforeName (command : Command)
  | inName (command : Command)
  -- After the name: blanks only.
  | afterName (command : Command)
deriving DecidableEq, Repr

/-- What should have stood in place of a refused byte. -/
inductive Expectation
  | command
  | endOfLine
deriving DecidableEq, Repr

/-- **Why a byte is refused.** -/
inductive Defect
  -- A byte that cannot follow what the line holds so far.
  | unexpected (column : Nat) (expected : Expectation) (found : UInt8)
  -- One byte too many for a name.
  | nameTooLong (column : Nat)
deriving DecidableEq, Repr

/-- **The state of the line automaton.** -/
structure Reader where
  phase : Phase
  -- How many bytes of the line have been read.
  column : Nat
  -- What has been read of the name.
  name : Bytes
  -- Where the name begins, once it has begun.
  nameColumn : Nat
  -- Where the brace stands, once it has been read.
  commandColumn : Nat
deriving DecidableEq, Repr

namespace Reader

/-- The phase at the start of a line: an empty lead agrees at once. -/
def initialPhase (lead : Bytes) : Phase :=
  if lead.isEmpty then .beforeCommand else .lead 0

def initial (lead : Bytes) : Reader :=
  ⟨initialPhase lead, 0, [], 0, 0⟩

/-- Moves on by one byte in a given phase. -/
def advance (reader : Reader) (phase : Phase) : Reader :=
  { reader with phase, column := reader.column + 1 }

/-- Takes a byte of the lead: the phase after the byte, when `matched` bytes agreed before it. -/
def matchLead (lead : Bytes) (matched : Nat) (byte : UInt8) : Phase :=
  if lead[matched]? ≠ some byte then .text
  else if matched + 1 = lead.length then .beforeCommand
  else .lead (matched + 1)

/-- Takes a byte of the name, unless the name is full. -/
def extendName (reader : Reader) (command : Command) (byte : UInt8) : Except Defect Reader :=
  if maxNameLength ≤ reader.name.length then
    .error (.nameTooLong reader.column)
  else
    .ok { reader.advance (.inName command) with name := reader.name ++ [byte] }

/-- **One byte of a line.** -/
def feed (lead : Bytes) (reader : Reader) (byte : UInt8) : Except Defect Reader :=
  match reader.phase with
  | .lead matched => .ok (reader.advance (matchLead lead matched byte))
  -- A line that does not start with the lead is read to its end and never refused.
  | .text => .ok (reader.advance .text)
  | .beforeCommand =>
    if isBlank byte then .ok (reader.advance .beforeCommand)
    else match Command.ofByte? byte with
      | some command =>
        .ok { reader.advance (.beforeName command) with commandColumn := reader.column }
      | none => .error (.unexpected reader.column .command byte)
  | .beforeName command =>
    -- The name begins here, so it can not be full.
    if isBlank byte then .ok (reader.advance (.beforeName command))
    else { reader with nameColumn := reader.column }.extendName command byte
  | .inName command =>
    if isBlank byte then .ok (reader.advance (.afterName command))
    else reader.extendName command byte
  | .afterName command =>
    if isBlank byte then .ok (reader.advance (.afterName command))
    else .error (.unexpected reader.column .endOfLine byte)

end Reader

end MarkedRegions.Line
