import MarkedRegions.LineEnding
import MarkedRegions.Region
import MarkedRegions.Scan.Error

/-!
# Scanning a text

A text is scanned once, from its first byte on. Every byte either ends the current line or is read
by the line automaton; a line that ends is taken for what the automaton has made of it. The scan
remembers where the wanted region starts and stops reading as soon as it knows where it ends.

The scan decides each byte by that byte and the one before it alone. So a verdict depends only on
the bytes read until it is reached, and what comes later can not change it.

## Main definitions

* `Scan.Query`: the wanted name and the lead of marker lines
* `Scan.State`: what the scan remembers
* `Scan.step`, `Scan.run`: one byte, and many
* `Scan.conclude`: the verdict at the end of the text
* `find`: the region of a name in a text
-/

namespace MarkedRegions.Scan

/-- **What is looked for**: a region by its name, in marker lines with a given lead. -/
structure Query where
  lead : Bytes
  marker : Bytes
deriving DecidableEq, Repr

/-- **What a scan remembers.** -/
structure State where
  -- How many bytes have been read.
  offset : Nat
  -- The byte read last.
  before : Option UInt8
  -- The line ending, once a line feed has settled it.
  ending : Option LineEnding
  -- How many lines have ended.
  line : Nat
  -- Where the current line starts.
  lineStart : Nat
  -- What has been made of the current line.
  reader : Line.Reader
  -- Where the wanted region starts, once it has been opened.
  start : Option Nat
  -- Where its contents stop and whether a terminator follows them, once it has been closed.
  stop : Option (Nat × Bool)
deriving DecidableEq, Repr

namespace State

def initial (query : Query) : State :=
  ⟨0, none, none, 0, 0, .initial query.lead, none, none⟩

/-- The number of the current line, counted from one. -/
def lineNumber (state : State) : Nat :=
  state.line + 1

/-- The line ending as far as it matters: settled, or else the plain one. -/
def endingOrDefault (state : State) : LineEnding :=
  state.ending.getD .lf

/-- The line ending after a byte: settled by the first line feed, and kept from then on. -/
def endingAfter (state : State) (byte : UInt8) : Option LineEnding :=
  state.ending.or (LineEnding.settledBy state.before byte)

/-- Whether a byte ends the current line. The byte that settles the style ends a line of it. -/
def endsLine (state : State) (byte : UInt8) : Bool :=
  match state.ending with
  | some ending => ending.endsAt state.before byte
  | none => (LineEnding.settledBy state.before byte).isSome

/-- **Opening a region**: a line that opens the wanted name starts it right after the line. -/
def openRegion (query : Query) (next : Nat) (state : State) : Except ScanError State :=
  if state.reader.name ≠ query.marker then
    .ok state
  else if state.start.isSome then
    .error (.nested query.marker state.lineNumber (state.reader.nameColumn + 1))
  else
    .ok { state with start := some next }

/-- **Closing a region**: any named closing line closes the open region, and where none is open
it is skipped. Contents of at least one byte give up their last terminator. -/
def closeRegion (state : State) : State :=
  match state.start with
  | none => state
  | some start =>
    -- The closing line starts behind the region if there is a line in it, be it empty.
    if state.lineStart > start then
      { state with stop := some (state.lineStart - state.endingOrDefault.width, true) }
    else
      { state with stop := some (state.lineStart, false) }

/-- **The end of a line**: what the line was decides. The next line starts at offset `next`. -/
def finishLine (query : Query) (next : Nat) (state : State) : Except ScanError State :=
  match state.reader.phase with
  -- Opening without a name is harmless, closing without a name is not.
  | .lead _ | .text | .beforeCommand | .beforeName .opening => .ok state
  | .beforeName .closing =>
    .error (.namelessEnd state.lineNumber (state.reader.commandColumn + 1))
  | .inName .opening | .afterName .opening => state.openRegion query next
  | .inName .closing | .afterName .closing => .ok state.closeRegion

def nextLine (query : Query) (next : Nat) (state : State) : State :=
  { state with line := state.line + 1, lineStart := next, reader := .initial query.lead }

end State

/-- **One byte of a text.** -/
def step (query : Query) (state : State) (byte : UInt8) : Except ScanError State :=
  let read : State :=
    { state with
      offset := state.offset + 1
      before := some byte
      ending := state.endingAfter byte }
  -- The first byte of a two-byte terminator has been fed to the automaton before.
  if state.endsLine byte then
    (read.finishLine query read.offset).map (State.nextLine query read.offset)
  else
    match state.reader.feed query.lead byte with
    | .ok reader => .ok { read with reader }
    | .error defect => .error (defect.onLine state.lineNumber)

/-- **Reading on** until the region is closed or the text is over. -/
def run (query : Query) (state : State) : Bytes → Except ScanError State
  | [] => .ok state
  | byte :: rest =>
    if state.stop.isSome then
      .ok state
    else
      match step query state byte with
      | .ok next => run query next rest
      | .error e => .error e

/-- The last line, which no terminator ends. -/
def finishText (query : Query) (state : State) : Except ScanError State :=
  if state.stop.isSome then .ok state else state.finishLine query state.offset

/-- **The verdict** on what has been read. -/
def conclude (query : Query) (state : State) : Except ScanError Region :=
  match state.start, state.stop with
  | none, _ => .error (.notFound query.marker)
  | some _, none => .error (.unterminated query.marker query.lead)
  | some start, some (stop, trailing) => .ok ⟨start, stop, state.endingOrDefault, trailing⟩

/-- **The region that a query finds in a text.** -/
def find (query : Query) (text : Bytes) : Except ScanError Region := do
  let state ← run query (.initial query) text
  let state ← finishText query state
  conclude query state

end MarkedRegions.Scan
