import MarkedRegions.Journal.Event
import MarkedRegions.Edit

/-!
# What scanning and editing report

The reports of a scan follow its states: the first line feed, every brace of a marker line, and
every marker line that ends. At the end stands the verdict. The reports of an edit are those of its
scan, and then either the refused room or the sizes of the edit.

## Main definitions

* `Scan.observe`: what is reported of one byte
* `Scan.report`: what is reported of a scan
* `Buffer.replaceReport`: what is reported of a replacement
-/

namespace MarkedRegions

namespace Scan

/-- A report of the scan. -/
def event (level : Level) (message : String) (fields : List (String × String)) : Event :=
  ⟨level, .scan, message, fields⟩

/-- What is reported of a line that ends: named marker lines, and opening lines without a name. -/
def observeLine (state : State) : List Event :=
  let line := ("line", toString state.lineNumber)
  let name := ("name", Utf8.lossy state.reader.name)
  match state.reader.phase with
  | .beforeName .opening => [event .debug "Ignoring begin marker without a name" [line]]
  | .inName .opening | .afterName .opening => [event .info "Got marker begin" [line, name]]
  | .inName .closing | .afterName .closing => [event .info "Got marker end" [line, name]]
  | _ => []

/-- What is reported when the line ending is settled. -/
def observeEnding (state : State) (byte : UInt8) : List Event :=
  match state.ending, LineEnding.settledBy state.before byte with
  | none, some ending => [event .info "Established line ending" [("line_ending", ending.name)]]
  | _, _ => []

/-- What is reported of a byte that does not end its line: the brace of a marker line. -/
def observeCommand (state : State) (byte : UInt8) : List Event :=
  match state.reader.phase, Command.ofByte? byte with
  | .beforeCommand, some command =>
    [event .info "Got marker command"
      [("line", toString state.lineNumber), ("command", command.name)]]
  | _, _ => []

/-- **What is reported of one byte.** -/
def observe (state : State) (byte : UInt8) : List Event :=
  if state.endsLine byte then observeEnding state byte ++ observeLine state
  else observeCommand state byte

/-- What is reported of the bytes from a state on, after the reports made so far. -/
def observeAll (query : Query) (state : State) (reported : Array Event) : Bytes → Array Event
  | [] => if state.stop.isSome then reported else reported ++ observeLine state
  | byte :: rest =>
    if state.stop.isSome then
      reported
    else
      match step query state byte with
      | .ok next => observeAll query next (reported ++ observe state byte) rest
      | .error _ => reported ++ observe state byte

/-- What is reported of a verdict. -/
def observeVerdict (text : Bytes) : Except ScanError Region → List Event
  | .ok region =>
    [event .info "Resolved marker region"
        [("start", toString region.start), ("end", toString region.stop)],
      event .info "Marker contents" [("contents", Utf8.lossy (region.contents text))]]
  | .error e => [event .error e.message []]

/-- **What is reported of a scan.** -/
def report (query : Query) (text : Bytes) : List Event :=
  (observeAll query (.initial query) #[] text).toList ++ observeVerdict text (find query text)

end Scan

namespace Buffer

/-- What is reported of a replacement whose region has been found. -/
def replaceRegionReport (allocator : Allocator) (region : Region) (contents : Bytes)
    (buffer : Buffer) : List Event :=
  let new := contents.length + region.addedSuffix.length
  match buffer.makeRoom allocator region.length new with
  | .error e => [⟨.error, .edit, e.message, []⟩]
  | .ok _ =>
    [⟨.debug, .edit, "Replacing marker contents",
      [("start", toString region.start), ("end", toString region.stop),
        ("old_len", toString region.length), ("new_len", toString new)]⟩]

/-- **What is reported of a replacement.** -/
def replaceReport (allocator : Allocator) (style : MarkerStyle) (marker contents : Bytes)
    (buffer : Buffer) : List Event :=
  Scan.report (style.query marker) buffer.bytes ++
    match buffer.find style marker with
    | .ok region => buffer.replaceRegionReport allocator region contents
    | .error _ => []

end Buffer

end MarkedRegions
