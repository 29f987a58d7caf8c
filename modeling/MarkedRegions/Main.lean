import MarkedRegions.Invocation.Run

/-!
# The program

The program passes calls on to the operating system, takes its command line and environment from
there, and shows what a run leaves behind. All decisions are the library's.
-/

namespace MarkedRegions.Program

/-- **A host that passes calls on** and keeps the reports. -/
abbrev Console := StateT (List Event) IO

/-- What the operating system's answer stands for. Its number may come with either sign. -/
def faultOf : IO.Error → FileFault
  | .noFileOrDirectory .. => .notFound
  | .alreadyExists .. => .alreadyExists
  | .inappropriateType _ code _ => if code = 20 ∨ 0 - code = 20 then .notDirectory else .isDirectory
  | .resourceBusy .. => .busy
  | e => .other (toString e)

/-- A call, with its failure as an answer. -/
def attempt {α : Type} (call : IO α) : Console (Except FileFault α) := do
  match ← call.toBaseIO with
  | .ok a => return .ok a
  | .error e => return .error (faultOf e)

def pathText (path : Path) : IO String :=
  match Utf8.text? path with
  | some text => pure text
  | none => throw (.userError "path is not text")

instance : Host Console where
  readFile path := attempt do return (← IO.FS.readBinFile (← pathText path)).toList
  isDirectory path := do
    return (← attempt do (← IO.FS.realPath (← pathText path)).isDir) matches .ok true
  makeDirectory path := attempt do IO.FS.createDir (← pathText path)
  writeFile path contents := attempt do
    IO.FS.writeBinFile (← pathText path) ⟨contents.toArray⟩
  renameFile source target := attempt do IO.FS.rename (← pathText source) (← pathText target)
  removeFile path := attempt do IO.FS.removeFile (← pathText path)
  processId := do
    match ← attempt (IO.FS.readFile "/proc/self/stat") with
    | .ok status => return (String.ofList (status.toList.takeWhile Char.isDigit)).toNat?.getD 0
    | .error _ => IO.monoNanosNow
  report events := modify (· ++ events)

/-- The environment of the program. -/
def environment : IO Environment := do
  let given (name : String) : IO (Option Bytes) :=
    return (← IO.getEnv name).map Bytes.ofString
  return {
    lead := ← given "MR_PREFIX"
    reports := ← given "RUST_LOG"
    forceColour := ← given "CLICOLOR_FORCE"
    noColour := ← given "NO_COLOR"
    colour := ← given "CLICOLOR"
    terminal := ← (← IO.getStdout).isTty }

end MarkedRegions.Program

open MarkedRegions in
def main (arguments : List String) : IO UInt32 := do
  let surroundings ← Program.environment
  let work : Program.Console Run := run surroundings (arguments.map Bytes.ofString)
  let (done, reports) ← work.run []
  let errors ← IO.getStderr
  errors.putStr (done.journal reports)
  (← IO.getStdout).write ⟨done.outcome.output.toArray⟩
  errors.putStr (done.outcome.remark surroundings.colours)
  return done.outcome.exitCode.toUInt32
