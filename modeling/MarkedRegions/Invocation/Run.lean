import MarkedRegions.Invocation.Environment
import MarkedRegions.Invocation.Outcome
import MarkedRegions.Scan.Report

/-!
# Carrying out a command line

A run reads its command line, settles the style of marker lines and carries out one task. A
replacement works on the contents of its file in memory: every assignment is applied before
anything is printed or written, so a run that fails leaves all files as they are.

## Main definitions

* `MarkerStyle.resolve`: the style that settings file and command line describe
* `Task.run`: one task
* `Invocation.run`, `run`: a task with its settings, and a whole command line
* `Run`: the outcome, and which reports are shown
-/

namespace MarkedRegions

variable {m : Type → Type} [Monad m] [Host m]

/-- Takes one report of the program's own into the journal. -/
def Task.note (event : Event) : ExceptT TaskError m Unit :=
  liftM (Host.report [event] : m Unit)

/-- **The style of marker lines**: a lead that is given goes before the settings file, which is
read all the same. -/
def MarkerStyle.resolve (lead : Option Bytes) (settings : Option Path) :
    ExceptT TaskError m MarkerStyle := do
  let chosen ← match settings with
    | some path => (Settings.load path).adapt TaskError.settings
    | none => pure .standard
  let style := match lead with
    | some lead => ⟨lead⟩
    | none => chosen
  Task.note ⟨.debug, .style, "Using marker prefix", [("prefix", Utf8.lossy style.lead)]⟩
  return style

/-- The contents that an assignment asks for. -/
def Content.load : Content → ExceptT TaskError m Bytes
  | .inline contents => return contents
  | .file path => (Files.read path).adapt TaskError.file

/-- **One assignment**, applied to a buffer. -/
def Assignment.apply (style : MarkerStyle) (buffer : Buffer) (assignment : Assignment) :
    ExceptT TaskError m Buffer := do
  let contents ← assignment.content.load
  -- What the scan and the edit report is known from their arguments alone.
  liftM (Host.report (buffer.replaceReport .generous style assignment.marker contents) : m Unit)
  match buffer.replace .generous style assignment.marker contents with
  | .error cause => throw (.edit cause)
  | .ok edited =>
    Task.note ⟨.debug, .replacing, "Replaced marker",
      [("marker", Utf8.lossy assignment.marker), ("len", toString contents.length)]⟩
    return edited

def Assignment.applyAll (style : MarkerStyle) (assignments : List Assignment) (buffer : Buffer) :
    ExceptT TaskError m Buffer :=
  assignments.foldlM (Assignment.apply style) buffer

namespace Task

/-- **Replacing** the contents of regions of a file. -/
def runReplace (style : MarkerStyle) (file : Path) (assignments : List Assignment) (write : Bool) :
    ExceptT TaskError m Outcome := do
  let contents ← (Files.read file).adapt TaskError.file
  let edited ← Assignment.applyAll style assignments (.ofBytes contents)
  -- Nothing has been written or printed up to here.
  if write then
    (Files.write file edited.bytes).adapt TaskError.file
    return .updated assignments.length file
  else
    return .printed edited.bytes

/-- **Displaying** the contents of a region, with the terminator that ends them. -/
def runDisplay (style : MarkerStyle) (file : Path) (marker : Bytes) :
    ExceptT TaskError m Outcome := do
  let contents ← (Files.read file).adapt TaskError.file
  liftM (Host.report (Scan.report (style.query marker) contents) : m Unit)
  match Scan.find (style.query marker) contents with
  | .error cause => throw (.edit (.scan cause))
  | .ok region => return .printed (region.contents contents ++ region.suffix)

/-- **One task** in a style of marker lines. -/
def run (style : MarkerStyle) : Task → ExceptT TaskError m Outcome
  | .replace file assignments write => runReplace style file assignments write
  | .display file marker => runDisplay style file marker

end Task

/-- **A task with its settings.** -/
def Invocation.run (invocation : Invocation) : m Outcome := do
  let work : ExceptT TaskError m Outcome := do
    Task.note ⟨.debug, .program, "Verbose mode enabled", []⟩
    let style ← MarkerStyle.resolve invocation.lead invocation.settings
    invocation.task.run style
  return .ofResult (← work.run)

/-- **What a run leaves behind** for its surroundings: how it ends and which reports are shown. -/
structure Run where
  outcome : Outcome
  -- Without a filter, no report is shown.
  filter : Option Filter
deriving Repr

namespace Run

/-- The lines of the reports that are shown. -/
def journal (run : Run) (reports : List Event) : String :=
  match run.filter with
  | none => ""
  | some filter => String.join ((reports.filter filter.allows).map (·.text ++ "\n"))

end Run

/-- **A whole command line**, in an environment. -/
def run (environment : Environment) (arguments : List Bytes) : m Run := do
  match Arguments.read environment.lead arguments with
  | .error refusal => return ⟨.ofRefusal refusal, none⟩
  | .ok invocation => return ⟨← invocation.run, environment.filter? invocation.verbose⟩

end MarkedRegions
