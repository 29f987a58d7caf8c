import MarkedRegions.Disk.Host

/-!
# Reading and writing whole files

Files are read whole. They are written through a temporary file beside them that is moved over
them when it is complete, so that a reader finds either the old contents or the new. Directories on
the way that are missing are made; if anything fails, the temporary file is removed again.

## Main definitions

* `Files.read`, `Files.readText`: the contents of a file
* `Files.ensureDirectory`: a directory and all above it
* `Files.write`: new contents, all at once
-/

namespace MarkedRegions.Files

variable {m : Type → Type} [Monad m] [Host m]

/-- The answer of a call, with the path it is about in a failure. -/
def about {α : Type} (path : Path) (call : m (Except FileFault α)) : ExceptT FileError m α := do
  match ← call with
  | .ok a => return a
  | .error fault => throw ⟨path, fault⟩

/-- Reports that something was done with a file, and how large it is. -/
def note (message : String) (path : Path) (contents : Bytes) : ExceptT FileError m Unit :=
  liftM (Host.report
    [⟨.debug, .files, message, [("path", path.text), ("len", toString contents.length)]⟩] : m Unit)

/-- **The contents of a file.** -/
def read (path : Path) : ExceptT FileError m Bytes := do
  let contents ← about path (Host.readFile path)
  note "Loaded file" path contents
  return contents

/-- **The contents of a file as text.** -/
def readText (path : Path) : ExceptT FileError m (List Char) := do
  let contents ← about path (Host.readFile path)
  match Utf8.chars? contents with
  | some text => return text
  | none => throw ⟨path, .notText⟩

/-- Makes the first of some directories, of which each is the parent of the one before it. Only
where the parent is missing is it made first. -/
def makeDirectories : List Path → m (Except FileFault Unit)
  | [] => return .ok ()
  | path :: parents => do
    match ← Host.makeDirectory path with
    | .ok () => return .ok ()
    | .error .notFound =>
      match ← makeDirectories parents with
      | .error fault => return .error fault
      | .ok () =>
        -- Another program may have made the directory in the meantime.
        match ← Host.makeDirectory path with
        | .ok () => return .ok ()
        | .error fault => return if ← Host.isDirectory path then .ok () else .error fault
    | .error fault => return if ← Host.isDirectory path then .ok () else .error fault

/-- **A directory and all above it**: made where they are missing. -/
def ensureDirectory (path : Path) : m (Except FileFault Unit) :=
  makeDirectories path.ancestors

def temporaryName (path : Path) (processId : Nat) : Bytes :=
  Bytes.ofString ("." ++ Utf8.lossy (path.fileName?.getD []) ++ "." ++ toString processId ++ ".tmp")

def temporaryPath (path : Path) (processId : Nat) : Path :=
  path.withFileName (temporaryName path processId)

/-- Writes the temporary file and moves it over the other. -/
def writeThrough (temporary path : Path) (contents : Bytes) : ExceptT FileError m Unit := do
  about temporary (Host.writeFile temporary contents)
  about path (Host.renameFile temporary path)

/-- Writes through a temporary file, and removes it where that fails. -/
def writeOrRemove (temporary path : Path) (contents : Bytes) : ExceptT FileError m Unit :=
  ExceptT.mk do
    match ← (writeThrough temporary path contents).run with
    | .ok () => return .ok ()
    | .error e =>
      -- Whether there is anything to remove is not asked, and the first fault is the one reported.
      let _ ← (Host.removeFile temporary : m (Except FileFault Unit))
      return .error e

/-- **New contents for a file, all at once.** -/
def write (path : Path) (contents : Bytes) : ExceptT FileError m Unit := do
  match path.parent? with
  | some parent => about parent (ensureDirectory parent)
  | none => pure ()
  let processId ← (Host.processId : m Nat)
  writeOrRemove (temporaryPath path processId) path contents
  note "Wrote file" path contents

end MarkedRegions.Files
