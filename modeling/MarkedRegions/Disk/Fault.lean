import MarkedRegions.Disk.Path

/-!
# Why an operation on files fails

## Main definitions

* `FileFault`: what the operating system answers
* `FileError`: the fault and the path it is about
-/

namespace MarkedRegions

/-- **What the operating system answers** when it does not do what it is asked. -/
inductive FileFault
  | notFound
  | alreadyExists
  | notDirectory
  | isDirectory
  | busy
  | nameTooLong
  -- A path holds a null byte and can not be handed over.
  | nullInPath
  | notText
  -- An answer of another kind, by its text.
  | other (text : String)
deriving DecidableEq, Repr

/-- The operating system's words. -/
def FileFault.text : FileFault → String
  | .notFound => "No such file or directory (os error 2)"
  | .alreadyExists => "File exists (os error 17)"
  | .notDirectory => "Not a directory (os error 20)"
  | .isDirectory => "Is a directory (os error 21)"
  | .busy => "Device or resource busy (os error 16)"
  | .nameTooLong => "File name too long (os error 36)"
  | .nullInPath => "file name contained an unexpected NUL byte"
  | .notText => "stream did not contain valid UTF-8"
  | .other text => text

/-- **A fault and the path it is about.** -/
structure FileError where
  path : Path
  fault : FileFault
deriving DecidableEq, Repr

/-- The wording of a fault. -/
def FileError.message (e : FileError) : String :=
  "I/O error at " ++ e.path.text ++ ": " ++ e.fault.text

end MarkedRegions
