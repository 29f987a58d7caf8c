import MarkedRegions.Text.Utf8

/-!
# Paths

A path is a byte string whose parts are separated by slashes. Two readings of a path are kept
apart. **By name**: the last part that is more than a repetition of where one already stands names
the file, what comes before it is the parent, and what follows the last dot of the name is the
extension. **By steps**: every part leads from one directory to the next, and all of them count.

## Main definitions

* `Path.parts`: the text between slashes
* `Path.fileName?`, `Path.parent?`, `Path.extension?`, `Path.withFileName`: reading by name
* `Step`, `Path.steps`: reading by steps
-/

namespace MarkedRegions

/-- **A path**, as its bytes. -/
abbrev Path := Bytes

def slash : UInt8 := 0x2f

/-- The byte before an extension. -/
def dot : UInt8 := 0x2e

/-- The runs of bytes between the occurrences of a separator: one more than there are of them. -/
def splitAll (separator : UInt8) (text : Bytes) : List Bytes :=
  text.splitOn separator

namespace Path

/-- **The text between slashes**: one part more than there are slashes. -/
def parts (path : Path) : List Bytes :=
  splitAll slash path

/-! ## Reading by name -/

def isAbsolute (path : Path) : Bool :=
  path.head? = some slash

/-- How many bytes of a path say where it starts: a slash for the root, or a dot that stands alone
before the first slash for the present directory. -/
def originLength (path : Path) : Nat :=
  match path with
  | [] => 0
  | [byte] => if byte = slash ∨ byte = dot then 1 else 0
  | first :: second :: _ =>
    if first = slash then 1 else if first = dot ∧ second = slash then 1 else 0

/-- Whether a part leads anywhere: empty parts and single dots do not. -/
def isMoving (part : Bytes) : Bool :=
  !(part.isEmpty || part = [dot])

/-- Parts without the unmoving ones at their end. -/
def dropUnmoving (parts : List Bytes) : List Bytes :=
  (parts.reverse.dropWhile (fun part => !isMoving part)).reverse

/-- The parts after the origin, up to the last one that moves. -/
def body (path : Path) : List Bytes :=
  dropUnmoving (parts (path.drop path.originLength))

/-- **The name of the file**: the last part, unless it leads upwards. -/
def fileName? (path : Path) : Option Bytes :=
  match path.body.getLast? with
  | some part => if part = [dot, dot] then none else some part
  | none => none

/-- **The parent**: what is left without the last part. Only the root and the empty path have
none. -/
def parent? (path : Path) : Option Path :=
  let origin := path.take path.originLength
  if path.body.isEmpty then
    if origin = [dot] then some [] else none
  else
    some (origin ++ [slash].intercalate (dropUnmoving path.body.dropLast))

/-- The path below a directory. -/
def join (directory : Path) (name : Bytes) : Path :=
  if directory.isEmpty || directory.getLast? = some slash then directory ++ name
  else directory ++ [slash] ++ name

/-- **The path beside a file**: its name replaced by another. A path that names no file gets the
name below it. -/
def withFileName (path : Path) (name : Bytes) : Path :=
  match path.fileName?, path.parent? with
  | some _, some parent => parent.join name
  | _, _ => path.join name

/-- **The extension**: what follows the last dot of the name, unless that dot is its first byte. -/
def extension? (path : Path) : Option Bytes := do
  let name ← path.fileName?
  let ending := name.reverse.takeWhile (· ≠ dot)
  if ending.length + 1 < name.length then some ending.reverse else none

/-- The path and its parents, from the path itself outwards, as far as they are not empty. -/
def ancestors (path : Path) : List Path :=
  go path.length path
where
  go : Nat → Path → List Path
    | 0, _ => []
    | fuel + 1, path =>
      if path.isEmpty then []
      else path :: match path.parent? with
        | some parent => go fuel parent
        | none => []

/-! ## Reading by steps -/

/-- **A step** from a directory. -/
inductive Step
  -- To where one stands.
  | stay
  -- To the directory above.
  | up
  -- To an entry by its name.
  | enter (name : Bytes)
deriving DecidableEq, Repr

/-- The step that a part writes. Empty parts write none. -/
def stepOf? (part : Bytes) : Option Step :=
  if part.isEmpty then none
  else if part = [dot] then some .stay
  else if part = [dot, dot] then some .up
  else some (.enter part)

/-- **The steps of a path.** -/
def steps (path : Path) : List Step :=
  path.parts.filterMap stepOf?

/-- Whether a path asks for a directory by a slash at its end. -/
def endsInSlash (path : Path) : Bool :=
  path.getLast? = some slash

def text (path : Path) : String :=
  Utf8.lossy path

end Path

end MarkedRegions
