import MarkedRegions.Disk.Fault

/-!
# A tree of files

A disk is a finite tree of directories and files together with the directory where relative paths
start. There is nothing else in it: no entry is a link to another, and no two files share their
contents. Paths are followed step by step: each step is taken from a directory, and a step by name
needs an entry of that name.

The operations are those of the operating system, one call each. Every call either fails and leaves
the tree as it is, or changes a single entry; moving a file changes two.

## Main definitions

* `Location`, `Entry`, `Disk`: where entries stand, what they are, and all of them
* `Disk.follow`, `Disk.resolve`, `Disk.place`: following a path to an entry, and to where an entry
  would stand
* `Disk.readFile`, `Disk.isDirectory`: questions
* `Disk.makeDirectory`, `Disk.writeFile`, `Disk.renameFile`, `Disk.removeFile`: changes
* `Disk.listing`: everything below the working directory
-/

namespace MarkedRegions

/-- **Where an entry stands**: the names on the way from the root. -/
abbrev Location := List Bytes

/-- **What stands somewhere**: a file with contents of its own, or a directory. Links are no entries,
neither symbolic ones nor several to the same contents. -/
inductive Entry
  | file (contents : Bytes)
  | directory
deriving DecidableEq, Repr

/-- **A tree of files.** The root is always a directory and is not listed. -/
structure Disk where
  entries : List (Location × Entry)
  -- Where relative paths start.
  home : Location
deriving Repr

namespace Disk

/-! ## Entries -/

def find? (disk : Disk) (location : Location) : Option Entry :=
  if location = [] then some .directory else disk.entries.lookup location

def put (disk : Disk) (location : Location) (entry : Entry) : Disk :=
  { disk with entries := (location, entry) :: disk.entries.filter (·.1 ≠ location) }

def drop (disk : Disk) (location : Location) : Disk :=
  { disk with entries := disk.entries.filter (·.1 ≠ location) }

theorem lookup_filter_ne {location other : Location} (entries : List (Location × Entry))
    (differ : other ≠ location) :
    (entries.filter (·.1 ≠ location)).lookup other = entries.lookup other := by
  induction entries with
  | nil => rfl
  | cons item entries ih =>
    obtain ⟨place, entry⟩ := item
    by_cases dropped : place = location
    · -- An entry that is left out stands elsewhere than the one that is looked up.
      have elsewhere : (other == place) = false := by
        rw [dropped]
        exact beq_false_of_ne differ
      rw [List.filter_cons_of_neg (by simpa using dropped), ih, List.lookup_cons, elsewhere]
    · rw [List.filter_cons_of_pos (by simpa using dropped), List.lookup_cons, List.lookup_cons, ih]

theorem lookup_filter_self (location : Location) (entries : List (Location × Entry)) :
    (entries.filter (·.1 ≠ location)).lookup location = none := by
  rw [List.lookup_eq_none_iff]
  intro item inside
  have elsewhere : item.1 ≠ location := by simpa using (List.mem_filter.mp inside).2
  simpa using elsewhere.symm

@[simp] theorem find?_put_self {disk : Disk} {location : Location} {entry : Entry}
    (below : location ≠ []) : (disk.put location entry).find? location = some entry := by
  simp [find?, put, below]

@[simp] theorem find?_put_of_ne {disk : Disk} {location other : Location} {entry : Entry}
    (differ : other ≠ location) :
    (disk.put location entry).find? other = disk.find? other := by
  have elsewhere : (other == location) = false := beq_false_of_ne differ
  simp only [find?, put, List.lookup_cons, elsewhere]
  rw [lookup_filter_ne _ differ]

@[simp] theorem find?_drop_self {disk : Disk} {location : Location}
    (below : location ≠ []) : (disk.drop location).find? location = none := by
  simp only [find?, drop, below, if_false]
  exact lookup_filter_self ..

@[simp] theorem find?_drop_of_ne {disk : Disk} {location other : Location}
    (differ : other ≠ location) : (disk.drop location).find? other = disk.find? other := by
  simp only [find?, drop]
  rw [lookup_filter_ne _ differ]

/-! ## Following paths -/

/-- Names hold at most this many bytes. -/
def maxNameLength : Nat := 255

/-- Paths hold fewer bytes than this. -/
def pathLimit : Nat := 4096

/-- **Follows steps** from a location: each is taken from a directory. -/
def follow (disk : Disk) (location : Location) : List Path.Step → Except FileFault Location
  | [] => .ok location
  | step :: rest =>
    match disk.find? location with
    | none => .error .notFound
    | some (.file _) => .error .notDirectory
    | some .directory =>
      -- Above the root is the root.
      match step with
      | .stay => disk.follow location rest
      | .up => disk.follow location.dropLast rest
      | .enter name =>
        if maxNameLength < name.length then .error .nameTooLong
        else match disk.find? (location ++ [name]) with
          | none => .error .notFound
          | some _ => disk.follow (location ++ [name]) rest

def origin (disk : Disk) (path : Path) : Location :=
  if path.isAbsolute then [] else disk.home

/-- What is wrong with a path before it is followed. -/
def objection? (path : Path) : Option FileFault :=
  if path.contains 0 then some .nullInPath
  else if path.isEmpty then some .notFound
  else if pathLimit ≤ path.length then some .nameTooLong
  else none

/-- **The entry that a path leads to.** A slash at the end asks for a directory. -/
def resolve (disk : Disk) (path : Path) : Except FileFault (Location × Entry) :=
  match objection? path with
  | some fault => .error fault
  | none =>
    match disk.follow (disk.origin path) path.steps with
    | .error fault => .error fault
    | .ok location =>
      match disk.find? location with
      | none => .error .notFound
      | some (.file contents) =>
        if path.endsInSlash then .error .notDirectory else .ok (location, .file contents)
      | some .directory => .ok (location, .directory)

/-- **Where the last step of a path is taken**: the directory before it, and the step. The root
has no last step. -/
def place (disk : Disk) (path : Path) : Except FileFault (Location × Option Path.Step) :=
  match objection? path with
  | some fault => .error fault
  | none =>
    match disk.follow (disk.origin path) path.steps.dropLast with
    | .error fault => .error fault
    | .ok location =>
      match disk.find? location with
      | none => .error .notFound
      | some (.file _) => .error .notDirectory
      | some .directory =>
        -- Whether an entry of that name stands there is for the call to ask.
        match path.steps.getLast? with
        | some (.enter name) =>
          if maxNameLength < name.length then .error .nameTooLong
          else .ok (location, some (.enter name))
        | last => .ok (location, last)

/-! ## Calls -/

/-- **Reads a file.** -/
def readFile (disk : Disk) (path : Path) : Except FileFault Bytes :=
  match disk.resolve path with
  | .error fault => .error fault
  | .ok (_, .directory) => .error .isDirectory
  | .ok (_, .file contents) => .ok contents

/-- **Whether a path leads to a directory.** -/
def isDirectory (disk : Disk) (path : Path) : Bool :=
  match disk.resolve path with
  | .ok (_, .directory) => true
  | _ => false

/-- **Makes a directory** where nothing stands yet. -/
def makeDirectory (disk : Disk) (path : Path) : Except FileFault Disk :=
  match disk.place path with
  | .error fault => .error fault
  | .ok (parent, some (.enter name)) =>
    if (disk.find? (parent ++ [name])).isSome then .error .alreadyExists
    else .ok (disk.put (parent ++ [name]) .directory)
  | .ok _ => .error .alreadyExists

/-- **Writes a file** that is new or replaces the contents of the old one. -/
def writeFile (disk : Disk) (path : Path) (contents : Bytes) : Except FileFault Disk :=
  match disk.place path with
  | .error fault => .error fault
  | .ok (parent, some (.enter name)) =>
    if path.endsInSlash ∨ disk.find? (parent ++ [name]) = some .directory then .error .isDirectory
    else .ok (disk.put (parent ++ [name]) (.file contents))
  | .ok _ => .error .isDirectory

/-- **Moves a file** to another place, over the file that stands there. -/
def renameFile (disk : Disk) (source target : Path) : Except FileFault Disk :=
  match disk.place source, disk.place target with
  | .error fault, _ => .error fault
  | _, .error fault => .error fault
  | .ok (sourceParent, some (.enter sourceName)), .ok (targetParent, some (.enter targetName)) =>
    match disk.find? (sourceParent ++ [sourceName]) with
    | none => .error .notFound
    | some .directory => .error .isDirectory
    | some (.file contents) =>
      -- Only files are moved, and only over files.
      if source.endsInSlash ∨ target.endsInSlash then .error .notDirectory
      else if disk.find? (targetParent ++ [targetName]) = some .directory then .error .isDirectory
      else
        .ok ((disk.drop (sourceParent ++ [sourceName])).put (targetParent ++ [targetName])
          (.file contents))
  | _, _ => .error .busy

/-- **Removes a file.** -/
def removeFile (disk : Disk) (path : Path) : Except FileFault Disk :=
  match disk.place path with
  | .error fault => .error fault
  | .ok (parent, some (.enter name)) =>
    match disk.find? (parent ++ [name]) with
    | none => .error .notFound
    | some .directory => .error .isDirectory
    | some (.file _) =>
      if path.endsInSlash then .error .notDirectory else .ok (disk.drop (parent ++ [name]))
  | .ok _ => .error .isDirectory

/-! ## Listing -/

/-- The name of an entry below the working directory, with a slash after a directory's. -/
def listed? (disk : Disk) (item : Location × Entry) : Option (Bytes × Option Bytes) :=
  if disk.home.isPrefixOf item.1 ∧ disk.home.length < item.1.length then
    let name := [slash].intercalate (item.1.drop disk.home.length)
    match item.2 with
    | .file contents => some (name, some contents)
    | .directory => some (name ++ [slash], none)
  else
    none

/-- **Everything below the working directory**, by name. Directories have no contents. -/
def listing (disk : Disk) : List (Bytes × Option Bytes) :=
  (disk.entries.filterMap disk.listed?).mergeSort (fun a b => a.1 ≤ b.1)

end Disk

end MarkedRegions
