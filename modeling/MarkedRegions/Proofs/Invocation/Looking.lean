import MarkedRegions.Invocation.Run
import MarkedRegions.Proofs.Disk.Looking

/-!
# What a run looks at

Up to its last call, a run only looks: settling the style reads at most the settings file, and a
replacement applies all its assignments to contents in memory. So what a replacement comes to is a
function of the tree, computed step by step: the file is read, and then, for each assignment in
order, its contents are found and put into its region. Contents that stand in a file are read from
the tree as it was, even where that file is the one that is edited. The first step that fails
decides.

## Main definitions

* `Content.onDisk`: the contents that are asked for, on a tree
* `Assignment.step`, `Task.edited`: what one assignment and all of them come to
* `MarkerStyle.onDisk`: the style that settings file and command line describe, on a tree

## Main results

* `MarkerStyle.looks_resolve`: settling the style only looks
* `Task.looks_edited`: so does everything before a replacement prints or writes
-/

namespace MarkedRegions

open Desk

/-! ## What is computed -/

/-- **The contents that are asked for**, on a tree. -/
def Content.onDisk (disk : Disk) : Content → Except TaskError Bytes
  | .inline contents => .ok contents
  | .file path => (disk.readFile path).mapError fun fault => .file ⟨path, fault⟩

/-- **One step of a replacement**: contents are found, and then put into the region. -/
def Assignment.step (disk : Disk) (style : MarkerStyle) (buffer : Buffer)
    (assignment : Assignment) : Except TaskError Buffer := do
  let contents ← assignment.content.onDisk disk
  (buffer.replace .generous style assignment.marker contents).mapError .edit

/-- **What a replacement comes to**: the file is read, and then the steps are taken in order. -/
def Task.edited (disk : Disk) (style : MarkerStyle) (file : Path)
    (assignments : List Assignment) : Except TaskError Buffer := do
  let contents ← Content.onDisk disk (.file file)
  assignments.foldlM (Assignment.step disk style) (.ofBytes contents)

/-! ## Assignments -/

theorem looks_read_adapt (path : Path) :
    Looks ((Files.read path).adapt TaskError.file : Action TaskError Bytes)
      (Content.onDisk · (.file path)) := by
  refine ((Files.looks_read path).adapt TaskError.file).of_eq ?_
  intro disk
  rw [Content.onDisk]
  cases disk.readFile path <;> rfl

theorem Content.looks_load (content : Content) :
    Looks (content.load : Action TaskError Bytes) (content.onDisk ·) := by
  cases content with
  | inline contents => exact looks_pure contents
  | file path => exact looks_read_adapt path

theorem Task.looks_note (event : Event) :
    Looks (Task.note event : Action TaskError Unit) fun _ => .ok () :=
  looks_report _

namespace Assignment

theorem looks_apply (style : MarkerStyle) (buffer : Buffer) (assignment : Assignment) :
    Looks (assignment.apply style buffer : Action TaskError Buffer)
      (step · style buffer assignment) := by
  refine Looks.bind assignment.content.looks_load fun contents => ?_
  cases buffer.replace .generous style assignment.marker contents with
  | error cause => exact (looks_report _).bind fun _ => looks_throw _
  | ok edited =>
    exact (looks_report _).bind fun _ => (Task.looks_note _).bind fun _ => looks_pure edited

theorem looks_applyAll (style : MarkerStyle) (assignments : List Assignment) (buffer : Buffer) :
    Looks (applyAll style assignments buffer : Action TaskError Buffer)
      fun disk => assignments.foldlM (step disk style) buffer := by
  induction assignments generalizing buffer with
  | nil => exact looks_pure buffer
  | cons assignment assignments ih =>
    rw [applyAll, List.foldlM_cons]
    refine ((assignment.looks_apply style buffer).bind ih).of_eq ?_
    intro disk
    rw [List.foldlM_cons]

end Assignment

/-- **What comes before anything is printed or written** only looks. -/
theorem Task.looks_edited (style : MarkerStyle) (file : Path) (assignments : List Assignment) :
    Looks ((Files.read file).adapt TaskError.file >>= fun contents =>
        Assignment.applyAll style assignments (.ofBytes contents) : Action TaskError Buffer)
      (Task.edited · style file assignments) :=
  (looks_read_adapt file).bind fun contents =>
    Assignment.looks_applyAll style assignments (.ofBytes contents)

/-! ## Settling the style -/

/-- The text of a file, on a tree. -/
def Files.textOnDisk (disk : Disk) (path : Path) : Except FileError (List Char) := do
  let contents ← (disk.readFile path).mapError (FileError.mk path)
  match Utf8.chars? contents with
  | some text => .ok text
  | none => .error ⟨path, .notText⟩

/-- The marker style that a file describes, on a tree. -/
def Settings.onDisk (disk : Disk) (path : Path) : Except SettingsError MarkerStyle :=
  match Format.ofExtension? (extension path) with
  | none => .error (.unsupported (extension path))
  | some format => do
    let text ← (Files.textOnDisk disk path).mapError SettingsError.file
    match format.style? text with
    | none => .error (.malformed format path)
    | some style => .ok style

/-- **The style that settings file and command line describe**, on a tree. -/
def MarkerStyle.onDisk (disk : Disk) (lead : Option Bytes) (settings : Option Path) :
    Except TaskError MarkerStyle := do
  let chosen ← match settings with
    | some path => (Settings.onDisk disk path).mapError TaskError.settings
    | none => .ok .standard
  return match lead with
    | some lead => ⟨lead⟩
    | none => chosen

theorem Files.looks_readText (path : Path) :
    Looks (Files.readText path : Action FileError (List Char)) (textOnDisk · path) := by
  refine Looks.bind (looks_readFile path) fun contents => ?_
  cases Utf8.chars? contents with
  | none => exact looks_throw _
  | some text => exact looks_pure text

theorem Settings.looks_load (path : Path) :
    Looks (Settings.load path : Action SettingsError MarkerStyle) (onDisk · path) := by
  rw [Settings.load]
  unfold onDisk
  cases Format.ofExtension? (extension path) with
  | none => exact looks_throw _
  | some format =>
    refine Looks.bind ((Files.looks_readText path).adapt SettingsError.file) fun text => ?_
    cases format.style? text with
    | none => exact looks_throw _
    | some style => exact (looks_report _).bind fun _ => looks_pure style

/-- **Settling the style** only looks. -/
theorem MarkerStyle.looks_resolve (lead : Option Bytes) (settings : Option Path) :
    Looks (MarkerStyle.resolve lead settings : Action TaskError MarkerStyle)
      (onDisk · lead settings) := by
  cases settings with
  | none =>
    exact (looks_pure standard).bind fun chosen => (Task.looks_note _).bind fun _ => looks_pure _
  | some path =>
    exact ((Settings.looks_load path).adapt TaskError.settings).bind
      fun chosen => (Task.looks_note _).bind fun _ => looks_pure _

end MarkedRegions
