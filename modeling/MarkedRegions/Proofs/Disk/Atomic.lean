import MarkedRegions.Proofs.Disk.Writing

/-!
# Writing a file is all or nothing

Whoever looks at a tree before and after a file is written finds either the new contents or what was
there before, and next to nothing else has changed. Three places may differ: that of the file, that
of the temporary file beside it, and those of directories that were missing on the way. Where the
write succeeds, the file reads as it was written and no temporary file is left. Where it fails, at
whatever call, no file is new and none has other contents; a temporary file that an earlier run left
behind may be gone. A directory is never lost, not even one that stands where the file or its
temporary file should be written.

A tree holds files and directories only, and each file has contents of its own. So whatever stands
under the temporary name is replaced or refused where it stands, and is never a way to contents that
stand elsewhere, as a link there would be. Of such a tree nothing more is assumed, and nothing of the
path: it may be empty, end in a slash, lead upwards or name no file, and then its temporary file
stands at another place; the law is the same.

## Main definitions

* `Files.Written`: what a write that succeeds leaves
* `Files.Abandoned`: what a write that fails leaves

## Main results

* `Files.write_atomic`: a write leaves one or the other
-/

namespace MarkedRegions.Files

open Disk Desk

variable {path : Path} {contents : Bytes} {processId : Nat} {before made after : Disk}
  {location old new : Location}

/-! ## What a write leaves -/

/-- **What a write that succeeds leaves.** -/
structure Written (path : Path) (contents : Bytes) (processId : Nat) (before after : Disk) :
    Prop where
  reads : after.readFile path = .ok contents
  -- Nothing is left under the temporary name, in the same directory as the file.
  beside : ∃ directory name, path.fileName? = some name ∧
    after.seat? path = some (directory ++ [name]) ∧
    after.seat? (temporaryPath path processId) =
      some (directory ++ [temporaryName path processId]) ∧
    after.find? (directory ++ [temporaryName path processId]) = none
  kept : ∀ location entry, before.find? location = some entry →
    after.find? location = some entry ∨ after.seat? path = some location ∨
      after.seat? (temporaryPath path processId) = some location
  added : ∀ location entry, before.find? location = none → after.find? location = some entry →
    after.seat? path = some location ∨ entry = .directory ∧ after.Leads path location
  -- All leading parts of the parent lead to directories.
  made : ∀ parent leading, path.parent? = some parent → leading ≠ [] → leading <+: parent →
    Path.steps leading <+: parent.steps → after.isDirectory leading = true
  directories : KeepsDirectories before after

/-- **What a write that fails leaves.** -/
structure Abandoned (path : Path) (processId : Nat) (before after : Disk) : Prop where
  kept : ∀ location entry, before.find? location = some entry →
    after.find? location = some entry ∨
      after.seat? (temporaryPath path processId) = some location
  -- What stands in the place of the file is not the temporary file.
  target : ∀ location entry, before.seat? path = some location →
    before.find? location = some entry → after.find? location = some entry
  -- No file is new, and none has other contents, whatever its place.
  files : ∀ location contents, after.find? location = some (.file contents) →
    before.find? location = some (.file contents)
  added : ∀ location entry, before.find? location = none → after.find? location = some entry →
    entry = .directory ∧ after.Leads path location
  directories : KeepsDirectories before after

/-! ## The two places -/

/-- **The two places of a write** are two names in one directory. -/
theorem exists_directory (named : after.seat? (temporaryPath path processId) = some old)
    (named' : after.seat? path = some new) :
    ∃ directory name, after.place path = .ok (directory, some (.enter name)) ∧
      path.fileName? = some name ∧ new = directory ++ [name] ∧
      old = directory ++ [temporaryName path processId] ∧ old ≠ new := by
  obtain ⟨directory, name, placed, rfl⟩ := seat?_eq_some_iff.mp named'
  obtain ⟨directory', name', placed', rfl⟩ := seat?_eq_some_iff.mp named
  obtain ⟨-, -, same⟩ :=
    (place_beside_iff placed (isName_temporaryName path processId)).mp placed'
  cases same
  obtain ⟨-, -, -, last, -⟩ := place_eq_ok_iff.mp placed
  have name_eq := (Path.exists_parent last).1
  refine ⟨directory, name, placed, name_eq, rfl, rfl, ?_⟩
  intro same
  exact temporaryName_ne name_eq (List.cons.inj (List.append_cancel_left same)).1

/-! ## Failing -/

theorem abandoned_of_grows (processId : Nat) (grows : Grows path before made) :
    Abandoned path processId before made := by
  refine ⟨fun location entry found => .inl (grows.kept _ _ found),
    fun location entry _ found => grows.kept _ _ found, ?_, grows.added, grows.keeps⟩
  intro location contents found
  cases was : before.find? location with
  | none => cases (grows.added _ _ was found).1
  | some entry => exact (grows.kept _ _ was).symm.trans found

/-- **Clearing the place of the temporary file** leaves no more behind. -/
theorem Abandoned.clear (abandoned : Abandoned path processId before made)
    (keeps : KeepsDirectories made after)
    (named : made.seat? (temporaryPath path processId) = some location)
    (nothing : after.find? location = none)
    (elsewhere : ∀ other, other ≠ location → after.find? other = made.find? other) :
    Abandoned path processId before after := by
  have differ : ∀ other entry, after.find? other = some entry → other ≠ location := by
    rintro other entry found rfl
    cases nothing.symm.trans found
  refine ⟨?_, ?_, ?_, ?_, abandoned.directories.trans keeps⟩
  · intro other entry found
    by_cases same : other = location
    · subst same
      exact .inr (seat?_of_keeps keeps named)
    · rw [elsewhere other same]
      exact (abandoned.kept _ _ found).imp_right (seat?_of_keeps keeps)
  · intro other entry at_path found
    obtain ⟨-, -, -, -, -, -, apart⟩ :=
      exists_directory named (seat?_of_keeps abandoned.directories at_path)
    rw [elsewhere other apart.symm]
    exact abandoned.target _ _ at_path found
  · intro other contents found
    rw [elsewhere other (differ _ _ found)] at found
    exact abandoned.files _ _ found
  · intro other entry was found
    rw [elsewhere other (differ _ _ found)] at found
    obtain ⟨directory, leads⟩ := abandoned.added _ _ was found
    exact ⟨directory, leads.of_keeps keeps⟩

/-! ## Succeeding -/

/-- **Moving the temporary file** over the file, on a tree with all directories on the way. -/
theorem written_of_grows (grows : Grows path before made) (keeps : KeepsDirectories made after)
    (named : after.seat? (temporaryPath path processId) = some old)
    (named' : after.seat? path = some new) (plain : path.endsInSlash = false)
    (found : after.find? new = some (.file contents))
    (nothing : old ≠ new → after.find? old = none)
    (elsewhere : ∀ other, other ≠ old → other ≠ new → after.find? other = made.find? other) :
    Written path contents processId before after := by
  obtain ⟨directory, name, placed, name_eq, rfl, rfl, differ⟩ := exists_directory named named'
  have file_only : path.endsInSlash = true → Entry.file contents = .directory := by
    rw [plain]
    intro ends
    cases ends
  refine ⟨?_, ⟨directory, name, name_eq, named', named, nothing differ⟩, ?_, ?_, ?_,
    grows.keeps.trans keeps⟩
  · exact readFile_eq_ok_iff.mpr ⟨_, resolve_of_seat? named' found file_only⟩
  · intro other entry was
    by_cases temporary : other = directory ++ [temporaryName path processId]
    · exact .inr (.inr (temporary ▸ named))
    · by_cases target : other = directory ++ [name]
      · exact .inr (.inl (target ▸ named'))
      · rw [elsewhere other temporary target]
        exact .inl (grows.kept _ _ was)
  · intro other entry was there
    by_cases target : other = directory ++ [name]
    · exact .inl (target ▸ named')
    · have temporary : other ≠ directory ++ [temporaryName path processId] := by
        rintro rfl
        cases (nothing differ).symm.trans there
      rw [elsewhere other temporary target] at there
      obtain ⟨rfl, leads⟩ := grows.added _ _ was there
      exact .inr ⟨rfl, leads.of_keeps keeps⟩
  · -- The temporary file has been opened, so the parent leads to its directory.
    intro parent leading above some_leading front front_steps
    have some_parent : parent ≠ [] := by
      rintro rfl
      exact some_leading (List.prefix_nil.mp front)
    obtain ⟨between, resolved⟩ :=
      resolve_of_leading some_leading front front_steps (resolve_parent placed above some_parent)
    exact isDirectory_of_resolve resolved

/-! ## All or nothing -/

/-- **A write is all or nothing**: the file reads as it was written and no temporary file is left,
or every file is as it was. -/
theorem write_atomic (path : Path) (contents : Bytes) (desk : Desk) :
    ∃ result after, (write path contents : Action FileError Unit).run desk = (result, after) ∧
      match result with
      | .ok () => Written path contents desk.processId desk.disk after.disk
      | .error _ => Abandoned path desk.processId desk.disk after.disk := by
  obtain ⟨made, result, after, done, grows, ending⟩ := exists_write path contents desk
  refine ⟨result, after, done, ?_⟩
  generalize after.disk = disk at ending
  cases ending with
  | unopened e => exact abandoned_of_grows _ grows
  | removed e written removed =>
    have opened := keeps_of_writeFile written
    have keeps := opened.trans (keeps_of_removeFile removed)
    obtain ⟨location, named, -, -, rfl⟩ := writeFile_eq_ok_iff.mp written
    obtain ⟨location', -, named', -, -, rfl⟩ := removeFile_eq_ok_iff.mp removed
    cases (seat?_of_keeps opened named).symm.trans named'
    refine (abandoned_of_grows _ grows).clear keeps named
      (find?_drop_self (ne_root_of_seat? named)) ?_
    intro other differ
    rw [find?_drop_of_ne differ, find?_put_of_ne differ]
  | moved written moved =>
    have opened := keeps_of_writeFile written
    have renamed := keeps_of_renameFile moved
    have keeps := opened.trans renamed
    obtain ⟨old, named, -, -, rfl⟩ := writeFile_eq_ok_iff.mp written
    obtain ⟨old', new, contents', named', named_new, found, -, plain, -, rfl⟩ :=
      renameFile_eq_ok_iff.mp moved
    have below := ne_root_of_seat? named
    have below_new := ne_root_of_seat? named_new
    cases (seat?_of_keeps opened named).symm.trans named'
    rw [find?_put_self below] at found
    cases found
    refine written_of_grows grows keeps (seat?_of_keeps keeps named)
      (seat?_of_keeps renamed named_new) plain (find?_put_self below_new) ?_ ?_
    · intro differ
      rw [find?_put_of_ne differ, find?_drop_self below]
    · intro other differ differ_new
      rw [find?_put_of_ne differ_new, find?_drop_of_ne differ, find?_put_of_ne differ]

end MarkedRegions.Files
