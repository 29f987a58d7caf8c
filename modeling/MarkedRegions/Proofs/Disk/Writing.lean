import MarkedRegions.Proofs.Disk.Following
import MarkedRegions.Proofs.Disk.Looking
import MarkedRegions.Proofs.Text.Lossy

/-!
# What writing a file comes to

A file is written in two stages. First the directories on its way are made, and this only ever adds
directories, each at a leading part of the file's parent, whether or not it gets to the end. Then
the contents go through a temporary file, and here are three endings. Where the temporary file can
not be opened, it can not be removed either, so nothing happens at all. Where it is opened but not
moved, it is removed. Otherwise it has been moved over the file.

The temporary file stands beside the file under a name of its own: the name is that of an entry,
whatever bytes the file's name is made of, and it is longer than the file's.

## Main definitions

* `Disk.Leads`: the directories on the way to a file
* `Disk.Grows`: nothing but such directories is added
* `Files.Ending`: how writing through a temporary file ends

## Main results

* `Files.isName_temporaryName`, `Files.length_temporaryName`: the temporary name
* `Files.exists_makeDirectories`: making directories only adds them
* `Files.exists_writeOrRemove`: writing through a temporary file comes to one of its endings
* `Files.exists_write`: writing a file comes to both
* `Files.readFile_of_write`: what has been written is read
-/

namespace MarkedRegions

/-! ## The temporary name -/

namespace Files

variable {path : Path} {byte : UInt8} {processId : Nat}

theorem not_mem_ofString_toString {number : Nat} (low : byte < 0x30) :
    byte ∉ Bytes.ofString (toString number) := by
  intro mem
  have plain : byte < 0x80 := UInt8.lt_trans low (by decide)
  have low' : byte.toNat < 0x30 := low
  obtain ⟨c, mem, value⟩ := (Bytes.mem_ofString_iff plain).mp mem
  rw [Nat.toString_eq_repr, Nat.repr, String.toList_ofList] at mem
  have digit := Nat.isDigit_of_mem_toDigits (by decide) (by decide) mem
  rw [Char.isDigit_iff_toNat] at digit
  have least : 0x30 ≤ c.toNat := digit.1
  omega

/-- **Bytes below the digits**, dots apart, come from the name of the file. -/
theorem mem_fileName_of_mem_temporaryName (low : byte < 0x30) (other : byte ≠ dot)
    (mem : byte ∈ temporaryName path processId) : byte ∈ path.fileName?.getD [] := by
  have plain : byte < 0x80 := UInt8.lt_trans low (by decide)
  have low' : byte.toNat < 0x30 := low
  have other' : byte.toNat ≠ 0x2e := fun value => other (UInt8.toNat_inj.mp value)
  have not_front : byte ∉ Bytes.ofString "." := by
    intro mem
    obtain ⟨c, mem, value⟩ := (Bytes.mem_ofString_iff plain).mp mem
    obtain rfl : c = '.' := by simpa using mem
    exact other' value.symm
  have not_back : byte ∉ Bytes.ofString ".tmp" := by
    intro mem
    obtain ⟨c, mem, value⟩ := (Bytes.mem_ofString_iff plain).mp mem
    have letters : c = '.' ∨ c = 't' ∨ c = 'm' ∨ c = 'p' := by simpa using mem
    rcases letters with rfl | rfl | rfl | rfl <;> simp at value <;> omega
  simp only [temporaryName, Bytes.ofString_append, List.mem_append, not_front, not_back,
    not_mem_ofString_toString low, or_false, false_or] at mem
  exact Utf8.mem_of_mem_ofString_lossy plain mem

/-- **The temporary name is longer** than the name of the file. -/
theorem length_temporaryName (path : Path) (processId : Nat) :
    (path.fileName?.getD []).length + 6 ≤ (temporaryName path processId).length := by
  have shown := Utf8.length_le_length_ofString_lossy (path.fileName?.getD [])
  have front : (Bytes.ofString ".").length = 1 := by
    rw [Bytes.ofString_eq_flatMap]
    decide
  have back : (Bytes.ofString ".tmp").length = 4 := by
    rw [Bytes.ofString_eq_flatMap]
    decide
  simp only [temporaryName, Bytes.ofString_append, List.length_append]
  omega

theorem temporaryName_ne {name : Bytes} (named : path.fileName? = some name) :
    temporaryName path processId ≠ name := by
  intro same
  have longer := length_temporaryName path processId
  rw [same, named, Option.getD_some] at longer
  omega

/-- **The temporary name is that of an entry.** -/
theorem isName_temporaryName (path : Path) (processId : Nat) :
    Path.IsName (temporaryName path processId) := by
  refine ⟨?_, ?_⟩
  · intro mem
    exact Path.slash_not_mem_fileName path
      (mem_fileName_of_mem_temporaryName (by decide) (by decide) mem)
  · have long := length_temporaryName path processId
    generalize temporaryName path processId = name at long
    rw [Path.stepOf?, if_neg, if_neg, if_neg]
    · rintro rfl
      simp at long
    · rintro rfl
      simp at long
    · rw [List.isEmpty_iff]
      rintro rfl
      simp at long

end Files

/-! ## Directories on the way -/

namespace Disk

variable {path parent leading : Path} {before between after : Disk} {location : Location}

/-- **A directory on the way to a file**: a leading part of the file's parent leads there. -/
def Leads (disk : Disk) (path : Path) (location : Location) : Prop :=
  ∃ parent leading, path.parent? = some parent ∧ leading <+: parent ∧
    Path.steps leading <+: parent.steps ∧ disk.resolve leading = .ok (location, .directory)

theorem Leads.of_keeps (keeps : KeepsDirectories before after)
    (leads : before.Leads path location) : after.Leads path location := by
  obtain ⟨parent, leading, above, front, front_steps, found⟩ := leads
  exact ⟨parent, leading, above, front, front_steps, resolve_of_keeps keeps found⟩

/-- **A tree grows** by directories on the way to a file, and keeps all it had. -/
structure Grows (path : Path) (before after : Disk) : Prop where
  home : after.home = before.home
  kept : ∀ location entry, before.find? location = some entry → after.find? location = some entry
  added : ∀ location entry, before.find? location = none → after.find? location = some entry →
    entry = .directory ∧ after.Leads path location

namespace Grows

theorem refl (path : Path) (disk : Disk) : Grows path disk disk := by
  refine ⟨rfl, fun _ _ found => found, ?_⟩
  intro location entry nothing found
  rw [nothing] at found
  cases found

theorem keeps (grows : Grows path before after) : KeepsDirectories before after :=
  ⟨grows.home, fun location => grows.kept location .directory⟩

theorem trans (first : Grows path before between) (second : Grows path between after) :
    Grows path before after := by
  refine ⟨second.home.trans first.home, ?_, ?_⟩
  · intro location entry found
    exact second.kept _ _ (first.kept _ _ found)
  · intro location entry nothing found
    cases there : between.find? location with
    | none => exact second.added _ _ there found
    | some made =>
      obtain ⟨rfl, leads⟩ := first.added _ _ nothing there
      cases found.symm.trans (second.kept _ _ there)
      exact ⟨rfl, leads.of_keeps second.keeps⟩

/-- **Making a directory above a file.** -/
theorem of_makeDirectory (above : path.parent? = some parent) (mem : leading ∈ parent.ancestors)
    (made : before.makeDirectory leading = .ok after) : Grows path before after := by
  have keeps := keeps_of_makeDirectory made
  obtain ⟨location, named, nothing, rfl⟩ := makeDirectory_eq_ok_iff.mp made
  have below := ne_root_of_seat? named
  refine ⟨rfl, ?_, ?_⟩
  · intro other entry found
    have differ : other ≠ location := by
      rintro rfl
      cases nothing.symm.trans found
    rw [find?_put_of_ne differ, found]
  · intro other entry free found
    by_cases same : other = location
    · subst same
      rw [find?_put_self below] at found
      cases found
      obtain ⟨-, front, front_steps⟩ := Path.prefix_of_mem_ancestors mem
      exact ⟨rfl, parent, leading, above, front, front_steps,
        resolve_of_seat? (seat?_of_keeps keeps named) (find?_put_self below) fun _ => rfl⟩
    · rw [find?_put_of_ne same, free] at found
      cases found

end Grows

end Disk

namespace Files

open Disk Desk

variable {desk after : Desk} {path temporary parent leading : Path} {parents : List Path}
  {contents : Bytes} {disk opened : Disk}

theorem run_makeDirectories_of_ok (made : desk.disk.makeDirectory leading = .ok disk) :
    (makeDirectories (leading :: parents) : StateM Desk _) desk = (.ok (), { desk with disk }) := by
  simp only [makeDirectories, Host.makeDirectory, bind, StateT.bind, Desk.change, made]
  rfl

theorem run_makeDirectories_of_error {fault : FileFault}
    (failed : desk.disk.makeDirectory leading = .error fault) (other : fault ≠ .notFound) :
    (makeDirectories (leading :: parents) : StateM Desk _) desk =
      (if desk.disk.isDirectory leading then .ok () else .error fault, desk) := by
  simp only [makeDirectories, Host.makeDirectory, Host.isDirectory, bind, StateT.bind, Desk.change,
    failed]
  cases fault with
  | notFound => exact absurd rfl other
  | _ => rfl

theorem run_makeDirectories_of_notFound
    (failed : desk.disk.makeDirectory leading = .error .notFound) :
    (makeDirectories (leading :: parents) : StateM Desk _) desk =
      match (makeDirectories parents : StateM Desk _) desk with
      | (.error fault, after) => (.error fault, after)
      | (.ok (), after) =>
        match after.disk.makeDirectory leading with
        | .ok disk => (.ok (), { after with disk })
        | .error fault =>
          (if after.disk.isDirectory leading then .ok () else .error fault, after) := by
  simp only [makeDirectories, Host.makeDirectory, Host.isDirectory, bind, StateT.bind, Desk.change,
    failed]
  rcases (makeDirectories parents : StateM Desk (Except FileFault Unit)) desk with ⟨_ | _, after⟩
  · rfl
  · cases made : after.disk.makeDirectory leading with
    | ok disk =>
      simp only [StateT.bind, Desk.change, made]
      rfl
    | error fault =>
      simp only [StateT.bind, Desk.change, made]
      rfl

/-- **Making directories only adds them**, whether or not they are all made. -/
theorem exists_makeDirectories (above : path.parent? = some parent)
    (leads : ∀ leading ∈ parents, leading ∈ parent.ancestors) (desk : Desk) :
    ∃ result disk, (makeDirectories parents : StateM Desk (Except FileFault Unit)) desk =
      (result, { desk with disk }) ∧ Grows path desk.disk disk := by
  induction parents generalizing desk with
  | nil => exact ⟨.ok (), desk.disk, rfl, .refl _ _⟩
  | cons leading parents ih =>
    have here : leading ∈ parent.ancestors := leads leading List.mem_cons_self
    cases made : desk.disk.makeDirectory leading with
    | ok disk => exact ⟨_, disk, run_makeDirectories_of_ok made, .of_makeDirectory above here made⟩
    | error fault =>
      by_cases missing : fault = .notFound
      · subst missing
        obtain ⟨result, disk, done, grows⟩ :=
          ih (fun leading mem => leads leading (List.mem_cons_of_mem _ mem)) desk
        rw [run_makeDirectories_of_notFound made, done]
        cases result with
        | error fault => exact ⟨_, disk, rfl, grows⟩
        | ok done =>
          dsimp only
          cases made : disk.makeDirectory leading with
          | ok disk' => exact ⟨_, disk', rfl, grows.trans (.of_makeDirectory above here made)⟩
          | error fault => exact ⟨_, disk, rfl, grows⟩
      · exact ⟨_, desk.disk, run_makeDirectories_of_error made missing, .refl _ _⟩

/-! ## Through a temporary file -/

theorem run_writeThrough_of_error {fault : FileFault}
    (failed : desk.disk.writeFile temporary contents = .error fault) :
    (writeThrough (m := StateM Desk) temporary path contents).run desk =
      (.error ⟨temporary, fault⟩, desk) := by
  refine run_bind_of_error ?_
  rw [run_about]
  simp only [Host.writeFile, change, failed]
  rfl

theorem run_writeThrough_of_ok (path : Path)
    (written : desk.disk.writeFile temporary contents = .ok disk) :
    (writeThrough (m := StateM Desk) temporary path contents).run desk =
      match disk.renameFile temporary path with
      | .ok disk => (.ok (), { desk with disk })
      | .error fault => (.error ⟨path, fault⟩, { desk with disk }) := by
  have first : (about temporary (Host.writeFile temporary contents) :
      Action FileError Unit).run desk = (.ok (), { desk with disk }) := by
    rw [run_about]
    simp only [Host.writeFile, change, written]
    rfl
  rw [writeThrough, run_bind_of_ok first, run_about]
  simp only [Host.renameFile, change]
  cases disk.renameFile temporary path <;> rfl

theorem run_writeOrRemove_of_ok
    (done : (writeThrough (m := StateM Desk) temporary path contents).run desk = (.ok (), after)) :
    (writeOrRemove (m := StateM Desk) temporary path contents).run desk = (.ok (), after) := by
  simp only [writeOrRemove, ExceptT.run_mk, bind, StateT.bind, done]
  rfl

theorem run_writeOrRemove_of_error {e : FileError}
    (failed : (writeThrough (m := StateM Desk) temporary path contents).run desk =
      (.error e, after)) :
    (writeOrRemove (m := StateM Desk) temporary path contents).run desk =
      match after.disk.removeFile temporary with
      | .ok disk => (.error e, { after with disk })
      | .error _ => (.error e, after) := by
  simp only [writeOrRemove, ExceptT.run_mk, bind, StateT.bind, failed, Host.removeFile, change]
  cases after.disk.removeFile temporary <;> rfl

/-- **A file that can not be written can not be removed.** -/
theorem removeFile_of_writeFile_error {fault : FileFault}
    (failed : disk.writeFile path contents = .error fault) :
    ∃ fault', disk.removeFile path = .error fault' := by
  cases removed : disk.removeFile path with
  | error fault' => exact ⟨fault', rfl⟩
  | ok after =>
    obtain ⟨location, old, named, found, plain, -⟩ := removeFile_eq_ok_iff.mp removed
    have free : disk.find? location ≠ some .directory := by
      rw [found]
      simp
    have written : disk.writeFile path contents = .ok _ :=
      writeFile_eq_ok_iff.mpr ⟨location, named, plain, free, rfl⟩
    cases failed.symm.trans written

/-- **How writing through a temporary file ends.** -/
inductive Ending (temporary path : Path) (contents : Bytes) (disk : Disk) :
    Except FileError Unit → Disk → Prop
  -- The temporary file is not opened, or there was no coming so far.
  | unopened (e : FileError) : Ending temporary path contents disk (.error e) disk
  -- It is opened and not moved.
  | removed (e : FileError) {opened after : Disk}
      (written : disk.writeFile temporary contents = .ok opened)
      (removed : opened.removeFile temporary = .ok after) :
      Ending temporary path contents disk (.error e) after
  -- It is moved over the file.
  | moved {opened after : Disk} (written : disk.writeFile temporary contents = .ok opened)
      (moved : opened.renameFile temporary path = .ok after) :
      Ending temporary path contents disk (.ok ()) after

/-- **A file just written can be removed.** -/
theorem exists_removeFile (written : disk.writeFile path contents = .ok opened) :
    ∃ after, opened.removeFile path = .ok after := by
  have keeps := keeps_of_writeFile written
  obtain ⟨location, named, plain, -, rfl⟩ := writeFile_eq_ok_iff.mp written
  exact ⟨_, removeFile_eq_ok_iff.mpr ⟨location, contents, seat?_of_keeps keeps named,
    find?_put_self (ne_root_of_seat? named), plain, rfl⟩⟩

/-- **Writing through a temporary file** comes to one of its endings. -/
theorem exists_writeOrRemove (temporary path : Path) (contents : Bytes) (desk : Desk) :
    ∃ result disk, (writeOrRemove (m := StateM Desk) temporary path contents).run desk =
      (result, { desk with disk }) ∧ Ending temporary path contents desk.disk result disk := by
  cases written : desk.disk.writeFile temporary contents with
  | error fault =>
    obtain ⟨fault', stays⟩ := removeFile_of_writeFile_error written
    refine ⟨_, _, ?_, .unopened ⟨temporary, fault⟩⟩
    rw [run_writeOrRemove_of_error (run_writeThrough_of_error written), stays]
  | ok opened =>
    have through := run_writeThrough_of_ok path written
    cases moved : opened.renameFile temporary path with
    | error fault =>
      rw [moved] at through
      obtain ⟨after, removed⟩ := exists_removeFile written
      refine ⟨_, _, ?_, .removed ⟨path, fault⟩ written removed⟩
      rw [run_writeOrRemove_of_error through]
      simp only [removed]
    | ok after =>
      rw [moved] at through
      exact ⟨_, _, run_writeOrRemove_of_ok through, .moved written moved⟩

/-! ## The whole of it -/

theorem exists_writeBeside (path : Path) (contents : Bytes) (desk : Desk) :
    ∃ result after, (do
        let processId ← liftM (Host.processId : StateM Desk Nat)
        writeOrRemove (temporaryPath path processId) path contents
        note "Wrote file" path contents : Action FileError Unit).run desk = (result, after) ∧
      Ending (temporaryPath path desk.processId) path contents desk.disk result after.disk := by
  obtain ⟨result, disk, done, ending⟩ :=
    exists_writeOrRemove (temporaryPath path desk.processId) path contents desk
  rw [run_bind_of_ok (run_lift _)]
  cases result with
  | error e => exact ⟨_, _, run_bind_of_error done, ending⟩
  | ok done' =>
    obtain ⟨journal, noted⟩ := looks_note "Wrote file" path contents { desk with disk }
    exact ⟨_, _, (run_bind_of_ok done).trans noted, ending⟩

/-- **Writing a file** first makes the tree grow, and then comes to an ending on that tree. -/
theorem exists_write (path : Path) (contents : Bytes) (desk : Desk) :
    ∃ made result after, (write path contents : Action FileError Unit).run desk = (result, after) ∧
      Grows path desk.disk made ∧
      Ending (temporaryPath path desk.processId) path contents made result after.disk := by
  rw [write]
  cases above : path.parent? with
  | none =>
    obtain ⟨result, after, done, ending⟩ := exists_writeBeside path contents desk
    exact ⟨desk.disk, result, after, done, .refl _ _, ending⟩
  | some parent =>
    obtain ⟨result, made, ensured, grows⟩ := exists_makeDirectories above (fun _ mem => mem) desk
    have first := run_about parent (ensureDirectory parent) desk
    rw [ensureDirectory, ensured] at first
    cases result with
    | error fault => exact ⟨made, _, _, run_bind_of_error first, grows, .unopened _⟩
    | ok done =>
      obtain ⟨result, after, done, ending⟩ :=
        exists_writeBeside path contents { desk with disk := made }
      exact ⟨made, result, after, (run_bind_of_ok first).trans done, grows, ending⟩

/-! ## What is read afterwards -/

/-- What has been moved over a file is what the temporary file held. -/
theorem Ending.readFile_eq {after : Disk}
    (ending : Ending temporary path contents disk (.ok ()) after) :
    after.readFile path = .ok contents := by
  cases ending with
  | moved written moved =>
    have keeps := keeps_of_writeFile written
    have keeps' := keeps_of_renameFile moved
    obtain ⟨location, named, -, -, rfl⟩ := writeFile_eq_ok_iff.mp written
    obtain ⟨old, new, held, source, target, found, -, plain, -, rfl⟩ :=
      renameFile_eq_ok_iff.mp moved
    obtain rfl := Option.some.inj ((seat?_of_keeps keeps named).symm.trans source)
    rw [find?_put_self (ne_root_of_seat? named)] at found
    cases found
    exact readFile_eq_ok_iff.mpr ⟨new, resolve_of_seat? (seat?_of_keeps keeps' target)
      (find?_put_self (ne_root_of_seat? target)) (by simp [plain])⟩

/-- **What has been written is read**, whatever stood there before. -/
theorem readFile_of_write
    (written : (write path contents : Action FileError Unit).run desk = (.ok (), after)) :
    after.disk.readFile path = .ok contents := by
  obtain ⟨made, result, after', done, -, ending⟩ := exists_write path contents desk
  cases written.symm.trans done
  exact ending.readFile_eq

end Files

end MarkedRegions
