import MarkedRegions.Proofs.Disk.Contents
import MarkedRegions.Proofs.Disk.Writing

/-!
# Writing over a file that can be read

A write may fail for many reasons, but for almost none of them if the file can be read. Then its
path ends in a step by name: a step upwards leads to a directory, because entries of a tree stand in
directories. So the path has a parent, nothing is missing on the way, and the calls that make
directories change nothing. The temporary file can be opened in the same directory, and moved, since
a file stands where it is moved to. What remains are the limits on names, and an entry that happens
to bear the temporary name.

## Main definitions

* `Disk.IsTree`: entries stand in directories
* `Files.Unhindered`: nothing is in the way of a write

## Main results

* `Disk.exists_seat_of_readFile`: a file that can be read stands in the place of its path
* `Disk.makeDirectory_of_resolve`: a directory that is there is not made
* `Files.run_write_of_readFile`: a file that can be read can be written, and nothing else is changed
-/

namespace MarkedRegions

namespace Disk

variable {disk : Disk} {path : Path} {location between : Location} {contents old : Bytes}

/-- **Entries of a tree stand in directories.** -/
structure IsTree (disk : Disk) : Prop where
  above : ∀ location name entry, disk.find? (location ++ [name]) = some entry →
    disk.find? location = some .directory

theorem IsTree.find?_dropLast (tree : disk.IsTree) (found : disk.find? location = some .directory) :
    disk.find? location.dropLast = some .directory := by
  rcases List.eq_nil_or_concat location with rfl | ⟨front, name, rfl⟩
  · rfl
  · rw [List.concat_eq_append] at found ⊢
    rw [List.dropLast_concat]
    exact tree.above _ _ _ found

/-- A tree stays one where a file gets other contents. -/
theorem IsTree.put (tree : disk.IsTree) (found : disk.find? location = some (.file old)) :
    (disk.put location (.file contents)).IsTree := by
  refine ⟨?_⟩
  intro place name entry here
  have standing : ∃ entry', disk.find? (place ++ [name]) = some entry' := by
    rcases find?_put_cases found contents (place ++ [name]) with same | ⟨eq, -⟩
    · exact ⟨entry, same.symm.trans here⟩
    · exact ⟨_, eq ▸ found⟩
  obtain ⟨entry', standing⟩ := standing
  have above := tree.above _ _ _ standing
  have elsewhere : place ≠ location := by
    rintro rfl
    cases above.symm.trans found
  rw [find?_put_of_ne elsewhere, above]

theorem IsTree.overwrite (tree : disk.IsTree) (reads : disk.readFile path = .ok old)
    (contents : Bytes) : (disk.overwrite path contents).IsTree := by
  obtain ⟨location, resolved⟩ := readFile_eq_ok_iff.mp reads
  rw [overwrite_eq resolved]
  exact tree.put (resolve_eq_ok_iff.mp resolved).2.2.1

/-- No entry bears a name that none of those listed bears. -/
theorem find?_eq_none_of_getLast? {name : Bytes}
    (absent : ∀ item ∈ disk.entries, item.1.getLast? ≠ some name)
    (last : location.getLast? = some name) : disk.find? location = none := by
  have below : location ≠ [] := by
    rintro rfl
    cases last
  rw [find?, if_neg below, List.lookup_eq_none_iff]
  intro item inside
  have differ : location ≠ item.1 := by
    rintro rfl
    exact absent item inside last
  simpa using differ

/-- **A disk with entries at the top only** is a tree. -/
theorem isTree_of_top (top : ∀ item ∈ disk.entries, item.1.length = 1) : disk.IsTree := by
  refine ⟨?_⟩
  intro location name entry found
  have below := List.append_ne_nil_of_right_ne_nil location (List.cons_ne_nil name [])
  rw [find?, if_neg below] at found
  obtain ⟨front, back, parts, -⟩ := List.lookup_eq_some_iff.mp found
  have length := top (location ++ [name], entry) (by rw [parts]; simp)
  rw [List.length_append, List.length_singleton, Nat.add_eq_right] at length
  obtain rfl := List.eq_nil_of_length_eq_zero length
  rfl

theorem find?_single_of_ne {home : Location} {name : Bytes} {entry : Entry}
    (below : location ≠ []) (elsewhere : location ≠ [name]) :
    (Disk.mk [([name], entry)] home).find? location = none := by
  simp [find?, below, elsewhere]

/-- **A disk with one file** at the top is a tree. -/
theorem isTree_single {home : Location} {name : Bytes} :
    (Disk.mk [([name], .file contents)] home).IsTree :=
  isTree_of_top (by simp)

theorem place_of_follow {way : List Path.Step} {step : Path.Step} (fine : objection? path = none)
    (eq : path.steps = way ++ [step]) (followed : disk.follow (disk.origin path) way = .ok between)
    (onward : disk.follow between [step] = .ok location) :
    disk.place path = .ok (between, some step) := by
  refine place_eq_ok_iff.mpr ⟨fine, ?_, find?_of_follow_cons onward, ?_, ?_⟩
  · rw [eq, List.dropLast_concat, followed]
  · rw [eq, List.getLast?_concat]
  · rintro name ⟨⟩
    exact (follow_enter_eq_ok_iff.mp onward).2.1

/-- **A file that can be read** stands in the place of its path. -/
theorem exists_seat_of_readFile (tree : disk.IsTree) (reads : disk.readFile path = .ok contents) :
    ∃ location, disk.seat? path = some location ∧ disk.find? location = some (.file contents) ∧
      path.endsInSlash = false := by
  obtain ⟨location, resolved⟩ := readFile_eq_ok_iff.mp reads
  obtain ⟨fine, followed, found, file_only⟩ := resolve_eq_ok_iff.mp resolved
  obtain ⟨-, some_path, -⟩ := objection?_eq_none_iff.mp fine
  have plain : path.endsInSlash = false := by
    by_contra ends
    cases file_only (by simpa using ends)
  rcases List.eq_nil_or_concat path.steps with still | ⟨way, step, eq⟩
  · -- Only the root takes no step, and it is a directory.
    cases absolute : path.isAbsolute with
    | false => exact absurd still (Path.steps_ne_nil some_path absolute)
    | true =>
      rw [still, origin, absolute] at followed
      cases followed
      cases found
  · rw [List.concat_eq_append] at eq
    rw [eq] at followed
    obtain ⟨between, followed, onward⟩ := follow_append_eq_ok_iff.mp followed
    have here := find?_of_follow_cons onward
    have placed := place_of_follow fine eq followed onward
    cases step with
    | stay =>
      simp only [follow, here] at onward
      cases onward
      cases here.symm.trans found
    | up =>
      simp only [follow, here] at onward
      cases onward
      cases (tree.find?_dropLast here).symm.trans found
    | enter name =>
      obtain ⟨-, -, rfl, -⟩ := follow_enter_eq_ok_iff.mp onward
      exact ⟨_, seat?_eq_some_iff.mpr ⟨between, name, placed, rfl⟩, found, plain⟩

/-- **A directory that is there** is not made. -/
theorem makeDirectory_of_resolve (resolved : disk.resolve path = .ok (location, .directory)) :
    disk.makeDirectory path = .error .alreadyExists := by
  obtain ⟨fine, followed, found, -⟩ := resolve_eq_ok_iff.mp resolved
  rcases List.eq_nil_or_concat path.steps with still | ⟨way, step, eq⟩
  · have placed : disk.place path = .ok (location, none) := by
      rw [still] at followed
      refine place_eq_ok_iff.mpr ⟨fine, ?_, found, ?_, ?_⟩
      · rwa [still]
      · rw [still]
        rfl
      · rintro name ⟨⟩
    rw [makeDirectory, placed]
  · rw [List.concat_eq_append] at eq
    rw [eq] at followed
    obtain ⟨between, followed, onward⟩ := follow_append_eq_ok_iff.mp followed
    have placed := place_of_follow fine eq followed onward
    cases step with
    | stay => rw [makeDirectory, placed]
    | up => rw [makeDirectory, placed]
    | enter name =>
      obtain ⟨-, -, rfl, -⟩ := follow_enter_eq_ok_iff.mp onward
      simp only [makeDirectory, placed, found, Option.isSome_some, if_true]

end Disk

namespace Files

open Disk Desk

variable {desk : Desk} {path : Path} {directory : Location} {name contents old : Bytes}

/-- **Nothing is made** above a file whose directory is there. -/
theorem run_ensureDirectory {parent : Path}
    (placed : desk.disk.place path = .ok (directory, some (.enter name)))
    (above : path.parent? = some parent) :
    (ensureDirectory parent : StateM Desk (Except FileFault Unit)) desk = (.ok (), desk) := by
  rw [ensureDirectory]
  by_cases nowhere : parent = []
  · subst nowhere
    rfl
  · obtain ⟨rest, eq⟩ := Path.ancestors_eq_cons nowhere
    have resolved := resolve_parent placed above nowhere
    rw [eq, run_makeDirectories_of_error (makeDirectory_of_resolve resolved) (by decide),
      isDirectory_of_resolve resolved]
    rfl

/-- The path of the temporary file can be handed over if that of the file can, up to its length. -/
theorem objection?_temporaryPath {disk : Disk} {processId : Nat}
    (placed : disk.place path = .ok (directory, some (.enter name)))
    (short : (temporaryPath path processId).length < pathLimit) :
    objection? (temporaryPath path processId) = none := by
  obtain ⟨fine, -, -, last, -⟩ := place_eq_ok_iff.mp placed
  obtain ⟨no_null, -, -⟩ := objection?_eq_none_iff.mp fine
  obtain ⟨named, parent, -, above, front, -⟩ := Path.exists_parent last
  obtain ⟨other, count, -, -, -, eq, -⟩ :=
    Path.exists_beside last (isName_temporaryName path processId)
  refine objection?_eq_none_iff.mpr ⟨?_, ?_, short⟩
  · intro mem
    rw [temporaryPath, Path.withFileName, named, above] at mem
    rcases Path.mem_of_mem_join mem with mem | null | mem
    · exact no_null (front.subset mem)
    · cases null
    · exact no_null
        (Path.mem_of_mem_fileName (mem_fileName_of_mem_temporaryName (by decide) (by decide) mem))
  · intro nothing
    rw [temporaryPath] at nothing
    rw [nothing, Path.steps_nil] at eq
    exact List.append_ne_nil_of_right_ne_nil _ (List.cons_ne_nil _ _) eq.symm

/-- **The two calls on the temporary file** succeed where its place is free and a file stands in the
other place, and all that they change is the contents of that file. -/
theorem exists_calls {disk : Disk} {temporary : Path} {beside location : Location}
    (named : disk.seat? temporary = some beside) (nothing : disk.find? beside = none)
    (plain : temporary.endsInSlash = false) (named' : disk.seat? path = some location)
    (found : disk.find? location = some (.file old)) (plain' : path.endsInSlash = false)
    (contents : Bytes) :
    ∃ opened, disk.writeFile temporary contents = .ok opened ∧
      opened.renameFile temporary path = .ok (disk.put location (.file contents)) := by
  have differ : location ≠ beside := by
    rintro rfl
    cases nothing.symm.trans found
  have written : disk.writeFile temporary contents = .ok (disk.put beside (.file contents)) :=
    writeFile_eq_ok_iff.mpr ⟨beside, named, plain, by simp [nothing], rfl⟩
  have opened := keeps_of_writeFile written
  refine ⟨_, written, renameFile_eq_ok_iff.mpr ⟨beside, location, contents,
    seat?_of_keeps opened named, seat?_of_keeps opened named',
    find?_put_self (ne_root_of_seat? named), plain, plain', ?_, ?_⟩⟩
  · simp [find?_put_of_ne differ, found]
  · rw [drop_put (ne_root_of_seat? named) nothing]

/-- **A write comes down to the two calls** where the directory of the file is there. -/
theorem run_write_of_calls {opened after : Disk}
    (placed : desk.disk.place path = .ok (directory, some (.enter name)))
    (written : desk.disk.writeFile (temporaryPath path desk.processId) contents = .ok opened)
    (moved : opened.renameFile (temporaryPath path desk.processId) path = .ok after) :
    ∃ journal, (write path contents : Action FileError Unit).run desk =
      (.ok (), { desk with disk := after, journal }) := by
  obtain ⟨-, -, -, last, -⟩ := place_eq_ok_iff.mp placed
  obtain ⟨-, parent, -, above, -⟩ := Path.exists_parent last
  have first := run_about parent (ensureDirectory parent) desk
  rw [run_ensureDirectory placed above] at first
  have through := run_writeThrough_of_ok path written
  rw [moved] at through
  obtain ⟨journal, noted⟩ := looks_note "Wrote file" path contents { desk with disk := after }
  refine ⟨journal, ?_⟩
  rw [write, above]
  refine (run_bind_of_ok first).trans ?_
  refine (run_bind_of_ok (run_lift _)).trans ?_
  exact (run_bind_of_ok (run_writeOrRemove_of_ok through)).trans noted

/-- **Nothing is in the way of a write**: no entry bears the temporary name, and neither that name nor
its path is too long. -/
structure Unhindered (disk : Disk) (path : Path) (processId : Nat) : Prop where
  free : ∀ location, location.getLast? = some (temporaryName path processId) →
    disk.find? location = none
  short : (temporaryName path processId).length ≤ Disk.maxNameLength
  short_path : (temporaryPath path processId).length < pathLimit

/-- Other contents of the file are not in the way of the next write. -/
theorem Unhindered.overwrite {disk : Disk} {processId : Nat}
    (unhindered : Unhindered disk path processId) (reads : disk.readFile path = .ok old)
    (contents : Bytes) : Unhindered (disk.overwrite path contents) path processId := by
  obtain ⟨location, resolved⟩ := readFile_eq_ok_iff.mp reads
  obtain ⟨-, -, found, -⟩ := resolve_eq_ok_iff.mp resolved
  refine ⟨?_, unhindered.short, unhindered.short_path⟩
  intro place last
  have nothing := unhindered.free place last
  have elsewhere : place ≠ location := by
    rintro rfl
    cases nothing.symm.trans found
  rw [overwrite_eq resolved, find?_put_of_ne elsewhere, nothing]

/-- **A file that can be read can be written**, if nothing is in the way, and that is all that is
changed. -/
theorem run_write_of_readFile (desk : Desk) (tree : desk.disk.IsTree)
    (reads : desk.disk.readFile path = .ok old)
    (unhindered : Unhindered desk.disk path desk.processId) (contents : Bytes) :
    ∃ journal, (write path contents : Action FileError Unit).run desk =
      (.ok (), { desk with disk := desk.disk.overwrite path contents, journal }) := by
  obtain ⟨location, named, found, plain⟩ := exists_seat_of_readFile tree reads
  have resolved := resolve_of_seat? named found (by simp [plain])
  obtain ⟨directory, name, placed, -⟩ := seat?_eq_some_iff.mp named
  obtain ⟨-, -, -, last, -⟩ := place_eq_ok_iff.mp placed
  have ordinary := isName_temporaryName path desk.processId
  obtain ⟨-, -, -, -, -, -, -, -, plain_beside⟩ := Path.exists_beside last ordinary
  have named_beside : desk.disk.seat? (temporaryPath path desk.processId) =
      some (directory ++ [temporaryName path desk.processId]) :=
    seat?_eq_some_iff.mpr ⟨directory, _, (place_beside_iff placed ordinary).mpr
      ⟨objection?_temporaryPath placed unhindered.short_path, unhindered.short, rfl⟩, rfl⟩
  obtain ⟨opened, written, moved⟩ := exists_calls named_beside
    (unhindered.free _ List.getLast?_concat) plain_beside named found plain contents
  rw [overwrite_eq resolved]
  exact run_write_of_calls placed written moved

/-- What is found and read after a write over a file that can be read. -/
theorem write_of_readFile (desk : Desk) (tree : desk.disk.IsTree)
    (reads : desk.disk.readFile path = .ok old)
    (free : ∀ location, location.getLast? = some (temporaryName path desk.processId) →
      desk.disk.find? location = none)
    (short : (temporaryName path desk.processId).length ≤ Disk.maxNameLength)
    (short_path : (temporaryPath path desk.processId).length < pathLimit) (contents : Bytes) :
    ∃ location after, (write path contents : Action FileError Unit).run desk = (.ok (), after) ∧
      desk.disk.resolve path = .ok (location, .file old) ∧
      after.disk.resolve path = .ok (location, .file contents) ∧
      ∀ other, other ≠ location → after.disk.find? other = desk.disk.find? other := by
  obtain ⟨location, resolved⟩ := readFile_eq_ok_iff.mp reads
  obtain ⟨journal, done⟩ := run_write_of_readFile desk tree reads ⟨free, short, short_path⟩ contents
  refine ⟨location, _, done, resolved, ?_, ?_⟩
  · rw [overwrite_eq resolved]
    exact resolve_put_self resolved
  · intro other elsewhere
    rw [overwrite_eq resolved]
    exact find?_put_of_ne elsewhere

end Files

end MarkedRegions
