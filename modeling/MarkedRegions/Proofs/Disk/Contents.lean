import MarkedRegions.Proofs.Disk.Following

/-!
# Changing the contents of a file

Paths are followed through directories, and whether an entry is a directory, a file or nothing is
all that following them depends on. So where a file gets other contents, every path goes on leading
where it led, or failing as it failed; and of all the files that can be read, only the one whose
contents have been changed is read differently. A tree that has been changed so twice in one place
is the tree that has been changed once, by the second change.

## Main definitions

* `Disk.overwrite`: other contents for the file that a path leads to
* `Disk.Apart`: two paths that do not lead to one place

## Main results

* `follow_put`, `resolve_put`: paths lead where they led
* `readFile_put_of_apart`: other files are read as before
* `put_put`, `drop_put`: the second change counts, and a file that comes and goes leaves no trace
* `overwrite_overwrite`, `readFile_overwrite_of_apart`: the same by the path of the file
-/

namespace MarkedRegions.Disk

variable {disk : Disk} {path other : Path} {location start : Location} {old contents : Bytes}
  {entry entry' : Entry}

/-- **Other contents for the file that a path leads to.** -/
def overwrite (disk : Disk) (path : Path) (contents : Bytes) : Disk :=
  match disk.resolve path with
  | .ok (location, _) => disk.put location (.file contents)
  | .error _ => disk

/-- **Two paths that do not lead to one place.** -/
def Apart (disk : Disk) (path other : Path) : Prop :=
  ∀ location entry, disk.resolve path = .ok (location, entry) →
    ∀ entry', disk.resolve other ≠ .ok (location, entry')

/-! ## The tree of entries -/

/-- The list of entries without those in a place, after an entry has been put there. -/
theorem filter_entries_put (disk : Disk) (location : Location) (entry : Entry) :
    (disk.put location entry).entries.filter (·.1 ≠ location) =
      disk.entries.filter (·.1 ≠ location) := by
  rw [put, List.filter_cons_of_neg (by simp)]
  exact List.filter_eq_self.mpr fun item inside => (List.mem_filter.mp inside).2

/-- **Of two changes in one place the second counts.** -/
theorem put_put (disk : Disk) (location : Location) (entry entry' : Entry) :
    (disk.put location entry).put location entry' = disk.put location entry' := by
  rw [put, filter_entries_put]
  rfl

/-- **An entry that comes and goes leaves no trace.** -/
theorem drop_put (below : location ≠ []) (nothing : disk.find? location = none) :
    (disk.put location entry).drop location = disk := by
  rw [find?, if_neg below, List.lookup_eq_none_iff] at nothing
  have absent : disk.entries.filter (·.1 ≠ location) = disk.entries := by
    refine List.filter_eq_self.mpr ?_
    intro item inside
    have differ : location ≠ item.1 := by simpa using nothing item inside
    simpa using differ.symm
  rw [drop, filter_entries_put, absent]
  rfl

/-! ## Paths lead where they led -/

/-- Where a file gets other contents, what stands in a place is of the same sort. -/
theorem find?_put_cases (found : disk.find? location = some (.file old)) (contents : Bytes)
    (place : Location) :
    (disk.put location (.file contents)).find? place = disk.find? place ∨
      place = location ∧
        (disk.put location (.file contents)).find? place = some (.file contents) := by
  by_cases here : place = location
  · subst here
    have below : place ≠ [] := by
      rintro rfl
      cases found
    exact .inr ⟨rfl, find?_put_self below⟩
  · exact .inl (find?_put_of_ne here)

/-- **Steps lead where they led**, or fail as they failed. -/
theorem follow_put (found : disk.find? location = some (.file old)) (steps : List Path.Step) :
    (disk.put location (.file contents)).follow start steps = disk.follow start steps := by
  induction steps generalizing start with
  | nil => rfl
  | cons step rest ih =>
    unfold follow
    rcases find?_put_cases found contents start with same | ⟨rfl, changed⟩
    · rw [same]
      cases disk.find? start with
      | none => rfl
      | some entry =>
        cases entry with
        | file contents => rfl
        | directory =>
          cases step with
          | stay => exact ih
          | up => exact ih
          | enter name =>
            simp only [ih]
            rcases find?_put_cases found contents (start ++ [name]) with
              same | ⟨rfl, changed⟩
            · rw [same]
            · rw [changed, found]
    · rw [changed, found]

/-- **Paths lead where they led**, or fail as they failed; what stands there is what stood there, or
the file with its other contents. -/
theorem resolve_put (found : disk.find? location = some (.file old)) (path : Path) :
    (disk.put location (.file contents)).resolve path =
      (disk.resolve path).map fun led =>
        if led.1 = location then (led.1, .file contents) else led := by
  have origin_eq : (disk.put location (.file contents)).origin path = disk.origin path := rfl
  rw [resolve, resolve, origin_eq, follow_put found]
  cases objection? path with
  | some fault => rfl
  | none =>
    dsimp only
    cases disk.follow (disk.origin path) path.steps with
    | error fault => rfl
    | ok place =>
      dsimp only
      by_cases here : place = location
      · subst here
        have below : place ≠ [] := by
          rintro rfl
          cases found
        rw [find?_put_self below, found]
        cases path.endsInSlash with
        | true => rfl
        | false => simp [Except.map]
      · rw [find?_put_of_ne here]
        cases disk.find? place with
        | none => rfl
        | some entry =>
          cases entry with
          | directory => simp [Except.map, here]
          | file contents =>
            cases path.endsInSlash with
            | true => rfl
            | false => simp [Except.map, here]

/-- **Other files are read as before.** -/
theorem readFile_put_of_apart (resolved : disk.resolve path = .ok (location, .file old))
    (apart : disk.Apart other path) :
    (disk.put location (.file contents)).readFile other = disk.readFile other := by
  obtain ⟨-, -, found, -⟩ := resolve_eq_ok_iff.mp resolved
  rw [readFile, readFile, resolve_put found]
  cases leads : disk.resolve other with
  | error fault => rfl
  | ok led =>
    obtain ⟨place, entry⟩ := led
    have elsewhere : place ≠ location := by
      rintro rfl
      exact apart place entry leads _ resolved
    rw [Except.map, if_neg elsewhere]

/-- The file whose contents have been changed is read as changed. -/
theorem resolve_put_self (resolved : disk.resolve path = .ok (location, .file old)) :
    (disk.put location (.file contents)).resolve path = .ok (location, .file contents) := by
  obtain ⟨-, -, found, -⟩ := resolve_eq_ok_iff.mp resolved
  rw [resolve_put found, resolved, Except.map, if_pos rfl]

/-! ## By the path of a file -/

theorem overwrite_eq (resolved : disk.resolve path = .ok (location, entry)) (contents : Bytes) :
    disk.overwrite path contents = disk.put location (.file contents) := by
  rw [overwrite, resolved]

/-- **Of two changes of one file the second counts.** -/
theorem overwrite_overwrite (reads : disk.readFile path = .ok old) (contents contents' : Bytes) :
    (disk.overwrite path contents).overwrite path contents' = disk.overwrite path contents' := by
  obtain ⟨location, resolved⟩ := readFile_eq_ok_iff.mp reads
  rw [overwrite_eq resolved, overwrite_eq resolved, overwrite_eq (resolve_put_self resolved), put_put]

theorem readFile_overwrite_self (reads : disk.readFile path = .ok old) (contents : Bytes) :
    (disk.overwrite path contents).readFile path = .ok contents := by
  obtain ⟨location, resolved⟩ := readFile_eq_ok_iff.mp reads
  rw [overwrite_eq resolved]
  exact readFile_eq_ok_iff.mpr ⟨location, resolve_put_self resolved⟩

theorem readFile_overwrite_of_apart (reads : disk.readFile path = .ok old)
    (apart : disk.Apart other path) (contents : Bytes) :
    (disk.overwrite path contents).readFile other = disk.readFile other := by
  obtain ⟨location, resolved⟩ := readFile_eq_ok_iff.mp reads
  rw [overwrite_eq resolved, readFile_put_of_apart resolved apart]

end MarkedRegions.Disk
