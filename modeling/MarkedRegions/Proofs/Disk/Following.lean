import MarkedRegions.Disk.Tree
import MarkedRegions.Proofs.Disk.Paths

/-!
# Following paths while the tree changes

A path is followed through directories only, so what it leads to depends on nothing else: as long as
no directory is lost, a path that leads to a directory goes on leading there, and the entry that a
path names, or would name, stays in its place. No call loses a directory. So what several calls on
the same path do, one after the other, they do in one place, and their laws can be stated by that
place alone.

## Main definitions

* `Disk.seat?`: where the entry of a path stands, or would stand
* `Disk.KeepsDirectories`: no directory is lost

## Main results

* `follow_append_eq_ok_iff`, `resolve_eq_ok_iff`, `place_eq_ok_iff`: where paths lead
* `resolve_of_leading`: the leading parts of a path lead to directories
* `place_beside_iff`: a path beside a file leads to the same directory
* `follow_of_keeps`, `place_of_keeps`, `resolve_of_keeps`: paths go on leading where they led
* `makeDirectory_eq_ok_iff`, `writeFile_eq_ok_iff`, `renameFile_eq_ok_iff`, `removeFile_eq_ok_iff`:
  when a call succeeds, and what it changes then
* `keeps_of_makeDirectory`, `keeps_of_writeFile`, `keeps_of_renameFile`, `keeps_of_removeFile`: no
  call loses a directory
-/

namespace MarkedRegions.Disk

variable {disk before after : Disk} {path source target : Path} {location last : Location}
  {entry : Entry} {contents : Bytes}

/-! ## Following steps -/

theorem find?_of_follow_cons {step : Path.Step} {rest : List Path.Step}
    (done : disk.follow location (step :: rest) = .ok last) :
    disk.find? location = some .directory := by
  cases here : disk.find? location with
  | none => simp [follow, here] at done
  | some entry =>
    cases entry with
    | file contents => simp [follow, here] at done
    | directory => rfl

/-- **Some steps and then others.** -/
theorem follow_append_eq_ok_iff {front back : List Path.Step} :
    disk.follow location (front ++ back) = .ok last ↔
      ∃ between, disk.follow location front = .ok between ∧
        disk.follow between back = .ok last := by
  induction front generalizing location with
  | nil =>
    rw [List.nil_append]
    refine ⟨fun done => ⟨location, rfl, done⟩, ?_⟩
    rintro ⟨between, here, done⟩
    cases here
    exact done
  | cons step front ih =>
    rw [List.cons_append]
    cases here : disk.find? location with
    | none => simp [follow, here]
    | some entry =>
      cases entry with
      | file contents => simp [follow, here]
      | directory =>
        cases step with
        | stay =>
          simp only [follow, here]
          exact ih
        | up =>
          simp only [follow, here]
          exact ih
        | enter name =>
          simp only [follow, here]
          split
          · simp
          · split
            · simp
            · exact ih

theorem follow_stay_eq_ok {count : Nat}
    (done : disk.follow location (List.replicate count .stay) = .ok last) : last = location := by
  induction count with
  | zero =>
    cases done
    rfl
  | succ count ih =>
    have here := find?_of_follow_cons done
    rw [List.replicate_succ] at done
    simp only [follow, here] at done
    exact ih done

theorem follow_enter_eq_ok_iff {name : Bytes} :
    disk.follow location [.enter name] = .ok last ↔
      disk.find? location = some .directory ∧ name.length ≤ maxNameLength ∧
        last = location ++ [name] ∧ (disk.find? last).isSome := by
  constructor
  · intro done
    have here := find?_of_follow_cons done
    simp only [follow, here] at done
    split at done
    · cases done
    · next short =>
      split at done
      · cases done
      · next found =>
        cases done
        exact ⟨here, Nat.le_of_not_lt short, rfl, by rw [found]; rfl⟩
  · rintro ⟨here, short, rfl, found⟩
    obtain ⟨entry, found⟩ := Option.isSome_iff_exists.mp found
    simp only [follow, here, if_neg (Nat.not_lt.mpr short), found]

/-! ## Resolving and placing -/

/-- **What a path leads to.** -/
theorem resolve_eq_ok_iff :
    disk.resolve path = .ok (location, entry) ↔
      objection? path = none ∧ disk.follow (disk.origin path) path.steps = .ok location ∧
        disk.find? location = some entry ∧ (path.endsInSlash = true → entry = .directory) := by
  constructor
  · intro done
    rw [resolve] at done
    split at done
    · cases done
    · next fine =>
      split at done
      · cases done
      · next found followed =>
        split at done
        · cases done
        · next here =>
          split at done
          · cases done
          · next plain =>
            cases done
            exact ⟨fine, followed, here, fun ends => absurd ends plain⟩
        · next here =>
          cases done
          exact ⟨fine, followed, here, fun _ => rfl⟩
  · rintro ⟨fine, followed, here, plain⟩
    cases entry with
    | directory => simp only [resolve, fine, followed, here]
    | file contents =>
      have flat : path.endsInSlash ≠ true := fun ends => Entry.noConfusion (plain ends)
      simp only [resolve, fine, followed, here, if_neg flat]

theorem place_eq_ok_iff {step : Option Path.Step} :
    disk.place path = .ok (location, step) ↔
      objection? path = none ∧ disk.follow (disk.origin path) path.steps.dropLast = .ok location ∧
        disk.find? location = some .directory ∧ path.steps.getLast? = step ∧
        ∀ name, step = some (.enter name) → name.length ≤ maxNameLength := by
  constructor
  · intro done
    rw [place] at done
    split at done
    · cases done
    · next fine =>
      split at done
      · cases done
      · next found followed =>
        split at done
        · cases done
        · cases done
        · next here =>
          split at done
          · next name eq =>
            split at done
            · cases done
            · next short =>
              cases done
              refine ⟨fine, followed, here, eq, ?_⟩
              rintro _ ⟨⟩
              exact Nat.le_of_not_lt short
          · next other =>
            cases done
            exact ⟨fine, followed, here, rfl, fun name eq => absurd eq (other name)⟩
  · rintro ⟨fine, followed, here, rfl, short⟩
    simp only [place, fine, followed, here]
    split
    · next name eq => rw [if_neg (Nat.not_lt.mpr (short name eq)), eq]
    · rfl

/-- **Where the entry of a path stands**, or would stand. Only a last step by name leads to an
entry of its own. -/
def seat? (disk : Disk) (path : Path) : Option Location :=
  match disk.place path with
  | .ok (directory, some (.enter name)) => some (directory ++ [name])
  | _ => none

theorem seat?_eq_some_iff : disk.seat? path = some location ↔
    ∃ directory name, disk.place path = .ok (directory, some (.enter name)) ∧
      location = directory ++ [name] := by
  constructor
  · intro named
    rw [seat?] at named
    split at named
    · next directory name placed =>
      cases named
      exact ⟨directory, name, placed, rfl⟩
    · cases named
  · rintro ⟨directory, name, placed, rfl⟩
    rw [seat?, placed]

theorem ne_root_of_seat? (named : disk.seat? path = some location) : location ≠ [] := by
  obtain ⟨directory, name, -, rfl⟩ := seat?_eq_some_iff.mp named
  exact List.append_ne_nil_of_right_ne_nil _ (List.cons_ne_nil _ _)

/-- An entry that stands in its place is what the path leads to. -/
theorem resolve_of_seat? (named : disk.seat? path = some location)
    (here : disk.find? location = some entry)
    (plain : path.endsInSlash = true → entry = .directory) :
    disk.resolve path = .ok (location, entry) := by
  obtain ⟨directory, name, placed, rfl⟩ := seat?_eq_some_iff.mp named
  obtain ⟨fine, followed, above, last, short⟩ := place_eq_ok_iff.mp placed
  refine resolve_eq_ok_iff.mpr ⟨fine, ?_, here, plain⟩
  obtain ⟨way, eq⟩ := List.getLast?_eq_some_iff.mp last
  rw [eq, List.dropLast_concat] at followed
  rw [eq]
  refine follow_append_eq_ok_iff.mpr ⟨directory, followed, follow_enter_eq_ok_iff.mpr ?_⟩
  exact ⟨above, short name rfl, rfl, by rw [here]; rfl⟩

/-! ## Leading parts, and what stands beside -/

theorem objection?_eq_none_iff : objection? path = none ↔
    0 ∉ path ∧ path ≠ [] ∧ path.length < pathLimit := by
  rw [objection?]
  split_ifs with null empty long
  · refine iff_of_false nofun ?_
    rintro ⟨free, -, -⟩
    exact free (by simpa using null)
  · refine iff_of_false nofun ?_
    rintro ⟨-, some_path, -⟩
    exact some_path (by simpa using empty)
  · refine iff_of_false nofun ?_
    rintro ⟨-, -, short⟩
    exact Nat.not_lt.mpr long short
  · exact iff_of_true rfl ⟨by simpa using null, by simpa using empty, Nat.not_le.mp long⟩

theorem objection?_of_leading {leading : Path} (some_leading : leading ≠ [])
    (front : leading <+: path) (fine : objection? path = none) : objection? leading = none := by
  obtain ⟨no_null, -, short⟩ := objection?_eq_none_iff.mp fine
  refine objection?_eq_none_iff.mpr ⟨fun mem => no_null (front.subset mem), some_leading, ?_⟩
  exact Nat.lt_of_le_of_lt front.length_le short

theorem origin_of_leading {leading : Path} (some_leading : leading ≠ []) (front : leading <+: path) :
    disk.origin leading = disk.origin path := by
  obtain ⟨back, rfl⟩ := front
  cases leading with
  | nil => exact absurd rfl some_leading
  | cons first leading => rfl

/-- **The leading parts of a path to a directory** lead to directories. -/
theorem resolve_of_leading {leading : Path} (some_leading : leading ≠ []) (front : leading <+: path)
    (front_steps : leading.steps <+: path.steps)
    (done : disk.resolve path = .ok (location, .directory)) :
    ∃ between, disk.resolve leading = .ok (between, .directory) := by
  obtain ⟨fine, followed, here, -⟩ := resolve_eq_ok_iff.mp done
  obtain ⟨rest, eq⟩ := front_steps
  rw [← eq] at followed
  obtain ⟨between, followed, onward⟩ := follow_append_eq_ok_iff.mp followed
  have directory : disk.find? between = some .directory := by
    cases rest with
    | nil =>
      cases onward
      exact here
    | cons step rest => exact find?_of_follow_cons onward
  rw [← origin_of_leading some_leading front] at followed
  exact ⟨between, resolve_eq_ok_iff.mpr
    ⟨objection?_of_leading some_leading front fine, followed, directory, fun _ => rfl⟩⟩

/-- **A path beside a file** leads to the directory of the file, and that is where its parent
leads. -/
theorem place_beside_iff {directory : Location} {name new : Bytes}
    {place : Location × Option Path.Step}
    (placed : disk.place path = .ok (directory, some (.enter name))) (ordinary : Path.IsName new) :
    disk.place (path.withFileName new) = .ok place ↔
      objection? (path.withFileName new) = none ∧ new.length ≤ maxNameLength ∧
        place = (directory, some (.enter new)) := by
  obtain ⟨-, followed, here, last, -⟩ := place_eq_ok_iff.mp placed
  obtain ⟨parent, count, -, -, eq, eq', -, absolute, -⟩ := Path.exists_beside last ordinary
  have origin_eq : disk.origin (path.withFileName new) = disk.origin path := by
    rw [origin, origin, absolute]
  rw [eq, List.dropLast_concat] at followed
  obtain ⟨between, followed, stays⟩ := follow_append_eq_ok_iff.mp followed
  obtain rfl := follow_stay_eq_ok stays
  obtain ⟨location, step⟩ := place
  rw [place_eq_ok_iff, origin_eq, eq', List.dropLast_concat, List.getLast?_concat, followed]
  constructor
  · rintro ⟨fine, ⟨⟩, -, rfl, short⟩
    exact ⟨fine, short new rfl, rfl⟩
  · rintro ⟨fine, short, ⟨⟩⟩
    refine ⟨fine, rfl, here, rfl, ?_⟩
    rintro _ ⟨⟩
    exact short

/-- **The parent of a file** leads to the directory of the file, unless it is the empty path. -/
theorem resolve_parent {directory : Location} {name : Bytes} {parent : Path}
    (placed : disk.place path = .ok (directory, some (.enter name)))
    (above : path.parent? = some parent) (some_parent : parent ≠ []) :
    disk.resolve parent = .ok (directory, .directory) := by
  obtain ⟨fine, followed, here, last, -⟩ := place_eq_ok_iff.mp placed
  obtain ⟨-, other, count, above', front, -, eq⟩ := Path.exists_parent last
  cases above.symm.trans above'
  rw [eq, List.dropLast_concat] at followed
  obtain ⟨between, followed, stays⟩ := follow_append_eq_ok_iff.mp followed
  obtain rfl := follow_stay_eq_ok stays
  rw [← origin_of_leading some_parent front] at followed
  exact resolve_eq_ok_iff.mpr
    ⟨objection?_of_leading some_parent front fine, followed, here, fun _ => rfl⟩

/-! ## No directory is lost -/

/-- **No directory is lost**, and paths start where they did. -/
structure KeepsDirectories (before after : Disk) : Prop where
  home : after.home = before.home
  kept : ∀ location, before.find? location = some .directory →
    after.find? location = some .directory

theorem KeepsDirectories.refl (disk : Disk) : KeepsDirectories disk disk :=
  ⟨rfl, fun _ found => found⟩

theorem KeepsDirectories.trans {between : Disk} (first : KeepsDirectories before between)
    (second : KeepsDirectories between after) : KeepsDirectories before after :=
  ⟨second.home.trans first.home, fun _ found => second.kept _ (first.kept _ found)⟩

theorem KeepsDirectories.origin_eq (keeps : KeepsDirectories before after) (path : Path) :
    after.origin path = before.origin path := by
  rw [origin, origin, keeps.home]

theorem keepsDirectories_put (entry : Entry)
    (replaceable : disk.find? location = some .directory → entry = .directory)
    (below : location ≠ []) :
    KeepsDirectories disk (disk.put location entry) := by
  refine ⟨rfl, ?_⟩
  intro other found
  by_cases same : other = location
  · subst same
    rw [find?_put_self below, replaceable found]
  · rw [find?_put_of_ne same, found]

theorem keepsDirectories_drop (removable : disk.find? location ≠ some .directory) :
    KeepsDirectories disk (disk.drop location) := by
  refine ⟨rfl, ?_⟩
  intro other found
  have differ : other ≠ location := fun same => removable (same ▸ found)
  rw [find?_drop_of_ne differ, found]

/-- **Steps that lead to a directory** go on leading there. -/
theorem follow_of_keeps (keeps : KeepsDirectories before after) {steps : List Path.Step}
    (done : before.follow location steps = .ok last) (found : before.find? last = some .directory) :
    after.follow location steps = .ok last := by
  induction steps generalizing location with
  | nil => exact done
  | cons step rest ih =>
    have here := find?_of_follow_cons done
    have here' := keeps.kept _ here
    cases step with
    | stay =>
      simp only [follow, here] at done
      simp only [follow, here']
      exact ih done
    | up =>
      simp only [follow, here] at done
      simp only [follow, here']
      exact ih done
    | enter name =>
      simp only [follow, here] at done
      simp only [follow, here']
      split at done
      · cases done
      · next short =>
        split at done
        · cases done
        · -- A step further, or at the end, there is a directory, so the entry is one.
          have directory : before.find? (location ++ [name]) = some .directory := by
            cases rest with
            | nil =>
              cases done
              exact found
            | cons step rest => exact find?_of_follow_cons done
          rw [if_neg short, keeps.kept _ directory]
          exact ih done

theorem place_of_keeps (keeps : KeepsDirectories before after) {step : Option Path.Step}
    (placed : before.place path = .ok (location, step)) :
    after.place path = .ok (location, step) := by
  obtain ⟨fine, followed, here, last, short⟩ := place_eq_ok_iff.mp placed
  rw [← keeps.origin_eq] at followed
  exact place_eq_ok_iff.mpr
    ⟨fine, follow_of_keeps keeps followed here, keeps.kept _ here, last, short⟩

theorem seat?_of_keeps (keeps : KeepsDirectories before after)
    (named : before.seat? path = some location) : after.seat? path = some location := by
  obtain ⟨directory, name, placed, rfl⟩ := seat?_eq_some_iff.mp named
  exact seat?_eq_some_iff.mpr ⟨directory, name, place_of_keeps keeps placed, rfl⟩

theorem resolve_of_keeps (keeps : KeepsDirectories before after)
    (done : before.resolve path = .ok (location, .directory)) :
    after.resolve path = .ok (location, .directory) := by
  obtain ⟨fine, followed, here, -⟩ := resolve_eq_ok_iff.mp done
  rw [← keeps.origin_eq] at followed
  exact resolve_eq_ok_iff.mpr
    ⟨fine, follow_of_keeps keeps followed here, keeps.kept _ here, fun _ => rfl⟩

/-! ## Calls -/

theorem readFile_eq_ok_iff : disk.readFile path = .ok contents ↔
    ∃ location, disk.resolve path = .ok (location, .file contents) := by
  rw [readFile]
  split
  · next fault failed => simp [failed]
  · next location found => simp [found]
  · next location other found => simp [found]

theorem isDirectory_of_resolve (found : disk.resolve path = .ok (location, .directory)) :
    disk.isDirectory path = true := by
  rw [isDirectory, found]

/-- **A directory is made** in a place that is free. -/
theorem makeDirectory_eq_ok_iff : disk.makeDirectory path = .ok after ↔
    ∃ location, disk.seat? path = some location ∧ disk.find? location = none ∧
      after = disk.put location .directory := by
  constructor
  · intro done
    rw [makeDirectory] at done
    split at done
    · cases done
    · next parent name placed =>
      split at done
      · cases done
      · next nothing =>
        cases done
        exact ⟨_, seat?_eq_some_iff.mpr ⟨parent, name, placed, rfl⟩, by simpa using nothing, rfl⟩
    · cases done
  · rintro ⟨location, named, nothing, rfl⟩
    obtain ⟨parent, name, placed, rfl⟩ := seat?_eq_some_iff.mp named
    simp only [makeDirectory, placed, nothing, Option.isSome_none]
    rfl

/-- **A file is written** in a place where no directory stands. -/
theorem writeFile_eq_ok_iff : disk.writeFile path contents = .ok after ↔
    ∃ location, disk.seat? path = some location ∧ path.endsInSlash = false ∧
      disk.find? location ≠ some .directory ∧ after = disk.put location (.file contents) := by
  constructor
  · intro done
    rw [writeFile] at done
    split at done
    · cases done
    · next parent name placed =>
      split at done
      · cases done
      · next free =>
        rw [not_or, Bool.not_eq_true] at free
        cases done
        exact ⟨_, seat?_eq_some_iff.mpr ⟨parent, name, placed, rfl⟩, free.1, free.2, rfl⟩
    · cases done
  · rintro ⟨location, named, plain, free, rfl⟩
    obtain ⟨parent, name, placed, rfl⟩ := seat?_eq_some_iff.mp named
    simp only [writeFile, placed, plain, free]
    rfl

/-- **A file is moved** to a place where no directory stands. -/
theorem renameFile_eq_ok_iff : disk.renameFile source target = .ok after ↔
    ∃ old new contents, disk.seat? source = some old ∧ disk.seat? target = some new ∧
      disk.find? old = some (.file contents) ∧ source.endsInSlash = false ∧
      target.endsInSlash = false ∧ disk.find? new ≠ some .directory ∧
      after = (disk.drop old).put new (.file contents) := by
  constructor
  · intro done
    rw [renameFile] at done
    split at done
    · cases done
    · cases done
    · next sourceParent sourceName targetParent targetName placed placed' =>
      split at done
      · cases done
      · cases done
      · next contents found =>
        split at done
        · cases done
        · next plain =>
          rw [not_or, Bool.not_eq_true, Bool.not_eq_true] at plain
          split at done
          · cases done
          · next free =>
            cases done
            exact ⟨_, _, contents, seat?_eq_some_iff.mpr ⟨_, _, placed, rfl⟩,
              seat?_eq_some_iff.mpr ⟨_, _, placed', rfl⟩, found, plain.1, plain.2, free, rfl⟩
    · cases done
  · rintro ⟨old, new, contents, named, named', found, plain, plain', free, rfl⟩
    obtain ⟨sourceParent, sourceName, placed, rfl⟩ := seat?_eq_some_iff.mp named
    obtain ⟨targetParent, targetName, placed', rfl⟩ := seat?_eq_some_iff.mp named'
    simp only [renameFile, placed, placed', found, plain, plain', free]
    rfl

/-- **A file is removed** from the place where it stands. -/
theorem removeFile_eq_ok_iff : disk.removeFile path = .ok after ↔
    ∃ location contents, disk.seat? path = some location ∧
      disk.find? location = some (.file contents) ∧ path.endsInSlash = false ∧
      after = disk.drop location := by
  constructor
  · intro done
    rw [removeFile] at done
    split at done
    · cases done
    · next parent name placed =>
      split at done
      · cases done
      · cases done
      · next contents found =>
        split at done
        · cases done
        · next plain =>
          cases done
          exact ⟨_, contents, seat?_eq_some_iff.mpr ⟨parent, name, placed, rfl⟩, found,
            by simpa using plain, rfl⟩
    · cases done
  · rintro ⟨location, contents, named, found, plain, rfl⟩
    obtain ⟨parent, name, placed, rfl⟩ := seat?_eq_some_iff.mp named
    simp only [removeFile, placed, found, plain]
    rfl

/-! ## No call loses a directory -/

theorem keeps_of_makeDirectory (made : disk.makeDirectory path = .ok after) :
    KeepsDirectories disk after := by
  obtain ⟨location, named, -, rfl⟩ := makeDirectory_eq_ok_iff.mp made
  exact keepsDirectories_put _ (fun _ => rfl) (ne_root_of_seat? named)

theorem keeps_of_writeFile (written : disk.writeFile path contents = .ok after) :
    KeepsDirectories disk after := by
  obtain ⟨location, named, -, free, rfl⟩ := writeFile_eq_ok_iff.mp written
  exact keepsDirectories_put _ (fun found => absurd found free) (ne_root_of_seat? named)

theorem keeps_of_renameFile (moved : disk.renameFile source target = .ok after) :
    KeepsDirectories disk after := by
  obtain ⟨old, new, contents, named, named', found, -, -, free, rfl⟩ :=
    renameFile_eq_ok_iff.mp moved
  have dropped : KeepsDirectories disk (disk.drop old) := keepsDirectories_drop (by simp [found])
  refine dropped.trans (keepsDirectories_put _ ?_ (ne_root_of_seat? named'))
  intro there
  by_cases same : new = old
  · rw [same, find?_drop_self (ne_root_of_seat? named)] at there
    cases there
  · rw [find?_drop_of_ne same] at there
    exact absurd there free

theorem keeps_of_removeFile (removed : disk.removeFile path = .ok after) :
    KeepsDirectories disk after := by
  obtain ⟨location, contents, -, found, -, rfl⟩ := removeFile_eq_ok_iff.mp removed
  exact keepsDirectories_drop (by simp [found])

end MarkedRegions.Disk
