import MarkedRegions.Proofs.Disk.Overwriting
import MarkedRegions.Proofs.Invocation.Looking

/-!
# A run that replaces is all or nothing

A run that is asked to replace either does everything or nothing. What it comes to is known before
anything is printed or written. If a step fails, the run fails for the reason of the first step that
does, nothing is printed, and the tree is as it was. If all steps succeed, what is printed, or what
the file holds afterwards, is what the library makes of the same pairs in one call; no other entry
is changed.

Writing the file cannot fail then, for the file has just been read. What the operating system may
still object to are names and paths that are too long, and an entry in the place of the temporary
file.

## Main definitions

* `Assignment.Loads`: the pair that an assignment stands for, on a tree

## Main results

* `Assignment.exists_replaceAll`: the steps of a replacement are those of one call
* `Invocation.run_replace`: what a run prints, writes and leaves alone
-/

namespace MarkedRegions

open Desk

/-! ## One call for all assignments -/

/-- **The pair that an assignment stands for**, on a tree. -/
structure Assignment.Loads (disk : Disk) (assignment : Assignment) (pair : Bytes × Bytes) :
    Prop where
  marker : pair.1 = assignment.marker
  contents : assignment.content.onDisk disk = .ok pair.2

/-- **The steps of a replacement are those of one call** of the library. -/
theorem Assignment.exists_replaceAll {disk : Disk} {style : MarkerStyle}
    {assignments : List Assignment} {buffer edited : Buffer} (applied : Nat)
    (succeeded : assignments.foldlM (step disk style) buffer = .ok edited) :
    ∃ pairs, List.Forall₂ (Loads disk) assignments pairs ∧
      Buffer.replaceAll.go (fun _ => .generous) style applied buffer pairs =
        (edited, .ok (applied + pairs.length)) := by
  induction assignments generalizing buffer applied with
  | nil =>
    cases succeeded
    exact ⟨[], .nil, rfl⟩
  | cons assignment assignments ih =>
    rw [List.foldlM_cons, step] at succeeded
    cases loaded : assignment.content.onDisk disk with
    | error e =>
      rw [loaded] at succeeded
      cases succeeded
    | ok contents =>
      cases replaced : buffer.replace .generous style assignment.marker contents with
      | error e =>
        simp only [loaded, bind, Except.bind, replaced] at succeeded
        cases succeeded
      | ok next =>
        simp only [loaded, bind, Except.bind, replaced] at succeeded
        obtain ⟨pairs, loads, all⟩ := ih (applied + 1) succeeded
        refine ⟨(assignment.marker, contents) :: pairs, .cons ⟨rfl, loaded⟩ loads, ?_⟩
        rw [Buffer.replaceAll.go]
        simp only [replaced]
        rw [all, List.length_cons, Nat.add_assoc, Nat.add_comm 1]

/-! ## The task -/

namespace Task

variable {desk : Desk} {style : MarkerStyle} {file : Path} {assignments : List Assignment}
  {e : TaskError} {edited : Buffer}

theorem runReplace_eq (write : Bool) :
    (runReplace style file assignments write : Action TaskError Outcome) =
      (((Files.read file).adapt TaskError.file >>= fun contents =>
        Assignment.applyAll style assignments (.ofBytes contents) : Action TaskError Buffer) >>=
      fun edited =>
        if write then do
          (Files.write file edited.bytes).adapt TaskError.file
          return .updated assignments.length file
        else
          return .printed edited.bytes) := by
  rw [runReplace, bind_assoc]

/-- A step that fails ends the task, on a tree that is as it was. -/
theorem run_replace_of_error (write : Bool)
    (failed : Task.edited desk.disk style file assignments = .error e) (journal : List Event) :
    ∃ after, (run style (.replace file assignments write) : Action TaskError Outcome).run
      { desk with journal } = (.error e, after) ∧ after.disk = desk.disk := by
  obtain ⟨journal', done⟩ := looks_edited style file assignments { desk with journal }
  simp only [failed] at done
  rw [run, runReplace_eq]
  exact ⟨_, run_bind_of_error done, rfl⟩

theorem run_replace_printed (succeeded : Task.edited desk.disk style file assignments = .ok edited)
    (journal : List Event) :
    ∃ after, (run style (.replace file assignments false) : Action TaskError Outcome).run
      { desk with journal } = (.ok (.printed edited.bytes), after) ∧ after.disk = desk.disk := by
  obtain ⟨journal', done⟩ := looks_edited style file assignments { desk with journal }
  simp only [succeeded] at done
  rw [run, runReplace_eq]
  exact ⟨_, run_bind_of_ok done, rfl⟩

/-- A task that writes leaves what the write leaves, whatever has been reported before. -/
theorem run_replace_updated {Holds : Desk → Prop}
    (succeeded : Task.edited desk.disk style file assignments = .ok edited)
    (written : ∀ journal, ∃ after, (Files.write file edited.bytes : Action FileError Unit).run
      { desk with journal } = (.ok (), after) ∧ Holds after) (journal : List Event) :
    ∃ after, (run style (.replace file assignments true) : Action TaskError Outcome).run
      { desk with journal } = (.ok (.updated assignments.length file), after) ∧ Holds after := by
  obtain ⟨journal', done⟩ := looks_edited style file assignments { desk with journal }
  simp only [succeeded] at done
  obtain ⟨after, write, held⟩ := written journal'
  have adapted : ((Files.write file edited.bytes).adapt TaskError.file : Action TaskError Unit).run
      { desk with journal := journal' } = (.ok (), after) := by
    rw [run_adapt, write]
    rfl
  refine ⟨after, ?_, held⟩
  rw [run, runReplace_eq]
  exact (run_bind_of_ok done).trans (run_bind_of_ok adapted)

theorem exists_readFile_of_edited {disk : Disk}
    (succeeded : Task.edited disk style file assignments = .ok edited) :
    ∃ contents, disk.readFile file = .ok contents ∧
      assignments.foldlM (Assignment.step disk style) (.ofBytes contents) = .ok edited := by
  rw [Task.edited, Content.onDisk] at succeeded
  cases read : disk.readFile file with
  | error fault =>
    rw [read] at succeeded
    cases succeeded
  | ok contents =>
    rw [read] at succeeded
    exact ⟨contents, rfl, succeeded⟩

end Task

/-! ## The run -/

namespace Invocation

variable {invocation : Invocation} {desk : Desk} {style : MarkerStyle} {file : Path}
  {assignments : List Assignment} {write : Bool}

/-- **A run settles its style and then ends as its task does**, which starts on the same tree. Where
the style is not settled, there is no task. -/
theorem exists_run_eq (invocation : Invocation) (desk : Desk) :
    ∃ journal, (invocation.run : StateM Desk Outcome) desk =
      match MarkerStyle.onDisk desk.disk invocation.lead invocation.settings with
      | .error e => (.failed e, { desk with journal })
      | .ok style =>
        ((invocation.task.run style : Action TaskError Outcome).run { desk with journal }).map
          .ofResult id := by
  obtain ⟨journal, noted⟩ := Task.looks_note ⟨.debug, .program, "Verbose mode enabled", []⟩ desk
  obtain ⟨journal', settled⟩ :=
    MarkerStyle.looks_resolve invocation.lead invocation.settings { desk with journal }
  have ends (work : Action TaskError Outcome) :
      (Outcome.ofResult <$> work.run : StateM Desk Outcome) desk =
        (work.run desk).map .ofResult id := rfl
  refine ⟨journal', (ends _).trans ?_⟩
  rw [run_bind_of_ok noted]
  cases chosen : MarkerStyle.onDisk desk.disk invocation.lead invocation.settings with
  | error e =>
    simp only [chosen] at settled
    rw [run_bind_of_error settled]
    rfl
  | ok style =>
    simp only [chosen] at settled
    rw [run_bind_of_ok settled]

/-- What holds of the desk when the task is done holds when the run is. -/
theorem exists_run {result : Except TaskError Outcome} {Holds : Desk → Prop}
    (resolved : ((MarkerStyle.resolve invocation.lead invocation.settings :
      Action TaskError MarkerStyle).run desk).1 = .ok style)
    (done : ∀ journal, ∃ after, (invocation.task.run style : Action TaskError Outcome).run
      { desk with journal } = (result, after) ∧ Holds after) :
    ∃ after, (invocation.run : StateM Desk Outcome) desk = (.ofResult result, after) ∧
      Holds after := by
  obtain ⟨_, settled⟩ := MarkerStyle.looks_resolve invocation.lead invocation.settings desk
  rw [settled] at resolved
  dsimp only at resolved
  obtain ⟨journal, ran⟩ := exists_run_eq invocation desk
  obtain ⟨after, ended, held⟩ := done journal
  rw [resolved] at ran
  dsimp only at ran
  rw [ended] at ran
  exact ⟨after, ran, held⟩

/-- **A run that replaces is all or nothing.** If a step fails, the first that does decides, and
nothing is printed or changed. Otherwise what is printed or written is what one call of the library
makes of the same pairs. -/
theorem run_replace (asked : invocation.task = .replace file assignments write)
    (resolved : ((MarkerStyle.resolve invocation.lead invocation.settings :
      Action TaskError MarkerStyle).run desk).1 = .ok style)
    (tree : desk.disk.IsTree)
    (free : ∀ location, location.getLast? = some (Files.temporaryName file desk.processId) →
      desk.disk.find? location = none)
    (short : (Files.temporaryName file desk.processId).length ≤ Disk.maxNameLength)
    (short_path : (Files.temporaryPath file desk.processId).length < Disk.pathLimit) :
    ∃ outcome after, (invocation.run : StateM Desk Outcome) desk = (outcome, after) ∧
      match Task.edited desk.disk style file assignments with
      | .error e =>
        outcome = .failed e ∧ outcome.exitCode = 1 ∧ outcome.output = [] ∧ after.disk = desk.disk
      | .ok edited =>
        outcome.exitCode = 0 ∧ ∃ location contents pairs,
          desk.disk.resolve file = .ok (location, .file contents) ∧
          List.Forall₂ (Assignment.Loads desk.disk) assignments pairs ∧
          (Buffer.ofBytes contents).replaceAll (fun _ => .generous) style pairs =
            (edited, .ok pairs.length) ∧
          if write then
            outcome.output = [] ∧
              after.disk.resolve file = .ok (location, .file edited.bytes) ∧
              ∀ other, other ≠ location → after.disk.find? other = desk.disk.find? other
          else
            outcome.output = edited.bytes ∧ after.disk = desk.disk := by
  obtain ⟨verbose, lead, settings, task⟩ := invocation
  cases asked
  cases came : Task.edited desk.disk style file assignments with
  | error e =>
    obtain ⟨after, done, same⟩ := exists_run resolved (Task.run_replace_of_error write came)
    exact ⟨_, after, done, rfl, rfl, rfl, same⟩
  | ok edited =>
    obtain ⟨contents, reads, all⟩ := Task.exists_readFile_of_edited came
    obtain ⟨pairs, loads, replaced⟩ := Assignment.exists_replaceAll 0 all
    rw [Nat.zero_add] at replaced
    cases write with
    | false =>
      obtain ⟨location, resolves⟩ := Disk.readFile_eq_ok_iff.mp reads
      obtain ⟨after, done, same⟩ := exists_run resolved (Task.run_replace_printed came)
      exact ⟨_, after, done, rfl, location, contents, pairs, resolves, loads, replaced, rfl, same⟩
    | true =>
      obtain ⟨location, named, found, plain⟩ := Disk.exists_seat_of_readFile tree reads
      have resolves := Disk.resolve_of_seat? named found (by simp [plain])
      have written : ∀ journal, ∃ after,
          (Files.write file edited.bytes : Action FileError Unit).run { desk with journal } =
            (.ok (), after) ∧
          after.disk.resolve file = .ok (location, .file edited.bytes) ∧
            ∀ other, other ≠ location → after.disk.find? other = desk.disk.find? other := by
        intro journal
        obtain ⟨there, after, done, resolves', reads_after, elsewhere⟩ := Files.write_of_readFile
          { desk with journal } tree reads free short short_path edited.bytes
        cases resolves'.symm.trans resolves
        exact ⟨after, done, reads_after, elsewhere⟩
      obtain ⟨after, done, reads_after, elsewhere⟩ :=
        exists_run resolved (Task.run_replace_updated came written)
      exact ⟨_, after, done, rfl, location, contents, pairs, resolves, loads, replaced, rfl,
        reads_after, elsewhere⟩

/-- A region whose new contents are the file itself: they are read from the tree as it was, although
another region has been edited before. -/
theorem run_replace_from_itself :
    ∃ outcome after, (Invocation.run ⟨false, some [0x23], none, .replace [0x66]
        [⟨[0x75], .inline [0x78]⟩, ⟨[0x74], .file [0x66]⟩] true⟩ : StateM Desk Outcome)
      ⟨⟨[([[0x66]], .file [0x23, 0x7b, 0x74, 0x0a, 0x23, 0x7d, 0x74, 0x0a, 0x23, 0x7b, 0x75, 0x0a,
        0x23, 0x7d, 0x75])], []⟩, [], 7⟩ = (outcome, after) ∧
      outcome.exitCode = 0 ∧ outcome.output = [] ∧
      after.disk.readFile [0x66] = .ok [0x23, 0x7b, 0x74, 0x0a, 0x23, 0x7b, 0x74, 0x0a, 0x23, 0x7d,
        0x74, 0x0a, 0x23, 0x7b, 0x75, 0x0a, 0x23, 0x7d, 0x75, 0x0a, 0x23, 0x7d, 0x74, 0x0a, 0x23,
        0x7b, 0x75, 0x0a, 0x78, 0x0a, 0x23, 0x7d, 0x75] := by
  -- The temporary file is `.f.7.tmp`.
  have name : Files.temporaryName [0x66] 7 = [0x2e, 0x66, 0x2e, 0x37, 0x2e, 0x74, 0x6d, 0x70] := by
    decide +kernel
  have path : Files.temporaryPath [0x66] 7 = [0x2e, 0x66, 0x2e, 0x37, 0x2e, 0x74, 0x6d, 0x70] := by
    decide +kernel
  have edited : Task.edited ⟨[([[0x66]], .file [0x23, 0x7b, 0x74, 0x0a, 0x23, 0x7d, 0x74, 0x0a,
      0x23, 0x7b, 0x75, 0x0a, 0x23, 0x7d, 0x75])], []⟩ ⟨[0x23]⟩ [0x66]
      [⟨[0x75], .inline [0x78]⟩, ⟨[0x74], .file [0x66]⟩] =
        .ok ⟨[0x23, 0x7b, 0x74, 0x0a, 0x23, 0x7b, 0x74, 0x0a, 0x23, 0x7d, 0x74, 0x0a, 0x23, 0x7b,
          0x75, 0x0a, 0x23, 0x7d, 0x75, 0x0a, 0x23, 0x7d, 0x74, 0x0a, 0x23, 0x7b, 0x75, 0x0a, 0x78,
          0x0a, 0x23, 0x7d, 0x75], 33⟩ := rfl
  have free : ∀ contents location, location.getLast? = some (Files.temporaryName [0x66] 7) →
      (Disk.mk [([[0x66]], .file contents)] []).find? location = none := by
    intro contents location last
    rw [name] at last
    refine Disk.find?_single_of_ne ?_ ?_
    · rintro rfl
      cases last
    · rintro rfl
      exact absurd last (by decide)
  obtain ⟨outcome, after, done, ends⟩ := @run_replace
    ⟨false, some [0x23], none, .replace [0x66] [⟨[0x75], .inline [0x78]⟩, ⟨[0x74], .file [0x66]⟩]
      true⟩
    ⟨⟨[([[0x66]], .file [0x23, 0x7b, 0x74, 0x0a, 0x23, 0x7d, 0x74, 0x0a, 0x23, 0x7b, 0x75, 0x0a,
      0x23, 0x7d, 0x75])], []⟩, [], 7⟩
    ⟨[0x23]⟩ [0x66] _ true rfl rfl Disk.isTree_single (free _) (by rw [name]; decide)
    (by rw [path]; decide)
  simp only [edited] at ends
  obtain ⟨code, location, contents, pairs, -, -, -, output, resolved, -⟩ := ends
  exact ⟨outcome, after, done, code, output, Disk.readFile_eq_ok_iff.mpr ⟨location, resolved⟩⟩

end Invocation

end MarkedRegions
