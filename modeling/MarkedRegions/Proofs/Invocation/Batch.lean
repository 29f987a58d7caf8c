import MarkedRegions.Proofs.Edit.Capacity
import MarkedRegions.Proofs.Invocation.Replacing

/-!
# One batch is two runs

Assignments that are given to one run can be given to two runs, one after the other. The first of
them goes through the disk where the batch goes on in memory: it writes the file, and the second
reads it back into a buffer of its own. That makes no difference, because what is written is what is
read, because nothing else that the second run reads has been changed, and because a new buffer
differs from the one it replaces only in the room it has to spare.

What a run that writes does is a function of the tree alone, so the law is one of functions: what a
batch leaves of a tree is what the second run leaves of what the first leaves.

## Main definitions

* `Task.written`: what a run that writes leaves of a tree

## Main results

* `Assignment.foldlM_step_cases`: assignments do the same in a buffer with less room
* `Task.written_append`: what a batch leaves of a tree
* `Invocation.run_replace_append`: a batch succeeds as two runs do, and leaves what they leave
-/

namespace MarkedRegions

open Desk
open Buffer (Roomier)

/-! ## What is read of other files -/

theorem Content.onDisk_congr {disk disk' : Disk} {content : Content}
    (same : ∀ path, content = .file path → disk'.readFile path = disk.readFile path) :
    content.onDisk disk' = content.onDisk disk := by
  cases content with
  | inline contents => rfl
  | file path => rw [onDisk, onDisk, same path rfl]

theorem MarkerStyle.onDisk_congr {disk disk' : Disk} {settings : Option Path}
    (same : ∀ path, settings = some path → disk'.readFile path = disk.readFile path)
    (lead : Option Bytes) : onDisk disk' lead settings = onDisk disk lead settings := by
  cases settings with
  | none => rfl
  | some path =>
    simp only [onDisk, Settings.onDisk, Files.textOnDisk, same path rfl]

/-! ## The same assignments in another buffer -/

/-- **Assignments do the same in a buffer with less room**, unless the other is refused more, and on
a tree where their contents are the same. -/
theorem Assignment.foldlM_step_cases {disk disk' : Disk} {assignments : List Assignment}
    {tight roomy : Buffer}
    (same : ∀ assignment ∈ assignments,
      assignment.content.onDisk disk' = assignment.content.onDisk disk)
    (roomier : Roomier tight roomy) (style : MarkerStyle) :
    (∃ requested, assignments.foldlM (step disk style) roomy =
      .error (.edit (.allocation requested))) ∨
    (∃ e, assignments.foldlM (step disk' style) tight = .error e ∧
      assignments.foldlM (step disk style) roomy = .error e) ∨
    ∃ tight' roomy', assignments.foldlM (step disk' style) tight = .ok tight' ∧
      assignments.foldlM (step disk style) roomy = .ok roomy' ∧ Roomier tight' roomy' := by
  induction assignments generalizing tight roomy with
  | nil => exact .inr (.inr ⟨tight, roomy, rfl, rfl, roomier⟩)
  | cons assignment assignments ih =>
    have first := same assignment List.mem_cons_self
    have rest := fun other inside => same other (List.mem_cons_of_mem assignment inside)
    simp only [List.foldlM_cons, step, first]
    cases assignment.content.onDisk disk with
    | error e => exact .inr (.inl ⟨e, rfl, rfl⟩)
    | ok contents =>
      simp only [bind, Except.bind]
      rcases roomier.replace_cases style assignment.marker contents with
        ⟨requested, refused⟩ | ⟨e, failed, failed'⟩ | ⟨tight', roomy', done, done', roomier'⟩
      · rw [refused]
        exact .inl ⟨requested, rfl⟩
      · rw [failed, failed']
        exact .inr (.inl ⟨.edit e, rfl, rfl⟩)
      · rw [done, done']
        exact ih rest roomier'

/-! ## What a run leaves of a tree -/

/-- **What a run that writes leaves of a tree.** -/
def Task.written (lead : Option Bytes) (settings : Option Path) (file : Path)
    (assignments : List Assignment) (disk : Disk) : Except TaskError Disk := do
  let style ← MarkerStyle.onDisk disk lead settings
  let edited ← Task.edited disk style file assignments
  return disk.overwrite file edited.bytes

variable {lead : Option Bytes} {settings : Option Path} {file : Path}
  {assignments first second : List Assignment} {disk : Disk}

namespace Task

theorem written_of_style {style : MarkerStyle}
    (chosen : MarkerStyle.onDisk disk lead settings = .ok style) :
    written lead settings file assignments disk =
      (Task.edited disk style file assignments).map fun edited =>
        disk.overwrite file edited.bytes := by
  rw [written, chosen]
  rfl

theorem edited_of_readFile {contents : Bytes} (reads : disk.readFile file = .ok contents)
    (style : MarkerStyle) (assignments : List Assignment) :
    Task.edited disk style file assignments =
      assignments.foldlM (Assignment.step disk style) (.ofBytes contents) := by
  rw [Task.edited, Content.onDisk, reads]
  rfl

/-- A batch goes on in memory where its first assignments have ended. -/
theorem edited_append (disk : Disk) (style : MarkerStyle) (file : Path)
    (first second : List Assignment) :
    Task.edited disk style file (first ++ second) =
      Task.edited disk style file first >>= second.foldlM (Assignment.step disk style) := by
  simp only [Task.edited, List.foldlM_append, bind_assoc]

/-- A file that fits a block is edited in a buffer that does. -/
theorem fits_of_edited {style : MarkerStyle} {edited : Buffer}
    (small : ∀ contents, disk.readFile file = .ok contents → contents.length ≤ Size.maxBlock)
    (succeeded : Task.edited disk style file assignments = .ok edited) : edited.Fits := by
  obtain ⟨contents, reads, all⟩ := exists_readFile_of_edited succeeded
  have same : ∀ assignment ∈ assignments,
      assignment.content.onDisk disk = assignment.content.onDisk disk := fun _ _ => rfl
  have fits := Buffer.fits_ofBytes (small contents reads)
  rcases Assignment.foldlM_step_cases same (Buffer.roomier_ofBytes fits) style with
    ⟨requested, refused⟩ | ⟨e, -, failed⟩ | ⟨tight, roomy, -, done, roomier⟩
  · cases refused.symm.trans all
  · cases failed.symm.trans all
  · obtain rfl := Except.ok.inj (done.symm.trans all)
    exact roomier.fits

/-- **What the later assignments come to** in the batch, and in a run of their own that reads what
the earlier have written. -/
theorem edited_append_cases {style : MarkerStyle} {middle : Buffer} (fits : middle.Fits)
    (earlier : Task.edited disk style file first = .ok middle)
    (apart : ∀ assignment ∈ second, ∀ path, assignment.content = .file path →
      disk.Apart path file) :
    (∃ requested, Task.edited disk style file (first ++ second) =
      .error (.edit (.allocation requested))) ∨
    (∃ e, Task.edited (disk.overwrite file middle.bytes) style file second = .error e ∧
      Task.edited disk style file (first ++ second) = .error e) ∨
    ∃ last last', Task.edited (disk.overwrite file middle.bytes) style file second = .ok last ∧
      Task.edited disk style file (first ++ second) = .ok last' ∧ last'.bytes = last.bytes := by
  obtain ⟨contents, reads, -⟩ := exists_readFile_of_edited earlier
  have same : ∀ assignment ∈ second,
      assignment.content.onDisk (disk.overwrite file middle.bytes) =
        assignment.content.onDisk disk := by
    intro assignment inside
    apply Content.onDisk_congr
    intro path given
    exact Disk.readFile_overwrite_of_apart reads (apart assignment inside path given) _
  have goes_on : Task.edited disk style file (first ++ second) =
      second.foldlM (Assignment.step disk style) middle := by
    rw [edited_append, earlier]
    rfl
  rw [goes_on, edited_of_readFile (Disk.readFile_overwrite_self reads middle.bytes)]
  rcases Assignment.foldlM_step_cases same (Buffer.roomier_ofBytes fits) style with
    refused | failed | ⟨tight, roomy, done, done', roomier⟩
  · exact .inl refused
  · exact .inr (.inl failed)
  · exact .inr (.inr ⟨tight, roomy, done, done', roomier.bytes⟩)

/-- **What a batch leaves of a tree** is what the second run leaves of what the first leaves, if the
file is no larger than a block and the second run reads nothing else that the first has written; or
the batch is refused its room. -/
theorem written_append (lead : Option Bytes) (first : List Assignment)
    (small : ∀ contents, disk.readFile file = .ok contents → contents.length ≤ Size.maxBlock)
    (settings_apart : ∀ path, settings = some path → disk.Apart path file)
    (contents_apart : ∀ assignment ∈ second, ∀ path, assignment.content = .file path →
      disk.Apart path file) :
    (∃ requested, written lead settings file (first ++ second) disk =
      .error (.edit (.allocation requested))) ∨
    written lead settings file (first ++ second) disk =
      written lead settings file first disk >>= written lead settings file second := by
  cases chosen : MarkerStyle.onDisk disk lead settings with
  | error e =>
    right
    rw [written, written, chosen]
    rfl
  | ok style =>
    rw [written_of_style chosen, written_of_style chosen]
    cases earlier : Task.edited disk style file first with
    | error e =>
      right
      rw [edited_append, earlier]
      rfl
    | ok middle =>
      obtain ⟨contents, reads, -⟩ := exists_readFile_of_edited earlier
      have chosen' : MarkerStyle.onDisk (disk.overwrite file middle.bytes) lead settings =
          .ok style := by
        rw [← chosen]
        apply MarkerStyle.onDisk_congr
        intro path given
        exact Disk.readFile_overwrite_of_apart reads (settings_apart path given) _
      -- The second run starts where the first has ended, and its write is the one that counts.
      have later : written lead settings file second (disk.overwrite file middle.bytes) =
          (Task.edited (disk.overwrite file middle.bytes) style file second).map fun edited =>
            disk.overwrite file edited.bytes := by
        simp only [written_of_style chosen', Disk.overwrite_overwrite reads]
      change _ ∨ _ = written lead settings file second (disk.overwrite file middle.bytes)
      rw [later]
      rcases edited_append_cases (fits_of_edited small earlier) earlier contents_apart with
        ⟨requested, refused⟩ | ⟨e, failed, failed'⟩ | ⟨last, last', done, done', same⟩
      · left
        exact ⟨requested, by rw [refused]; rfl⟩
      · right
        rw [failed, failed']
      · right
        rw [done, done', Except.map, Except.map, same]

/-- What is left of a tree is the tree with other contents of the file. -/
theorem exists_overwrite_of_written {disk' : Disk}
    (left : written lead settings file assignments disk = .ok disk') :
    ∃ old contents, disk.readFile file = .ok old ∧ disk' = disk.overwrite file contents := by
  cases chosen : MarkerStyle.onDisk disk lead settings with
  | error e =>
    rw [written, chosen] at left
    cases left
  | ok style =>
    rw [written_of_style chosen] at left
    cases came : Task.edited disk style file assignments with
    | error e =>
      rw [came] at left
      cases left
    | ok edited =>
      rw [came] at left
      obtain ⟨old, reads, -⟩ := exists_readFile_of_edited came
      exact ⟨old, edited.bytes, reads, (Except.ok.inj left).symm⟩

end Task

/-! ## The runs -/

namespace Invocation

variable {verbose : Bool} {desk : Desk}

/-- **A run that writes** leaves what can be computed of its tree, or fails as the computation does and
changes nothing, if nothing is in the way of the write. -/
theorem exists_run_written (invocation : Invocation) (desk : Desk) (tree : desk.disk.IsTree)
    (unhindered : Files.Unhindered desk.disk file desk.processId)
    (asked : invocation.task = .replace file assignments true) :
    ∃ outcome after, (invocation.run : StateM Desk Outcome) desk = (outcome, after) ∧
      match Task.written invocation.lead invocation.settings file assignments desk.disk with
      | .error e => outcome = .failed e ∧ after.disk = desk.disk
      | .ok disk => outcome = .updated assignments.length file ∧ after.disk = disk := by
  cases chosen : MarkerStyle.onDisk desk.disk invocation.lead invocation.settings with
  | error e =>
    obtain ⟨journal, done⟩ := exists_run_eq invocation desk
    rw [chosen] at done
    refine ⟨_, _, done, ?_⟩
    rw [Task.written, chosen]
    exact ⟨rfl, rfl⟩
  | ok style =>
    have resolved : ((MarkerStyle.resolve invocation.lead invocation.settings :
        Action TaskError MarkerStyle).run desk).1 = .ok style := by
      obtain ⟨journal, done⟩ := MarkerStyle.looks_resolve invocation.lead invocation.settings desk
      rw [done]
      exact chosen
    rw [Task.written_of_style chosen]
    cases came : Task.edited desk.disk style file assignments with
    | error e =>
      have fails := Task.run_replace_of_error true came
      rw [← asked] at fails
      obtain ⟨after, done, same⟩ := exists_run resolved fails
      exact ⟨_, after, done, rfl, same⟩
    | ok edited =>
      obtain ⟨contents, reads, -⟩ := Task.exists_readFile_of_edited came
      have wrote : ∀ journal, ∃ after,
          (Files.write file edited.bytes : Action FileError Unit).run { desk with journal } =
            (.ok (), after) ∧ after.disk = desk.disk.overwrite file edited.bytes := by
        intro journal
        obtain ⟨journal', done⟩ :=
          Files.run_write_of_readFile { desk with journal } tree reads unhindered edited.bytes
        exact ⟨_, done, rfl⟩
      have updates := Task.run_replace_updated came wrote
      rw [← asked] at updates
      obtain ⟨after, done, left⟩ := exists_run resolved updates
      exact ⟨_, after, done, rfl, left⟩

/-- **A batch succeeds exactly if two runs do, and leaves what they leave.** The batch and the first run
start on the same tree, the second run on the one that the first has left; each may find a journal
and be a process of its own. It is assumed that the file fits a block, that nothing is in the way of
any of the three writes, that neither the settings file nor any file whose contents the later
assignments ask for is the file itself, and that the batch is not refused its room. If the first run
succeeds and the second fails, then the batch fails as the second does, and changes nothing. -/
theorem run_replace_append {journal journal₁ journal₂ : List Event}
    {processId processId₁ processId₂ : Nat} {outcome outcome₁ outcome₂ : Outcome}
    {after after₁ after₂ : Desk} (tree : disk.IsTree)
    (small : ∀ contents, disk.readFile file = .ok contents → contents.length ≤ Size.maxBlock)
    (unhindered : ∀ id ∈ [processId, processId₁, processId₂], Files.Unhindered disk file id)
    (settings_apart : ∀ path, settings = some path → disk.Apart path file)
    (contents_apart : ∀ assignment ∈ second, ∀ path, assignment.content = .file path →
      disk.Apart path file)
    (batch : (Invocation.run ⟨verbose, lead, settings, .replace file (first ++ second) true⟩ :
      StateM Desk Outcome) ⟨disk, journal, processId⟩ = (outcome, after))
    (earlier : (Invocation.run ⟨verbose, lead, settings, .replace file first true⟩ :
      StateM Desk Outcome) ⟨disk, journal₁, processId₁⟩ = (outcome₁, after₁))
    (later : (Invocation.run ⟨verbose, lead, settings, .replace file second true⟩ :
      StateM Desk Outcome) ⟨after₁.disk, journal₂, processId₂⟩ = (outcome₂, after₂))
    (granted : ∀ requested, outcome ≠ .failed (.edit (.allocation requested))) :
    (outcome.exitCode = 0 ↔ outcome₁.exitCode = 0 ∧ outcome₂.exitCode = 0) ∧
      (outcome.exitCode = 0 → after.disk = after₂.disk) ∧
      (outcome₁.exitCode = 0 → outcome₂.exitCode ≠ 0 →
        outcome = outcome₂ ∧ after.disk = disk) := by
  obtain ⟨_, _, ran, ends⟩ := exists_run_written
    ⟨verbose, lead, settings, .replace file (first ++ second) true⟩ ⟨disk, journal, processId⟩ tree
    (unhindered _ (by simp)) rfl
  obtain ⟨_, _, ran₁, ends₁⟩ := exists_run_written
    ⟨verbose, lead, settings, .replace file first true⟩ ⟨disk, journal₁, processId₁⟩ tree
    (unhindered _ (by simp)) rfl
  cases ran.symm.trans batch
  cases ran₁.symm.trans earlier
  dsimp only at ends ends₁
  have law : Task.written lead settings file (first ++ second) disk =
      Task.written lead settings file first disk >>= Task.written lead settings file second := by
    rcases Task.written_append lead first small settings_apart contents_apart with
      ⟨requested, refused⟩ | law
    · rw [refused] at ends
      exact absurd ends.1 (granted requested)
    · exact law
  cases left₁ : Task.written lead settings file first disk with
  | error e =>
    -- The first assignment that fails in the first run fails in the batch.
    have stops : Task.written lead settings file (first ++ second) disk = .error e := by
      rw [law, left₁]
      rfl
    rw [stops] at ends
    rw [left₁] at ends₁
    obtain ⟨rfl, -⟩ := ends
    obtain ⟨rfl, -⟩ := ends₁
    simp [Outcome.exitCode]
  | ok middle =>
    have goes_on : Task.written lead settings file (first ++ second) disk =
        Task.written lead settings file second middle := by
      rw [law, left₁]
      rfl
    rw [goes_on] at ends
    rw [left₁] at ends₁
    obtain ⟨rfl, same₁⟩ := ends₁
    obtain ⟨old, contents, reads, rfl⟩ := Task.exists_overwrite_of_written left₁
    rw [same₁] at later
    obtain ⟨_, _, ran₂, ends₂⟩ := exists_run_written
      ⟨verbose, lead, settings, .replace file second true⟩
      ⟨disk.overwrite file contents, journal₂, processId₂⟩ (tree.overwrite reads contents)
      ((unhindered _ (by simp)).overwrite reads contents) rfl
    cases ran₂.symm.trans later
    dsimp only at ends₂
    cases left₂ : Task.written lead settings file second (disk.overwrite file contents) with
    | error e =>
      rw [left₂] at ends ends₂
      obtain ⟨rfl, same⟩ := ends
      obtain ⟨rfl, -⟩ := ends₂
      simp [Outcome.exitCode, same]
    | ok last =>
      rw [left₂] at ends ends₂
      obtain ⟨rfl, same⟩ := ends
      obtain ⟨rfl, same₂⟩ := ends₂
      simp [Outcome.exitCode, same, same₂]

/-- Two regions, of which the second gets the contents of another file. -/
theorem run_replace_append_of_two_files :
    ∃ disk outcome after outcome₁ after₁ outcome₂ after₂,
      disk = ⟨[([[0x66]], .file [0x23, 0x7b, 0x74, 0x0a, 0x23, 0x7d, 0x74, 0x0a, 0x23, 0x7b, 0x75,
        0x0a, 0x23, 0x7d, 0x75]), ([[0x67]], .file [0x79])], []⟩ ∧
      (Invocation.run ⟨false, some [0x23], none, .replace [0x66]
        ([⟨[0x74], .inline [0x78]⟩] ++ [⟨[0x75], .file [0x67]⟩]) true⟩ : StateM Desk Outcome)
          ⟨disk, [], 7⟩ = (outcome, after) ∧
      (Invocation.run ⟨false, some [0x23], none, .replace [0x66]
        [⟨[0x74], .inline [0x78]⟩] true⟩ : StateM Desk Outcome) ⟨disk, [], 8⟩ = (outcome₁, after₁) ∧
      (Invocation.run ⟨false, some [0x23], none, .replace [0x66]
        [⟨[0x75], .file [0x67]⟩] true⟩ : StateM Desk Outcome) ⟨after₁.disk, [], 9⟩ =
          (outcome₂, after₂) ∧
      outcome.exitCode = 0 ∧ outcome₁.exitCode = 0 ∧ outcome₂.exitCode = 0 ∧
      after.disk = after₂.disk := by
  obtain ⟨disk, same⟩ : ∃ disk : Disk, disk = ⟨[([[0x66]], .file [0x23, 0x7b, 0x74, 0x0a, 0x23, 0x7d,
    0x74, 0x0a, 0x23, 0x7b, 0x75, 0x0a, 0x23, 0x7d, 0x75]), ([[0x67]], .file [0x79])], []⟩ := ⟨_, rfl⟩
  have tree : disk.IsTree := by
    rw [same]
    exact Disk.isTree_of_top (by decide)
  -- The temporary files are `.f.7.tmp` and the like.
  have unhindered : ∀ id ∈ [7, 8, 9], Files.Unhindered disk [0x66] id := by
    have names : ∀ id ∈ [7, 8, 9],
        (∀ other ∈ [some [0x66], some [0x67]], other ≠ some (Files.temporaryName [0x66] id)) ∧
        (Files.temporaryName [0x66] id).length ≤ Disk.maxNameLength ∧
        (Files.temporaryPath [0x66] id).length < Disk.pathLimit := by decide +kernel
    intro id listed
    obtain ⟨others, short, short_path⟩ := names id listed
    refine ⟨fun _ last => Disk.find?_eq_none_of_getLast? ?_ last, short, short_path⟩
    simpa [same] using others
  have file : disk.resolve [0x66] = .ok ([[0x66]], .file [0x23, 0x7b, 0x74, 0x0a, 0x23, 0x7d, 0x74,
      0x0a, 0x23, 0x7b, 0x75, 0x0a, 0x23, 0x7d, 0x75]) := by
    rw [same]
    rfl
  have other : disk.resolve [0x67] = .ok ([[0x67]], .file [0x79]) := by
    rw [same]
    rfl
  have apart : disk.Apart [0x67] [0x66] := by
    intro location entry leads entry' leads'
    cases leads.symm.trans other
    cases leads'.symm.trans file
  obtain ⟨outcome, after, batch, ends⟩ := exists_run_written
    ⟨false, some [0x23], none, .replace [0x66]
      ([⟨[0x74], .inline [0x78]⟩] ++ [⟨[0x75], .file [0x67]⟩]) true⟩
    ⟨disk, [], 7⟩ tree (unhindered 7 (by decide)) rfl
  obtain ⟨left, written⟩ : ∃ left, Task.written (some [0x23]) none [0x66]
      ([⟨[0x74], .inline [0x78]⟩] ++ [⟨[0x75], .file [0x67]⟩]) disk = .ok left := by
    rw [same]
    exact ⟨_, rfl⟩
  simp only [written] at ends
  obtain ⟨rfl, -⟩ := ends
  obtain ⟨outcome₁, after₁, earlier, -⟩ := exists_run_written
    ⟨false, some [0x23], none, .replace [0x66] [⟨[0x74], .inline [0x78]⟩] true⟩ ⟨disk, [], 8⟩ tree
    (unhindered 8 (by decide)) rfl
  obtain ⟨outcome₂, after₂, later⟩ : ∃ outcome₂ after₂, (Invocation.run ⟨false, some [0x23], none,
      .replace [0x66] [⟨[0x75], .file [0x67]⟩] true⟩ : StateM Desk Outcome) ⟨after₁.disk, [], 9⟩ =
        (outcome₂, after₂) := ⟨_, _, rfl⟩
  have small : ∀ contents, disk.readFile [0x66] = .ok contents →
      contents.length ≤ Size.maxBlock := by
    intro contents reads
    rw [Disk.readFile, file] at reads
    cases reads
    decide
  have settings_apart : ∀ path, (none : Option Path) = some path → disk.Apart path [0x66] := by
    rintro path ⟨⟩
  have contents_apart : ∀ assignment ∈ [Assignment.mk [0x75] (.file [0x67])], ∀ path,
      assignment.content = .file path → disk.Apart path [0x66] := by
    intro assignment inside path given
    rw [List.mem_singleton] at inside
    subst inside
    cases given
    exact apart
  obtain ⟨succeeds, leaves, -⟩ := run_replace_append tree small unhindered settings_apart
    contents_apart batch earlier later (by simp)
  obtain ⟨code₁, code₂⟩ := succeeds.mp rfl
  exact ⟨disk, _, after, outcome₁, after₁, outcome₂, after₂, same, batch, earlier, later, rfl, code₁,
    code₂, leaves rfl⟩

end Invocation

end MarkedRegions
