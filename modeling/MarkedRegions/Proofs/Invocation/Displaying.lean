import MarkedRegions.Proofs.Edit.Parts
import MarkedRegions.Proofs.Edit.Reread
import MarkedRegions.Proofs.Invocation.Batch

/-!
# What a run displays

A run that is asked to display a region prints what stands between its two marker lines, byte for
byte. It does not copy that span: it prints the contents, and behind them a terminator if the region
has one, in the style of the text. That this is the span is due to where a scan ends a region, which
is one terminator before its closing line, or, where there is no line between, right there.

So what a run has written is what the next run displays, as long as none of its lines closes the
region, opens it again or has a defect. Between the two lies the disk: what the first run has worked
out in memory goes through a temporary file and is read back under the name of the file. Which entry
that is, is of no concern. If the first run has succeeded, then the file holds what it has written.

## Main definitions

* `Task.displayed`: what a run that displays comes to, on a tree

## Main results

* `Scan.exists_span`: the contents and their terminator are the span between two lines
* `Task.exists_edited_of_run`: a run that has succeeded has written what it has worked out
* `Invocation.run_display`: what a run displays, and what it displays after another has written
-/

namespace MarkedRegions

open Desk
open Line (cut offset)

/-! ## Between two lines -/

namespace Region

/-- The contents are what is read, where anything is. -/
theorem contents_eq_of_contents? {region : Region} {text own : Bytes}
    (read : region.contents? text = some own) : region.contents text = own := by
  rw [contents?] at read
  split at read
  · exact Option.some.inj read
  · cases read

end Region

namespace Scan

variable {query : Query} {text : Bytes} {region : Region}

/-- The contents of a region and the terminator that it keeps stand side by side in the text. -/
theorem Seams.contents_append_suffix (seams : Seams query text region) :
    region.contents text ++ region.suffix =
      (text.take (region.stop + region.suffix.length)).drop region.start := by
  have within := seams.joins.within
  have inside : region.start ≤ (text.take region.stop).length := by
    rw [List.length_take_of_le within]
    exact seams.joins.ordered
  rw [List.take_add, seams.drop_stop, List.take_left, List.drop_append_of_le_length inside,
    Region.contents]

/-- **The span between two lines**: where a region is found, its contents and the terminator that it
keeps are all that stands behind the terminator of its opening line and in front of its closing
line. -/
theorem exists_span (found : find query text = .ok region) :
    ∃ i j, Encloses query.lead query.marker (cut (.ofText text) text) i j ∧
      region.contents text ++ region.suffix =
        (text.take (offset (.ofText text) (cut (.ofText text) text) j)).drop
          (offset (.ofText text) (cut (.ofText text) text) (i + 1)) := by
  obtain ⟨seams⟩ := exists_seams found
  obtain ⟨i, j, encloses, between⟩ := exists_encloses found
  have start : region.start = offset (.ofText text) (cut (.ofText text) text) (i + 1) := by
    rw [between, Region.between]
  have stop : region.stop + region.suffix.length =
      offset (.ofText text) (cut (.ofText text) text) j := by
    rw [between]
    exact between_stop_add_suffix _ encloses.ordered encloses.lt_length.le
  exact ⟨i, j, encloses, by rw [seams.contents_append_suffix, start, stop]⟩

end Scan

/-! ## The tasks -/

namespace Task

variable {disk : Disk} {desk after : Desk} {style : MarkerStyle} {file : Path}
  {marker old contents : Bytes} {content : Content} {assignments : List Assignment}
  {outcome : Outcome} {edited : Buffer} {region : Region}

/-- **What a run that displays comes to**: the file is read, and the region is found in it. -/
def displayed (disk : Disk) (style : MarkerStyle) (file : Path) (marker : Bytes) :
    Except TaskError Outcome := do
  let contents ← Content.onDisk disk (.file file)
  match Scan.find (style.query marker) contents with
  | .error cause => .error (.edit (.scan cause))
  | .ok region => .ok (.printed (region.contents contents ++ region.suffix))

/-- **Displaying** only looks. -/
theorem looks_display (style : MarkerStyle) (file : Path) (marker : Bytes) :
    Looks (run style (.display file marker) : Action TaskError Outcome)
      (displayed · style file marker) := by
  refine (looks_read_adapt file).bind fun contents => ?_
  cases Scan.find (style.query marker) contents with
  | error cause => exact (looks_report _).bind fun _ => looks_throw _
  | ok region => exact (looks_report _).bind fun _ => looks_pure _

theorem displayed_eq (reads : disk.readFile file = .ok contents)
    (found : Scan.find (style.query marker) contents = .ok region) :
    displayed disk style file marker =
      .ok (.printed (region.contents contents ++ region.suffix)) := by
  rw [displayed, Content.onDisk, reads]
  simp only [Except.mapError, bind, Except.bind, found]

/-- A region that is found is printed. -/
theorem run_display_printed (reads : desk.disk.readFile file = .ok contents)
    (found : Scan.find (style.query marker) contents = .ok region) (journal : List Event) :
    ∃ after, (run style (.display file marker) : Action TaskError Outcome).run
      { desk with journal } = (.ok (.printed (region.contents contents ++ region.suffix)), after) ∧
        after.disk = desk.disk := by
  obtain ⟨journal', done⟩ := looks_display style file marker { desk with journal }
  simp only [displayed_eq reads found] at done
  exact ⟨_, done, rfl⟩

/-- **A task that has succeeded has written** what it has worked out, and that is what is read of the
file afterwards. -/
theorem exists_edited_of_run
    (done : (run style (.replace file assignments true) : Action TaskError Outcome).run desk =
      (.ok outcome, after)) :
    ∃ edited, Task.edited desk.disk style file assignments = .ok edited ∧
      after.disk.readFile file = .ok edited.bytes := by
  rw [run, runReplace_eq] at done
  obtain ⟨edited, between, looked, wrote⟩ := exists_of_run_bind done
  obtain ⟨journal, looks⟩ := looks_edited style file assignments desk
  obtain ⟨came, -⟩ := Prod.mk.inj (looks.symm.trans looked)
  rw [if_pos rfl] at wrote
  obtain ⟨_, after', adapted, ended⟩ := exists_of_run_bind wrote
  cases ended
  rw [run_adapt] at adapted
  rcases written : (Files.write file edited.bytes : Action FileError Unit).run between with
    ⟨e | _, after'⟩
  · rw [written] at adapted
    cases adapted
  · rw [written] at adapted
    cases adapted
    exact ⟨edited, came, Files.readFile_of_write written⟩

/-- One assignment is one replacement. -/
theorem replace_of_edited (reads : disk.readFile file = .ok old)
    (loads : content.onDisk disk = .ok contents)
    (came : Task.edited disk style file [⟨marker, content⟩] = .ok edited) :
    (Buffer.ofBytes old).replace .generous style marker contents = .ok edited := by
  rw [edited_of_readFile reads, List.foldlM_cons, Assignment.step, loads] at came
  cases replaced : (Buffer.ofBytes old).replace .generous style marker contents with
  | error e =>
    simp only [replaced, bind, Except.bind] at came
    cases came
  | ok next =>
    simp only [replaced, bind, Except.bind, Except.mapError, List.foldlM_nil, pure,
      Except.pure] at came
    cases came
    rfl

end Task

/-! ## The runs -/

namespace Buffer

open Scan (Seams)

variable {style : MarkerStyle} {marker contents : Bytes} {buffer edited : Buffer}

/-- **Inert contents are displayed as they were written**, with one terminator of the text behind
them. -/
theorem exists_find_of_inert
    (replaced : buffer.replace .generous style marker contents = .ok edited)
    (inert : Line.IsInert style.lead marker (.ofText buffer.bytes) contents) :
    ∃ region, Scan.find (style.query marker) edited.bytes = .ok region ∧
      region.contents edited.bytes ++ region.suffix =
        contents ++ (LineEnding.ofText buffer.bytes).bytes := by
  obtain ⟨region, -, seams, rewritten⟩ := exists_rewritten replaced
  rw [rewritten]
  refine ⟨_, seams.find_rewritten_of_inert inert, ?_⟩
  rw [Region.contents_eq_of_contents? (seams.contents?_rewritten contents _ _), Region.suffix,
    if_pos rfl, seams.joins.ending_eq]

end Buffer

namespace Invocation

variable {reading writing : Invocation} {desk before between : Desk} {style : MarkerStyle}
  {file : Path} {marker contents : Bytes} {assignments : List Assignment} {region : Region}
  {outcome : Outcome}

theorem exists_run_displayed (asked : reading.task = .display file marker)
    (resolved : ((MarkerStyle.resolve reading.lead reading.settings :
      Action TaskError MarkerStyle).run desk).1 = .ok style)
    (reads : desk.disk.readFile file = .ok contents)
    (found : Scan.find (style.query marker) contents = .ok region) :
    ∃ after, (reading.run : StateM Desk Outcome) desk =
      (.printed (region.contents contents ++ region.suffix), after) ∧ after.disk = desk.disk := by
  have prints := Task.run_display_printed reads found
  rw [← asked] at prints
  exact exists_run resolved prints

/-- **A run that has succeeded has written** what it has worked out. -/
theorem exists_edited_of_run (asked : writing.task = .replace file assignments true)
    (resolved : ((MarkerStyle.resolve writing.lead writing.settings :
      Action TaskError MarkerStyle).run before).1 = .ok style)
    (ran : (writing.run : StateM Desk Outcome) before = (outcome, between))
    (succeeded : outcome.exitCode = 0) :
    ∃ edited, Task.edited before.disk style file assignments = .ok edited ∧
      between.disk.readFile file = .ok edited.bytes := by
  obtain ⟨_, settled⟩ := MarkerStyle.looks_resolve writing.lead writing.settings before
  rw [settled] at resolved
  obtain ⟨journal, done⟩ := exists_run_eq writing before
  dsimp only at resolved
  rw [resolved, ran, asked] at done
  dsimp only at done
  rcases ended : (Task.run style (.replace file assignments true) : Action TaskError Outcome).run
    { before with journal } with ⟨e | outcome', after⟩
  · rw [ended] at done
    cases done
    cases succeeded
  · rw [ended] at done
    cases done
    obtain ⟨edited, came, reads⟩ := Task.exists_edited_of_run ended
    exact ⟨edited, came, reads⟩

/-- **What a run displays.** A run that is asked to display a region that is found prints what stands
between its two marker lines, from the first byte behind the terminator of its opening line up to the
first of its closing line, and changes nothing. If a run before it has succeeded in writing inert
contents into the region, then these are what it prints, with one terminator of the file's style
behind them; and this is so whether or not there was a line in the region before. -/
theorem run_display (asked : reading.task = .display file marker)
    (resolved : ((MarkerStyle.resolve reading.lead reading.settings :
      Action TaskError MarkerStyle).run desk).1 = .ok style) :
    (∀ text region, desk.disk.readFile file = .ok text →
      Scan.find (style.query marker) text = .ok region →
      ∃ outcome after, (reading.run : StateM Desk Outcome) desk = (outcome, after) ∧
        outcome.exitCode = 0 ∧ after.disk = desk.disk ∧
        ∃ i j, Scan.Encloses style.lead marker (cut (.ofText text) text) i j ∧
          outcome.output =
            (text.take (offset (.ofText text) (cut (.ofText text) text) j)).drop
              (offset (.ofText text) (cut (.ofText text) text) (i + 1))) ∧
    ∀ (writing : Invocation) (content : Content) (before between : Desk) (written : Outcome)
        (text contents : Bytes),
      writing.task = .replace file [⟨marker, content⟩] true →
      ((MarkerStyle.resolve writing.lead writing.settings :
        Action TaskError MarkerStyle).run before).1 = .ok style →
      (writing.run : StateM Desk Outcome) before = (written, between) →
      written.exitCode = 0 →
      before.disk.readFile file = .ok text →
      content.onDisk before.disk = .ok contents →
      Line.IsInert style.lead marker (.ofText text) contents →
      desk.disk = between.disk →
      ∃ outcome after, (reading.run : StateM Desk Outcome) desk = (outcome, after) ∧
        outcome.exitCode = 0 ∧ after.disk = desk.disk ∧
        outcome.output = contents ++ (LineEnding.ofText text).bytes := by
  refine ⟨?_, ?_⟩
  · intro text region reads found
    obtain ⟨after, done, same⟩ := exists_run_displayed asked resolved reads found
    obtain ⟨i, j, encloses, span⟩ := Scan.exists_span found
    exact ⟨_, after, done, rfl, same, i, j, encloses, span⟩
  · intro writing content before between written text contents asked' resolved' ran succeeded reads
      loads inert next
    obtain ⟨edited, came, reads'⟩ := exists_edited_of_run asked' resolved' ran succeeded
    have replaced := Task.replace_of_edited reads loads came
    obtain ⟨region, found, shown⟩ := Buffer.exists_find_of_inert replaced inert
    rw [← next] at reads'
    obtain ⟨after, done, same⟩ := exists_run_displayed asked resolved reads' found
    exact ⟨_, after, done, rfl, same, shown⟩

/-- A region without a line in a file whose lines end in two bytes, and contents with a line feed of
their own: the run that displays the region prints them, and behind them the two bytes that have been
added. -/
theorem run_display_of_empty_region :
    ∃ written between outcome after,
      (Invocation.run ⟨false, some [0x23], none,
          .replace [0x66] [⟨[0x74], .inline [0x78, 0x0a, 0x79]⟩] true⟩ : StateM Desk Outcome)
        ⟨⟨[([[0x66]], .file [0x23, 0x7b, 0x74, 0x0d, 0x0a, 0x23, 0x7d, 0x74])], []⟩, [], 7⟩ =
          (written, between) ∧
      written.exitCode = 0 ∧
      (Invocation.run ⟨false, some [0x23], none, .display [0x66] [0x74]⟩ : StateM Desk Outcome)
        ⟨between.disk, [], 8⟩ = (outcome, after) ∧
      outcome.exitCode = 0 ∧ outcome.output = [0x78, 0x0a, 0x79, 0x0d, 0x0a] := by
  obtain ⟨disk, same⟩ : ∃ disk : Disk,
    disk = ⟨[([[0x66]], .file [0x23, 0x7b, 0x74, 0x0d, 0x0a, 0x23, 0x7d, 0x74])], []⟩ := ⟨_, rfl⟩
  have tree : disk.IsTree := by
    rw [same]
    exact Disk.isTree_single
  -- The temporary file is `.f.7.tmp`.
  have unhindered : Files.Unhindered disk [0x66] 7 := by
    have names : some [0x66] ≠ some (Files.temporaryName [0x66] 7) ∧
        (Files.temporaryName [0x66] 7).length ≤ Disk.maxNameLength ∧
        (Files.temporaryPath [0x66] 7).length < Disk.pathLimit := by decide +kernel
    obtain ⟨other, short, short_path⟩ := names
    refine ⟨fun _ last => Disk.find?_eq_none_of_getLast? ?_ last, short, short_path⟩
    simpa [same] using other
  obtain ⟨left, came⟩ : ∃ left, Task.written (some [0x23]) none [0x66]
      [⟨[0x74], .inline [0x78, 0x0a, 0x79]⟩] disk = .ok left := by
    rw [same]
    exact ⟨_, rfl⟩
  obtain ⟨written, between, wrote, ends⟩ := exists_run_written
    ⟨false, some [0x23], none, .replace [0x66] [⟨[0x74], .inline [0x78, 0x0a, 0x79]⟩] true⟩
    ⟨disk, [], 7⟩ tree unhindered rfl
  simp only [came] at ends
  obtain ⟨rfl, -⟩ := ends
  have reads : disk.readFile [0x66] = .ok [0x23, 0x7b, 0x74, 0x0d, 0x0a, 0x23, 0x7d, 0x74] := by
    rw [same]
    rfl
  obtain ⟨-, shows⟩ := @run_display ⟨false, some [0x23], none, .display [0x66] [0x74]⟩
    ⟨between.disk, [], 8⟩ ⟨[0x23]⟩ [0x66] [0x74] rfl rfl
  obtain ⟨outcome, after, done, code, -, output⟩ :=
    shows _ _ _ between _ _ [0x78, 0x0a, 0x79] rfl rfl wrote rfl reads rfl (by decide) rfl
  rw [same] at wrote
  exact ⟨_, between, outcome, after, wrote, rfl, done, code, output⟩

end Invocation

end MarkedRegions
