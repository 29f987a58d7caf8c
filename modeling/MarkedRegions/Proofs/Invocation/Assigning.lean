import MarkedRegions.Proofs.Edit.Order
import MarkedRegions.Proofs.Edit.Parts
import MarkedRegions.Proofs.Invocation.Displaying
import MarkedRegions.Proofs.Scan.Naming

/-!
# Displaying and assigning under one name

A run that displays a region is given its name as an argument of its own, and a run that replaces one
is given it within an assignment, in front of an equals sign. The names of regions are read from
marker lines, where any byte that is no blank may stand in a name. So the two runs mean the same
region exactly as far as a name can be told from what follows it: an assignment is taken apart at its
first equals sign, because contents may hold more of them.

For every other name that is displayed the two agree. The assignment is accepted, since a name that a
marker line gives is not empty. What the second run prints is the text of the file with the value and
a terminator in place of exactly those bytes that the first run prints, and regions of other names are
changed only where they end together with this one.

A name that holds an equals sign can be displayed and is never assigned to. Its assignment is one to
the name in front of the sign, if there is anything in front of it.

## Main results

* `Assignment.parse_of_name`: an assignment is taken apart at its first equals sign
* `Assignment.not_mem_marker`: no assignment is one to a name that holds an equals sign
* `Task.run_replace_of_displayed`: what is displayed under a name is what an assignment to it replaces
-/

namespace MarkedRegions

open Desk
open Line (cut)
open Scan (Encloses Parts)

/-! ## Assignments as they are written -/

/-- A value that does not begin with an at sign stands for itself. -/
theorem Content.ofValue_of_head? {value : Bytes} (plain : value.head? ≠ some atSign) :
    ofValue value = .inline value := by
  cases value with
  | nil => rfl
  | cons first rest =>
    have other : first ≠ atSign := by simpa using plain
    rw [ofValue, if_neg other]

namespace Assignment

variable {name text : Bytes} {assignment : Assignment}

/-- The bytes in front of the first equals sign are other ones. -/
theorem forall_of_not_mem (plain : equalsSign ∉ name) :
    ∀ byte ∈ name, decide (byte ≠ equalsSign) = true := by
  intro byte inside
  rw [decide_eq_true_iff]
  rintro rfl
  exact plain inside

theorem parse_of_not_mem (plain : equalsSign ∉ text) : parse text = .error (.noValue text) := by
  have remains : text.dropWhile (· ≠ equalsSign) = [] :=
    List.dropWhile_eq_nil_iff.mpr (forall_of_not_mem plain)
  simp only [parse, remains]

/-- **An assignment is taken apart at its first equals sign**, and refused if nothing stands in front of
it. -/
theorem parse_of_name (plain : equalsSign ∉ name) (value : Bytes) :
    parse (name ++ equalsSign :: value) =
      if name = [] then .error .noName else .ok ⟨name, .ofValue value⟩ := by
  have front : (name ++ equalsSign :: value).takeWhile (· ≠ equalsSign) = name := by
    rw [List.takeWhile_append_of_pos (forall_of_not_mem plain)]
    simp
  have back : (name ++ equalsSign :: value).dropWhile (· ≠ equalsSign) = equalsSign :: value := by
    rw [List.dropWhile_append_of_pos (forall_of_not_mem plain)]
    simp
  simp only [parse, front, back, List.isEmpty_iff]

/-- No assignment is one to a name that holds an equals sign. -/
theorem not_mem_marker (parsed : parse text = .ok assignment) : equalsSign ∉ assignment.marker := by
  by_cases some_sign : equalsSign ∈ text
  · obtain ⟨name, value, rfl, plain⟩ := List.eq_append_cons_of_mem some_sign
    rw [parse_of_name plain] at parsed
    split at parsed
    · cases parsed
    · cases parsed
      exact plain
  · rw [parse_of_not_mem some_sign] at parsed
    cases parsed

end Assignment

/-! ## One region for both tasks -/

namespace Task

variable {desk after : Desk} {style : MarkerStyle} {file : Path} {text marker shown contents : Bytes}
  {content : Content} {edited : Buffer}

/-- **What is printed is found**: a task that displays prints the contents of the region and the
terminator that it keeps. -/
theorem exists_found_of_display (reads : desk.disk.readFile file = .ok text)
    (done : (run style (.display file marker) : Action TaskError Outcome).run desk =
      (.ok (.printed shown), after)) :
    ∃ region, Scan.find (style.query marker) text = .ok region ∧
      shown = region.contents text ++ region.suffix := by
  obtain ⟨journal, looked⟩ := looks_display style file marker desk
  obtain ⟨came, -⟩ := Prod.mk.inj (looked.symm.trans done)
  dsimp only at came
  cases found : Scan.find (style.query marker) text with
  | error cause =>
    simp only [displayed, Content.onDisk, reads, Except.mapError, bind, Except.bind, found] at came
    cases came
  | ok region =>
    rw [displayed_eq reads found] at came
    cases came
    exact ⟨region, rfl, rfl⟩

/-- One replacement is one assignment. -/
theorem edited_of_replace (reads : desk.disk.readFile file = .ok text)
    (loads : content.onDisk desk.disk = .ok contents)
    (replaced : (Buffer.ofBytes text).replace .generous style marker contents = .ok edited) :
    Task.edited desk.disk style file [⟨marker, content⟩] = .ok edited := by
  rw [edited_of_readFile reads, List.foldlM_cons, Assignment.step, loads]
  simp only [replaced, bind, Except.bind, Except.mapError, List.foldlM_nil, pure, Except.pure]

/-- **What is displayed under a name is what an assignment to it replaces.** Let a run have displayed a
region of a file, and let a value not name a file.

If there is no equals sign in the name, then the name, an equals sign and the value are an assignment
to it. What is displayed stands in the text of the file between the line that opens the region of this
name and the one that closes it, and a run with the assignment prints the text with the value and one
terminator in its place, unless this is more than a block of memory holds, and leaves the tree as it
is. The contents of a region of another name are kept, unless one line closes both.

If there is an equals sign in the name, then no argument is an assignment to it. -/
theorem run_replace_of_displayed {value : Bytes} (reads : desk.disk.readFile file = .ok text)
    (small : text.length ≤ Size.maxBlock)
    (done : (run style (.display file marker) : Action TaskError Outcome).run desk =
      (.ok (.printed shown), after))
    (inline : value.head? ≠ some atSign) :
    (equalsSign ∉ marker →
      Assignment.parse (marker ++ equalsSign :: value) = .ok ⟨marker, .inline value⟩ ∧
      ∃ front back output,
        Parts style.lead marker text front shown back ∧
        output = front ++ (value ++ ((LineEnding.ofText text).bytes ++ back)) ∧
        (output.length ≤ Size.maxBlock →
          ∃ after', (run style (.replace file [⟨marker, .inline value⟩] false) :
            Action TaskError Outcome).run desk = (.ok (.printed output), after') ∧
              after'.disk = desk.disk) ∧
        ∀ other neighbour, Scan.find (style.query other) text = .ok neighbour →
          neighbour.IsKept text output ∨
            ∃ i k j, Encloses style.lead marker (cut (.ofText text) text) i j ∧
              Encloses style.lead other (cut (.ofText text) text) k j) ∧
    (equalsSign ∈ marker →
      ∀ argument assignment, Assignment.parse argument = .ok assignment →
        assignment.marker ≠ marker) := by
  obtain ⟨region, found, rfl⟩ := exists_found_of_display reads done
  obtain ⟨seams⟩ := Scan.exists_seams found
  constructor
  · intro plain
    -- A line gives the name, so it is not empty.
    have named : marker ≠ [] := by
      obtain ⟨line, -, opens⟩ := seams.encloses.opened
      exact opens.isName.nonempty
    have parsed : Assignment.parse (marker ++ equalsSign :: value) = .ok ⟨marker, .inline value⟩ := by
      rw [Assignment.parse_of_name plain, if_neg named, Content.ofValue_of_head? inline]
    refine ⟨parsed, _, _, seams.rewritten value, seams.parts, seams.rewritten_eq_parts value, ?_, ?_⟩
    · intro room
      rw [seams.rewritten_eq] at room ⊢
      obtain ⟨edited, replaced, left⟩ := Buffer.exists_replace_of_small small found room
      rw [← left]
      exact run_replace_printed (edited_of_replace reads rfl replaced) desk.journal
    · intro other neighbour located
      exact seams.isKept_or_together value located
  · intro signed argument assignment parsed same
    rw [← same] at signed
    exact Assignment.not_mem_marker parsed signed

/-- The name is `a.b` and the value `p=q`, which holds an equals sign itself; a region `a` stands in
front. -/
theorem run_replace_of_displayed_with_full_stop :
    ∃ after after',
      (run ⟨[0x23]⟩ (.display [0x66] [0x61, 0x2e, 0x62]) : Action TaskError Outcome).run
        ⟨⟨[([[0x66]], .file [0x23, 0x7b, 0x61, 0x0a, 0x23, 0x7d, 0x61, 0x0a, 0x23, 0x7b, 0x61, 0x2e,
          0x62, 0x0a, 0x79, 0x0a, 0x23, 0x7d, 0x7a])], []⟩, [], 7⟩ =
            (.ok (.printed [0x79, 0x0a]), after) ∧
      Assignment.parse [0x61, 0x2e, 0x62, 0x3d, 0x70, 0x3d, 0x71] =
        .ok ⟨[0x61, 0x2e, 0x62], .inline [0x70, 0x3d, 0x71]⟩ ∧
      (run ⟨[0x23]⟩ (.replace [0x66] [⟨[0x61, 0x2e, 0x62], .inline [0x70, 0x3d, 0x71]⟩] false) :
          Action TaskError Outcome).run
        ⟨⟨[([[0x66]], .file [0x23, 0x7b, 0x61, 0x0a, 0x23, 0x7d, 0x61, 0x0a, 0x23, 0x7b, 0x61, 0x2e,
          0x62, 0x0a, 0x79, 0x0a, 0x23, 0x7d, 0x7a])], []⟩, [], 7⟩ =
            (.ok (.printed [0x23, 0x7b, 0x61, 0x0a, 0x23, 0x7d, 0x61, 0x0a, 0x23, 0x7b, 0x61, 0x2e,
              0x62, 0x0a, 0x70, 0x3d, 0x71, 0x0a, 0x23, 0x7d, 0x7a]), after') := by
  obtain ⟨desk, same⟩ : ∃ desk : Desk, desk = ⟨⟨[([[0x66]], .file [0x23, 0x7b, 0x61, 0x0a, 0x23, 0x7d,
    0x61, 0x0a, 0x23, 0x7b, 0x61, 0x2e, 0x62, 0x0a, 0x79, 0x0a, 0x23, 0x7d, 0x7a])], []⟩, [], 7⟩ :=
      ⟨_, rfl⟩
  rw [← same]
  have reads : desk.disk.readFile [0x66] = .ok [0x23, 0x7b, 0x61, 0x0a, 0x23, 0x7d, 0x61, 0x0a, 0x23,
      0x7b, 0x61, 0x2e, 0x62, 0x0a, 0x79, 0x0a, 0x23, 0x7d, 0x7a] := by
    rw [same]
    rfl
  have found : Scan.find (MarkerStyle.query ⟨[0x23]⟩ [0x61, 0x2e, 0x62]) [0x23, 0x7b, 0x61, 0x0a, 0x23,
      0x7d, 0x61, 0x0a, 0x23, 0x7b, 0x61, 0x2e, 0x62, 0x0a, 0x79, 0x0a, 0x23, 0x7d, 0x7a] =
        .ok ⟨14, 15, .lf, true⟩ := rfl
  obtain ⟨after, done, -⟩ := run_display_printed reads found desk.journal
  obtain ⟨parsed, front, back, output, parts, formula, prints, -⟩ :=
    (@run_replace_of_displayed _ _ _ _ _ _ _ [0x70, 0x3d, 0x71] reads (by decide) done
      (by decide)).1 (by decide)
  obtain ⟨seams⟩ := Scan.exists_seams found
  obtain ⟨rfl, -, rfl⟩ := seams.parts.unique parts
  subst formula
  obtain ⟨after', printed, -⟩ := prints (by decide)
  exact ⟨after, after', done, parsed, printed⟩

/-- What is displayed under a name is not always what an assignment written with that name replaces, and
where it is, a region of another name may be changed with it. The name of the first counterexample is
`a=b`, and a region `a` stands before its own; in the second, one line closes `n` and `m`. -/
theorem not_run_replace_of_displayed :
    (¬ ∀ (desk after : Desk) (style : MarkerStyle) (file : Path) (text marker shown value : Bytes),
      desk.disk.readFile file = .ok text →
      text.length + value.length + 2 ≤ Size.maxBlock →
      Utf8.isText marker → Utf8.isText value → value.head? ≠ some atSign →
      (run style (.display file marker) : Action TaskError Outcome).run desk =
        (.ok (.printed shown), after) →
      ∃ assignment front back after',
        Assignment.parse (marker ++ equalsSign :: value) = .ok assignment ∧
        Parts style.lead marker text front shown back ∧
        (run style (.replace file [assignment] false) : Action TaskError Outcome).run desk =
          (.ok (.printed (front ++ (value ++ ((LineEnding.ofText text).bytes ++ back)))), after')) ∧
    ¬ ∀ (lead text marker front shown back value other : Bytes) (neighbour : Region),
      Parts lead marker text front shown back →
      other ≠ marker → Scan.find ⟨lead, other⟩ text = .ok neighbour →
      neighbour.IsKept text (front ++ (value ++ ((LineEnding.ofText text).bytes ++ back))) := by
  constructor
  · intro agree
    -- The lines of the file are `#{a`, `x`, `#}a`, `#{a=b`, `y` and `#}b`, and the value is `v`.
    obtain ⟨desk, same⟩ : ∃ desk : Desk, desk = ⟨⟨[([[0x66]], .file [0x23, 0x7b, 0x61, 0x0a, 0x78, 0x0a,
      0x23, 0x7d, 0x61, 0x0a, 0x23, 0x7b, 0x61, 0x3d, 0x62, 0x0a, 0x79, 0x0a, 0x23, 0x7d, 0x62])], []⟩,
        [], 7⟩ := ⟨_, rfl⟩
    have reads : desk.disk.readFile [0x66] = .ok [0x23, 0x7b, 0x61, 0x0a, 0x78, 0x0a, 0x23, 0x7d, 0x61,
        0x0a, 0x23, 0x7b, 0x61, 0x3d, 0x62, 0x0a, 0x79, 0x0a, 0x23, 0x7d, 0x62] := by
      rw [same]
      rfl
    have found : Scan.find (MarkerStyle.query ⟨[0x23]⟩ [0x61, 0x3d, 0x62]) [0x23, 0x7b, 0x61, 0x0a,
        0x78, 0x0a, 0x23, 0x7d, 0x61, 0x0a, 0x23, 0x7b, 0x61, 0x3d, 0x62, 0x0a, 0x79, 0x0a, 0x23, 0x7d,
        0x62] = .ok ⟨16, 17, .lf, true⟩ := rfl
    obtain ⟨after, done, -⟩ := run_display_printed reads found desk.journal
    obtain ⟨assignment, front, back, after', parsed, parts, printed⟩ :=
      agree desk after ⟨[0x23]⟩ [0x66] _ [0x61, 0x3d, 0x62] [0x79, 0x0a] [0x76] reads (by decide)
        (by decide +kernel) (by decide +kernel) (by decide) done
    -- The assignment is one of `b=v` to `a`, and what is printed has two bytes too many.
    obtain rfl : assignment = ⟨[0x61], .inline [0x62, 0x3d, 0x76]⟩ :=
      Except.ok.inj (parsed.symm.trans rfl)
    have edited : Task.edited desk.disk ⟨[0x23]⟩ [0x66] [⟨[0x61], .inline [0x62, 0x3d, 0x76]⟩] =
        .ok ⟨[0x23, 0x7b, 0x61, 0x0a, 0x62, 0x3d, 0x76, 0x0a, 0x23, 0x7d, 0x61, 0x0a, 0x23, 0x7b, 0x61,
          0x3d, 0x62, 0x0a, 0x79, 0x0a, 0x23, 0x7d, 0x62], 23⟩ := by
      rw [same]
      rfl
    obtain ⟨after'', prints, -⟩ := run_replace_printed edited desk.journal
    obtain ⟨answer, -⟩ := Prod.mk.inj (printed.symm.trans prints)
    have left := congrArg List.length (Outcome.printed.inj (Except.ok.inj answer))
    have whole := congrArg List.length parts.whole
    have terminator : (LineEnding.ofText [0x23, 0x7b, 0x61, 0x0a, 0x78, 0x0a, 0x23, 0x7d, 0x61, 0x0a,
        0x23, 0x7b, 0x61, 0x3d, 0x62, 0x0a, 0x79, 0x0a, 0x23, 0x7d, 0x62]).bytes = [0x0a] := rfl
    simp only [terminator, List.length_append, List.length_cons, List.length_nil] at left whole
    omega
  · intro kept
    -- The lines are `#{n`, `#{m`, `x` and `#}e`, and the value of `m` is `v`.
    have found : Scan.find ⟨[0x23], [0x6d]⟩ [0x23, 0x7b, 0x6e, 0x0a, 0x23, 0x7b, 0x6d, 0x0a, 0x78, 0x0a,
        0x23, 0x7d, 0x65] = .ok ⟨8, 9, .lf, true⟩ := rfl
    have located : Scan.find ⟨[0x23], [0x6e]⟩ [0x23, 0x7b, 0x6e, 0x0a, 0x23, 0x7b, 0x6d, 0x0a, 0x78,
        0x0a, 0x23, 0x7d, 0x65] = .ok ⟨4, 9, .lf, true⟩ := rfl
    obtain ⟨seams⟩ := Scan.exists_seams found
    have stands := (kept _ _ _ _ _ _ [0x76] _ _ seams.parts (by decide) located).infix_edited rfl
    exact absurd stands (by decide)

end Task

end MarkedRegions
