import MarkedRegions.Proofs.Edit.Seams

/-!
# What is written is what is found

Contents that have been written are found again if and only if every line of theirs can stand in an
open region. For if one of them closes the region, what is found ends before it, and is shorter
than what was written; and if one of them offends, nothing is found. Neither depends on what the
contents begin or end with, nor on whether a terminator had to be added: the lines between the two
marker lines are those of the contents in either case.

## Main results

* `find_rewritten_of_inert`: inert contents are found where they were written
* `inert_of_find_rewritten`: contents that are found are inert
* `find_replace_iff_inert`: the two together, for buffers
-/

namespace MarkedRegions

namespace Scan

open Line (Passes Closes cut extent extent_append extent_cons)

namespace Seams

variable {query : Query} {text contents : Bytes} {region : Region}

/-- The lines up to the opening line leave a scan inside the region. -/
theorem opened (seams : Seams query text region) :
    Underway query.lead query.marker (seams.before.take (seams.index + 1)) (some seams.index) := by
  obtain ⟨before, opening, inner, parts, index, idle, opens, -⟩ :=
    underway_some_iff.mp seams.behind
  have upTo : seams.before.take (seams.index + 1) = before ++ opening :: [] := by
    rw [parts, ← index]
    exact List.take_length_add_append 1
  rw [upTo]
  exact underway_some_iff.mpr ⟨before, opening, [], rfl, index, idle, opens, by simp⟩

/-- The scan of a rewritten text is decided by the lines of the contents. -/
theorem find_rewritten_iff (seams : Seams query text region) {verdict : Except ScanError Region} :
    find query (seams.rewritten contents) = verdict ↔
      Course query (.ofText text)
        (seams.before.take (seams.index + 1) ++
          (cut (.ofText text) contents ++ seams.closing :: seams.after)) verdict := by
  rw [find_eq_iff_course, seams.ofText_rewritten, seams.cut_rewritten]

/-- The course of a scan that a line closes behind the first lines of the contents. -/
theorem course_of_closes (seams : Seams query text region) {first : List Bytes}
    (after : List Bytes) {closing : Bytes}
    (inert : ∀ line ∈ first, Passes query.lead query.marker true line)
    (closes : Closes query.lead closing) :
    Course query (.ofText text)
      (seams.before.take (seams.index + 1) ++ (first ++ closing :: after))
      (.ok (.upTo (.ofText text) region.start (region.start + extent (.ofText text) first))) := by
  have behind := seams.opened.append inert
  have opening : (seams.before.take (seams.index + 1) ++ first).take (seams.index + 1) =
      seams.before.take (seams.index + 1) :=
    List.take_left' (List.length_take_of_le seams.index_lt)
  have course : Course query (.ofText text)
      (seams.before.take (seams.index + 1) ++ (first ++ closing :: after)) _ :=
    .closes (List.append_assoc ..).symm behind closes
  rwa [opening, extent_append, seams.extent_eq] at course

/-- **Inert contents are found where they were written.** -/
theorem find_rewritten_of_inert (seams : Seams query text region)
    (inert : Line.IsInert query.lead query.marker (.ofText text) contents) :
    find query (seams.rewritten contents) =
      .ok ⟨region.start, region.start + contents.length, region.ending, true⟩ := by
  have passed : ∀ line ∈ cut (.ofText text) contents,
      Passes query.lead query.marker true line := by
    intro line inside
    exact Line.passes_open_iff.mpr (inert line inside)
  have positive := Line.width_pos (.ofText text)
  have upTo : Region.upTo (.ofText text) region.start
      (region.start + (contents.length + (LineEnding.ofText text).width)) =
        ⟨region.start, region.start + contents.length, region.ending, true⟩ := by
    rw [Region.upTo, if_pos (by omega), seams.joins.ending_eq, ← Nat.add_assoc,
      Nat.add_sub_cancel]
  rw [seams.find_rewritten_iff, ← upTo, ← Line.extent_cut]
  exact seams.course_of_closes seams.after passed seams.closes

/-- What is read of the rewritten text where the contents were written. -/
theorem contents?_rewritten (seams : Seams query text region) (contents : Bytes)
    (ending : LineEnding) (trailing : Bool) :
    (Region.mk region.start (region.start + contents.length) ending trailing).contents?
      (seams.rewritten contents) = some contents := by
  have start : (seams.head ++ (LineEnding.ofText text).bytes).length = region.start := by
    rw [seams.start_eq, List.length_append, LineEnding.width]
  have stop : (seams.head ++ (LineEnding.ofText text).bytes ++ contents).length =
      region.start + contents.length := by
    rw [List.length_append, start]
  have parts : seams.rewritten contents =
      seams.head ++ (LineEnding.ofText text).bytes ++ contents ++
        ((LineEnding.ofText text).bytes ++ seams.tail) := by
    simp only [rewritten, List.append_assoc]
  have within : region.start + contents.length ≤ (seams.rewritten contents).length := by
    rw [parts, List.length_append, stop]
    exact Nat.le_add_right _ _
  rw [Region.contents?, if_pos ⟨Nat.le_add_right _ _, within⟩, parts, List.take_left' stop,
    List.drop_left' start]

/-- What is read of a text is as long as the region. -/
theorem length_of_contents? {found : Region} (read : found.contents? text = some contents) :
    contents.length = found.length := by
  rw [Region.contents?] at read
  split at read
  · next inside =>
    cases read
    rw [List.length_drop, List.length_take_of_le inside.2, Region.length]
  · cases read

theorem length_upTo (ending : LineEnding) (start size : Nat) :
    (Region.upTo ending start (start + size)).length = size - ending.width := by
  rw [Region.upTo]
  split <;> simp only [Region.length] <;> omega

/-- A closing line has at least its brace. -/
theorem length_pos_of_closes {lead line : Bytes} (closes : Closes lead line) : 0 < line.length := by
  obtain ⟨name, column, reads⟩ := closes
  cases reads with
  | named => simp only [List.length_append, List.length_cons]; omega

/-- **Contents that are found are inert.** The first line that is not harmless closes the region
before the end of the contents, or offends. -/
theorem inert_of_find_rewritten (seams : Seams query text region) {found : Region}
    (again : find query (seams.rewritten contents) = .ok found)
    (same : found.contents? (seams.rewritten contents) = some contents) :
    Line.IsInert query.lead query.marker (.ofText text) contents := by
  rw [seams.find_rewritten_iff] at again
  cases search : (cut (.ofText text) contents).find? fun line =>
      !(Line.kind query.lead line).isHarmless query.marker with
  | none =>
    intro line inside
    simpa using List.find?_eq_none.mp search line inside
  | some line =>
    exfalso
    obtain ⟨harmful, first, rest, parts, harmless⟩ := List.find?_eq_some_iff_append.mp search
    have inert : ∀ line ∈ first, Passes query.lead query.marker true line := by
      intro line inside
      rw [Line.passes_open_iff]
      simpa using harmless line inside
    rw [parts, List.append_assoc, List.cons_append] at again
    rcases Line.effect_cases query.lead query.marker line true
        ((seams.before.take (seams.index + 1) ++ first).length + 1) with
      passes | ⟨closed, -⟩ | ⟨-, closes⟩ | ⟨e, offends⟩
    · rw [Line.passes_open_iff] at passes
      simp [passes] at harmful
    · cases closed
    · -- What is found ends before the line, so it is shorter than the contents.
      have course := seams.course_of_closes (rest ++ seams.closing :: seams.after) inert closes
      have found_eq := course.survey_eq.symm.trans again.survey_eq
      have size := Line.extent_cut (.ofText text) contents
      have length := length_of_contents? same
      have positive := length_pos_of_closes closes
      cases found_eq
      rw [length_upTo] at length
      rw [parts, extent_append, extent_cons] at size
      omega
    · -- What is found cannot also be refused.
      have course : Course query (.ofText text)
          (seams.before.take (seams.index + 1) ++
            (first ++ line :: (rest ++ seams.closing :: seams.after))) _ :=
        .offends (List.append_assoc ..).symm (seams.opened.append inert) offends
      have found_eq := course.survey_eq.symm.trans again.survey_eq
      cases found_eq

end Seams

end Scan

namespace Buffer

open Scan (Seams)

variable {allocator : Allocator} {style : MarkerStyle} {marker contents : Bytes}
  {buffer edited : Buffer}

/-- **What is written is what is found, for exactly the inert contents.** A replacement finds a
region. Afterwards the contents are found again, exactly as they were written, if and only if they
are inert in the style of the text; and then they are found where that region started, with its
line ending, at their own length, and in front of a terminator. -/
theorem find_replace_iff_inert
    (replaced : buffer.replace allocator style marker contents = .ok edited) :
    ∃ region, buffer.find style marker = .ok region ∧
      ((∃ found, edited.find style marker = .ok found ∧
          found.contents? edited.bytes = some contents) ↔
        Line.IsInert style.lead marker (.ofText buffer.bytes) contents) ∧
      (Line.IsInert style.lead marker (.ofText buffer.bytes) contents →
        edited.find style marker =
          .ok ⟨region.start, region.start + contents.length, region.ending, true⟩) := by
  obtain ⟨region, found, seams, rewritten⟩ := exists_rewritten replaced
  have again : Line.IsInert style.lead marker (.ofText buffer.bytes) contents →
      edited.find style marker =
        .ok ⟨region.start, region.start + contents.length, region.ending, true⟩ := by
    intro inert
    rw [find, rewritten]
    exact seams.find_rewritten_of_inert inert
  refine ⟨region, found, ⟨?_, ?_⟩, again⟩
  · rintro ⟨found', again', same⟩
    rw [find, rewritten] at again'
    rw [rewritten] at same
    exact seams.inert_of_find_rewritten again' same
  · intro inert
    refine ⟨_, again inert, ?_⟩
    rw [rewritten]
    exact seams.contents?_rewritten contents _ _

/-- Contents that begin with a line feed and end with a carriage return, between lines that end in
both: they are one line, and are found as such in front of the terminator that is added. -/
theorem find_replace_of_stray_terminators :
    ∃ edited,
      (ofBytes [0x23, 0x7b, 0x74, 0x0d, 0x0a, 0x23, 0x7d, 0x74]).replace .generous
        ⟨[0x23]⟩ [0x74] [0x0a, 0x71, 0x0d] = .ok edited ∧
      ∃ found, edited.find ⟨[0x23]⟩ [0x74] = .ok found ∧
        found.contents? edited.bytes = some [0x0a, 0x71, 0x0d] := by
  have replaced : (ofBytes [0x23, 0x7b, 0x74, 0x0d, 0x0a, 0x23, 0x7d, 0x74]).replace .generous
      ⟨[0x23]⟩ [0x74] [0x0a, 0x71, 0x0d] =
        .ok ⟨[0x23, 0x7b, 0x74, 0x0d, 0x0a, 0x0a, 0x71, 0x0d, 0x0d, 0x0a, 0x23, 0x7d, 0x74], 13⟩ :=
    rfl
  obtain ⟨_, -, same, -⟩ := find_replace_iff_inert replaced
  exact ⟨_, replaced, same.mpr (by decide)⟩

end Buffer

end MarkedRegions
