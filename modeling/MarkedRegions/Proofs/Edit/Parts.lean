import MarkedRegions.Proofs.Edit.Seams
import MarkedRegions.Proofs.Scan.Placement

/-!
# One formula for every edit

A text with a region has three parts: the text up to and with the terminator of the opening line,
the text from the closing line on, and what stands between them. An edit in place moves the last
part over itself and shortens or lengthens the text around it, and whether it adds a terminator
depends on the region; but what it leaves is one formula. The first part stands in front of the new
contents and the last part behind them, with one terminator of the text's style in between.

That the formula is the same for both kinds of region is due to where a scan ends one. If there is a
line in the region, then the middle part is the old contents and the terminator of their last line,
and that terminator stays. If there is none, then the middle part is empty, and the terminator is
added.

## Main definitions

* `Scan.Parts`: a text in three parts at the lines that enclose a region

## Main results

* `Parts.unique`: a text has one place for each part
* `Seams.parts`: the parts by the offsets of the region
* `Seams.rewritten_eq_parts`: what an edit leaves, by the same offsets
* `middle_cases`: what the middle part is
* `replace_eq_parts`: the bytes of an edited buffer, from the parts of the buffer
-/

namespace MarkedRegions

/-- A text around the contents of a region. -/
theorem Region.take_contents_drop {region : Region} {text : Bytes}
    (ordered : region.start ≤ region.stop) (within : region.stop ≤ text.length) :
    text.take region.start ++ (region.contents text ++ text.drop region.stop) = text := by
  have inside : region.start ≤ (text.take region.stop).length := by
    rw [List.length_take_of_le within]
    exact ordered
  rw [contents, ← List.drop_append_of_le_length inside, List.take_append_drop,
    List.take_append_drop]

namespace Scan

open Line (cut)

/-- **A text in three parts** at the two lines that enclose a region: the first part is the lines up
to the opening line, each with its terminator, and the last part is the lines from the closing line
on. -/
structure Parts (lead marker text front middle back : Bytes) : Prop where
  whole : text = front ++ (middle ++ back)
  enclosed : ∃ i j, Encloses lead marker (cut (.ofText text) text) i j ∧
    front = (LineEnding.ofText text).bytes.intercalate ((cut (.ofText text) text).take (i + 1)) ++
      (LineEnding.ofText text).bytes ∧
    back = (LineEnding.ofText text).bytes.intercalate ((cut (.ofText text) text).drop j)

/-- **A text has one place for each part**, since the lines that enclose a region are determined. -/
theorem Parts.unique {lead marker text front middle back front' middle' back' : Bytes}
    (parts : Parts lead marker text front middle back)
    (parts' : Parts lead marker text front' middle' back') :
    front' = front ∧ middle' = middle ∧ back' = back := by
  obtain ⟨i, j, encloses, rfl, rfl⟩ := parts.enclosed
  obtain ⟨i', j', encloses', rfl, rfl⟩ := parts'.enclosed
  obtain ⟨rfl, rfl⟩ := encloses'.unique encloses
  have same := List.append_cancel_left (parts'.whole.symm.trans parts.whole)
  exact ⟨rfl, List.append_cancel_right same, rfl⟩

variable {query : Query} {text : Bytes} {region : Region}

namespace Seams

/-- Behind the contents stands the terminator that a region keeps, if it keeps one, and then its
closing line. -/
theorem drop_stop (seams : Seams query text region) :
    text.drop region.stop = region.suffix ++ seams.tail := by
  have behind := seams.joins.drop_stop
  -- The second seam is a terminator that is kept or one that is added, and not both.
  cases kept : region.trailing with
  | true => simpa [Region.addedSuffix, Region.suffix, kept, seams.joins.ending_eq] using behind
  | false => simpa [Region.addedSuffix, Region.suffix, kept, seams.joins.ending_eq] using behind

/-- **The parts of a text** by the offsets of its region. -/
theorem parts (seams : Seams query text region) :
    Parts query.lead query.marker text (text.take region.start)
      (region.contents text ++ region.suffix)
      (text.drop (region.stop + region.suffix.length)) := by
  have joins := seams.joins
  have tail : text.drop (region.stop + region.suffix.length) = seams.tail := by
    rw [← List.drop_drop, seams.drop_stop, List.drop_left]
  refine ⟨?_, seams.index, seams.before.length, seams.encloses, ?_, ?_⟩
  · calc text
        = text.take region.start ++ (region.contents text ++ text.drop region.stop) :=
          (Region.take_contents_drop joins.ordered joins.within).symm
      _ = _ := by rw [tail, seams.drop_stop, List.append_assoc (region.contents text)]
  · rw [joins.take_start, seams.take_lines, ← seams.cut_head, Line.intercalate_cut]
  · rw [tail, seams.drop_lines, ← seams.cut_tail, Line.intercalate_cut]

/-- **What an edit leaves**, by the same offsets: the first part and the last, around the contents and
one terminator. -/
theorem rewritten_eq_parts (seams : Seams query text region) (contents : Bytes) :
    seams.rewritten contents =
      text.take region.start ++ (contents ++ ((LineEnding.ofText text).bytes ++
        text.drop (region.stop + region.suffix.length))) := by
  rw [rewritten, seams.joins.take_start, ← List.drop_drop, seams.drop_stop, List.drop_left,
    List.append_assoc]

end Seams

/-- A region without a line in it is empty. -/
theorem start_eq_stop (found : find query text = .ok region) (bare : region.trailing = false) :
    region.start = region.stop := by
  obtain ⟨i, j, -, rfl⟩ := exists_encloses found
  have next : j = i + 1 := by simpa [Region.between] using bare
  rw [Region.between, if_pos next, next]

/-- **The middle part**: nothing where there is no line in a region, and otherwise the contents and
the terminator of their last line. -/
theorem middle_cases (found : find query text = .ok region) :
    region.trailing = false ∧ region.contents text ++ region.suffix = [] ∨
      region.trailing = true ∧ ∃ own, region.contents? text = some own ∧
        region.contents text ++ region.suffix = own ++ (LineEnding.ofText text).bytes := by
  obtain ⟨seams⟩ := exists_seams found
  have joins := seams.joins
  cases kept : region.trailing with
  | false =>
    refine .inl ⟨rfl, ?_⟩
    simp [Region.contents, Region.suffix, kept, start_eq_stop found kept]
  | true =>
    refine .inr ⟨rfl, _, Region.contents?_eq_some_contents joins.ordered joins.within, ?_⟩
    rw [Region.suffix, kept, if_pos rfl, joins.ending_eq]

end Scan

namespace Buffer

open Scan (Parts)

variable {allocator : Allocator} {style : MarkerStyle} {marker contents : Bytes}
  {buffer edited : Buffer}

/-- **One formula for every edit.** A replacement finds a region, and its text has three parts at the
two lines that enclose it. The middle part is nothing, or the old contents and one terminator of the
text's style; in either case, and however long the new contents are, the edit leaves the first part,
the new contents, one terminator of the text's style, and the last part. -/
theorem replace_eq_parts
    (replaced : buffer.replace allocator style marker contents = .ok edited) :
    ∃ region, buffer.find style marker = .ok region ∧
      (∃ front middle back, Parts style.lead marker buffer.bytes front middle back) ∧
      ∀ front middle back, Parts style.lead marker buffer.bytes front middle back →
        (region.trailing = false ∧ middle = [] ∨
          region.trailing = true ∧ ∃ own, region.contents? buffer.bytes = some own ∧
            middle = own ++ (LineEnding.ofText buffer.bytes).bytes) ∧
        edited.bytes =
          front ++ (contents ++ ((LineEnding.ofText buffer.bytes).bytes ++ back)) := by
  obtain ⟨region, found, seams, rewritten⟩ := exists_rewritten replaced
  refine ⟨region, found, ⟨_, _, _, seams.parts⟩, ?_⟩
  intro front middle back parts
  obtain ⟨rfl, rfl, rfl⟩ := seams.parts.unique parts
  refine ⟨Scan.middle_cases found, ?_⟩
  rw [rewritten, seams.rewritten_eq_parts contents]

/-- Contents that are shorter than those they replace, in a text whose lines end in two bytes: the
terminator that is kept and the closing line move by one byte, over their own first bytes. -/
theorem replace_eq_parts_of_overlap :
    ∃ edited,
      (ofBytes [0x23, 0x7b, 0x74, 0x0d, 0x0a, 0x61, 0x62, 0x0d, 0x0a, 0x23, 0x7d, 0x74]).replace
        .generous ⟨[0x23]⟩ [0x74] [0x78] = .ok edited ∧
      Parts [0x23] [0x74]
        [0x23, 0x7b, 0x74, 0x0d, 0x0a, 0x61, 0x62, 0x0d, 0x0a, 0x23, 0x7d, 0x74]
        [0x23, 0x7b, 0x74, 0x0d, 0x0a] [0x61, 0x62, 0x0d, 0x0a] [0x23, 0x7d, 0x74] ∧
      edited.bytes =
        [0x23, 0x7b, 0x74, 0x0d, 0x0a] ++ ([0x78] ++ ([0x0d, 0x0a] ++ [0x23, 0x7d, 0x74])) := by
  have replaced : (ofBytes [0x23, 0x7b, 0x74, 0x0d, 0x0a, 0x61, 0x62, 0x0d, 0x0a, 0x23, 0x7d,
      0x74]).replace .generous ⟨[0x23]⟩ [0x74] [0x78] =
        .ok ⟨[0x23, 0x7b, 0x74, 0x0d, 0x0a, 0x78, 0x0d, 0x0a, 0x23, 0x7d, 0x74], 12⟩ := rfl
  have found : Scan.find ⟨[0x23], [0x74]⟩ [0x23, 0x7b, 0x74, 0x0d, 0x0a, 0x61, 0x62, 0x0d, 0x0a,
      0x23, 0x7d, 0x74] = .ok ⟨5, 7, .crlf, true⟩ := rfl
  obtain ⟨seams⟩ := Scan.exists_seams found
  obtain ⟨_, -, -, formula⟩ := replace_eq_parts replaced
  exact ⟨_, replaced, seams.parts, (formula _ _ _ seams.parts).2⟩

end Buffer

end MarkedRegions
