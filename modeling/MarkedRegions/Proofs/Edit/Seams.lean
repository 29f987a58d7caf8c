import MarkedRegions.Proofs.Edit.Splice
import MarkedRegions.Proofs.Scan.Success

/-!
# The seams of a region

A region has two seams: the terminator of its opening line, and the terminator before its closing
line, which is the last of the contents or, where there are none, the same as the first. The text
on either side of a seam is cut into lines by itself, so contents can be exchanged between the seams
without a line outside taking notice: whatever the new contents begin or end with, a terminator
stands between them and the marker lines. That the style of the text stays the same is due to the
first seam, which holds a line feed and is not touched.

## Main definitions

* `Region.Joins`: the text on either side of the seams of a region
* `Scan.Seams`: a text taken apart at the seams of a region that has been found
* `Scan.Seams.rewritten`: the text with other contents between the seams

## Main results

* `exists_seams`: every region that is found has seams
* `exists_rewritten`: a replacement exchanges what stands between them
* `lines_of_replace`: the lines of an edited buffer
-/

namespace MarkedRegions

/-- **The text on either side of the seams** of a region, up to its opening line and from its
closing line on. What an edit leaves of the text is stated as an edit uses it: the bytes before the
contents, and those behind the contents with the terminator that is added. -/
structure Region.Joins (region : Region) (ending : LineEnding) (text head tail : Bytes) :
    Prop where
  ending_eq : region.ending = ending
  ordered : region.start ≤ region.stop
  within : region.stop ≤ text.length
  take_start : text.take region.start = head ++ ending.bytes
  drop_stop : region.addedSuffix ++ text.drop region.stop = ending.bytes ++ tail

/-- Where there are no lines between the marker lines, the two seams are one terminator. -/
theorem Region.joins_upTo_self {ending : LineEnding} {text head tail : Bytes}
    (parts : text = head ++ (ending.bytes ++ tail)) {start : Nat}
    (length : start = head.length + ending.width) :
    (Region.upTo ending start start).Joins ending text head tail := by
  have size : start = (head ++ ending.bytes).length := by
    rw [length, List.length_append, LineEnding.width]
  rw [Region.upTo, if_neg (Nat.lt_irrefl start), parts, ← List.append_assoc]
  refine ⟨rfl, Nat.le_refl _, ?_, ?_, ?_⟩
  · rw [List.length_append, ← size]
    exact Nat.le_add_right _ _
  · exact List.take_left' size.symm
  · exact congrArg (ending.bytes ++ ·) (List.drop_left' size.symm)

/-- Where there are lines between the marker lines, the second seam is behind the last of them. -/
theorem Region.joins_upTo {ending : LineEnding} {text head body tail : Bytes}
    (parts : text = head ++ (ending.bytes ++ (body ++ (ending.bytes ++ tail)))) {start place : Nat}
    (length : start = head.length + ending.width)
    (length' : place = start + (body.length + ending.width)) :
    (Region.upTo ending start place).Joins ending text head tail := by
  have positive := Line.width_pos ending
  have size : (head ++ ending.bytes).length = start := by
    rw [length, List.length_append, LineEnding.width]
  have size' : (head ++ ending.bytes ++ body).length = place - ending.width := by
    rw [List.length_append, size]
    omega
  have parts' : text = head ++ ending.bytes ++ body ++ (ending.bytes ++ tail) := by
    simp only [parts, List.append_assoc]
  rw [Region.upTo, if_pos (by omega)]
  refine ⟨rfl, ?_, ?_, ?_, ?_⟩
  · show start ≤ place - ending.width
    omega
  · rw [parts', List.length_append, size']
    exact Nat.le_add_right _ _
  · rw [parts, ← List.append_assoc]
    exact List.take_left' size
  · rw [parts']
    exact List.drop_left' size'

namespace Scan

open Line (Closes cut extent extent_append extent_cons)

/-- **A text taken apart at the seams of a region** that its lines enclose. -/
structure Seams (query : Query) (text : Bytes) (region : Region) where
  -- The lines before the closing line.
  before : List Bytes
  closing : Bytes
  after : List Bytes
  index : Nat
  -- The text up to the end of the opening line, without its terminator.
  head : Bytes
  -- The text from the closing line on.
  tail : Bytes
  lines : cut (.ofText text) text = before ++ closing :: after
  behind : Underway query.lead query.marker before (some index)
  closes : Closes query.lead closing
  cut_head : cut (.ofText text) head = before.take (index + 1)
  cut_tail : cut (.ofText text) tail = closing :: after
  joins : region.Joins (.ofText text) text head tail

/-- **Every region that is found has seams.** -/
theorem exists_seams {query : Query} {text : Bytes} {region : Region}
    (found : find query text = .ok region) : Nonempty (Seams query text region) := by
  rw [find_eq_iff_course] at found
  cases found with
  | @closes before after closing index parts behind closes =>
    obtain ⟨outside, opening, inner, rfl, rfl, -⟩ := underway_some_iff.mp behind
    have opened : (outside ++ opening :: inner).take (outside.length + 1) =
        outside ++ [opening] := List.take_length_add_append 1
    -- The first seam is the terminator of the opening line.
    have seam : cut (.ofText text) text =
        (outside ++ [opening]) ++ (inner ++ closing :: after) := by
      rw [parts, ← List.singleton_append, ← List.append_assoc, List.append_assoc]
    obtain ⟨head, rest, rest_eq, cut_head, cut_rest⟩ :=
      Line.cut_eq_append seam (by simp) (by simp)
    have head_length := Line.extent_cut (.ofText text) head
    rw [cut_head] at head_length
    rw [opened]
    by_cases empty : inner = []
    · subst empty
      exact ⟨⟨_, closing, after, _, head, rest, parts, behind, closes, cut_head.trans opened.symm,
        cut_rest, Region.joins_upTo_self rest_eq head_length⟩⟩
    · -- The second is the terminator of the last line before the closing line.
      obtain ⟨body, tail, tail_eq, cut_body, cut_tail⟩ :=
        Line.cut_eq_append cut_rest empty (by simp)
      have body_length := Line.extent_cut (.ofText text) body
      rw [cut_body] at body_length
      have place : extent (.ofText text) (outside ++ opening :: inner) =
          extent (.ofText text) (outside ++ [opening]) +
            (body.length + (LineEnding.ofText text).width) := by
        rw [← body_length, ← extent_append, List.append_assoc, List.singleton_append]
      rw [tail_eq] at rest_eq
      exact ⟨⟨_, closing, after, _, head, tail, parts, behind, closes, cut_head.trans opened.symm,
        cut_tail, Region.joins_upTo rest_eq head_length place⟩⟩

namespace Seams

variable {query : Query} {text : Bytes} {region : Region}

/-- **The text with other contents** between the seams. -/
def rewritten (seams : Seams query text region) (contents : Bytes) : Bytes :=
  seams.head ++ ((LineEnding.ofText text).bytes ++
    (contents ++ ((LineEnding.ofText text).bytes ++ seams.tail)))

/-- The region starts behind the first seam. -/
theorem start_eq (seams : Seams query text region) :
    region.start = seams.head.length + (LineEnding.ofText text).width := by
  have length := congrArg List.length seams.joins.take_start
  rwa [List.length_take_of_le (Nat.le_trans seams.joins.ordered seams.joins.within),
    List.length_append] at length

/-- The extent of the lines up to the opening line is where the region starts. -/
theorem extent_eq (seams : Seams query text region) :
    extent (.ofText text) (seams.before.take (seams.index + 1)) = region.start := by
  rw [← seams.cut_head, Line.extent_cut, seams.start_eq]

/-- **The style of the text stays the same**: it is settled no later than at the first seam. -/
theorem ofText_rewritten (seams : Seams query text region) (contents : Bytes) :
    LineEnding.ofText (seams.rewritten contents) = .ofText text := by
  have settled : lineFeed ∈ text.take region.start := by
    rw [seams.joins.take_start]
    exact List.mem_append_right _ (LineEnding.lineFeed_mem_bytes _)
  calc LineEnding.ofText (seams.rewritten contents)
      = .ofText (text.take region.start ++
          (contents ++ ((LineEnding.ofText text).bytes ++ seams.tail))) := by
        rw [seams.joins.take_start, rewritten, List.append_assoc]
    _ = .ofText (text.take region.start) := LineEnding.ofText_append settled _
    _ = .ofText (text.take region.start ++ text.drop region.start) :=
        (LineEnding.ofText_append settled _).symm
    _ = .ofText text := by rw [List.take_append_drop]

/-- **The lines of the rewritten text**: those up to the opening line, those of the contents, and
those from the closing line on. -/
theorem cut_rewritten (seams : Seams query text region) (contents : Bytes) :
    cut (.ofText text) (seams.rewritten contents) =
      seams.before.take (seams.index + 1) ++
        (cut (.ofText text) contents ++ seams.closing :: seams.after) := by
  rw [rewritten, Line.cut_append, Line.cut_append, seams.cut_head, seams.cut_tail]

theorem index_lt (seams : Seams query text region) : seams.index < seams.before.length :=
  seams.behind.index_lt

theorem take_lines (seams : Seams query text region) :
    (cut (.ofText text) text).take (seams.index + 1) = seams.before.take (seams.index + 1) := by
  rw [seams.lines]
  exact List.take_append_of_le_length seams.index_lt

theorem drop_lines (seams : Seams query text region) :
    (cut (.ofText text) text).drop seams.before.length = seams.closing :: seams.after := by
  rw [seams.lines]
  exact List.drop_left

/-- The seams stand at the two lines that enclose the region. -/
theorem encloses (seams : Seams query text region) :
    Encloses query.lead query.marker (cut (.ofText text) text) seams.index seams.before.length :=
  encloses_iff.mpr ⟨_, _, _, seams.lines, rfl, seams.behind, seams.closes⟩

end Seams

end Scan

namespace Buffer

open Line (cut offset terminators)
open Scan (Encloses Seams)

variable {allocator : Allocator} {style : MarkerStyle} {marker contents : Bytes}
  {buffer edited : Buffer}

/-- **A replacement exchanges what stands between the seams** of the region that it finds. -/
theorem exists_rewritten
    (replaced : buffer.replace allocator style marker contents = .ok edited) :
    ∃ region, buffer.find style marker = .ok region ∧
      ∃ seams : Seams (style.query marker) buffer.bytes region,
        edited.bytes = seams.rewritten contents := by
  rw [replace] at replaced
  cases found : buffer.find style marker with
  | error cause =>
    rw [found] at replaced
    cases replaced
  | ok region =>
    rw [found] at replaced
    obtain ⟨seams⟩ := Scan.exists_seams found
    have joins := seams.joins
    refine ⟨region, rfl, seams, ?_⟩
    rw [replaceRegion_bytes joins.ordered joins.within replaced, joins.take_start, joins.drop_stop,
      Seams.rewritten, List.append_assoc]

/-- **No line outside a region takes notice of a replacement.** The style of the text stays the
same. In that style its lines are those up to the opening line, then those of the contents, which
are one more than the contents have terminators, and then those from the closing line on; and the
text up to the contents and the text from the closing line on are what they were, byte for byte. -/
theorem lines_of_replace
    (replaced : buffer.replace allocator style marker contents = .ok edited) :
    LineEnding.ofText edited.bytes = .ofText buffer.bytes ∧
      ∃ i j,
        Encloses style.lead marker (cut (.ofText buffer.bytes) buffer.bytes) i j ∧
        cut (.ofText buffer.bytes) edited.bytes =
          (cut (.ofText buffer.bytes) buffer.bytes).take (i + 1) ++
            (cut (.ofText buffer.bytes) contents ++
              (cut (.ofText buffer.bytes) buffer.bytes).drop j) ∧
        (cut (.ofText buffer.bytes) contents).length =
          terminators (.ofText buffer.bytes) contents + 1 ∧
        edited.bytes.take
            (offset (.ofText buffer.bytes) (cut (.ofText buffer.bytes) edited.bytes) (i + 1)) =
          buffer.bytes.take
            (offset (.ofText buffer.bytes) (cut (.ofText buffer.bytes) buffer.bytes) (i + 1)) ∧
        edited.bytes.drop
            (offset (.ofText buffer.bytes) (cut (.ofText buffer.bytes) edited.bytes)
              (i + 1 + (cut (.ofText buffer.bytes) contents).length)) =
          buffer.bytes.drop
            (offset (.ofText buffer.bytes) (cut (.ofText buffer.bytes) buffer.bytes) j) := by
  obtain ⟨region, -, seams, rewritten⟩ := exists_rewritten replaced
  -- The lines of either text, taken apart at the end of the opening line.
  have lines := seams.lines
  have opened_length : (seams.before.take (seams.index + 1)).length = seams.index + 1 :=
    List.length_take_of_le seams.index_lt
  have opened : seams.before.take (seams.index + 1) ≠ [] :=
    List.ne_nil_of_length_pos (by omega)
  have parts : cut (.ofText buffer.bytes) buffer.bytes =
      seams.before.take (seams.index + 1) ++
        (seams.before.drop (seams.index + 1) ++ seams.closing :: seams.after) := by
    rw [← List.append_assoc, List.take_append_drop, lines]
  have parts' : cut (.ofText buffer.bytes) edited.bytes =
      seams.before.take (seams.index + 1) ++
        (cut (.ofText buffer.bytes) contents ++ seams.closing :: seams.after) := by
    rw [rewritten, seams.cut_rewritten]
  -- And those of the edited text, taken apart at the closing line.
  have parts'' := parts'
  rw [← List.append_assoc] at parts''
  have inserted_length : (seams.before.take (seams.index + 1) ++
      cut (.ofText buffer.bytes) contents).length =
        seams.index + 1 + (cut (.ofText buffer.bytes) contents).length := by
    rw [List.length_append, opened_length]
  refine ⟨by rw [rewritten, seams.ofText_rewritten], seams.index, seams.before.length,
    seams.encloses, ?_, Line.length_cut _ _, ?_, ?_⟩
  · rw [parts', seams.take_lines, seams.drop_lines]
  · rw [Line.offset_eq_of_parts parts' opened_length, Line.offset_eq_of_parts parts opened_length,
      Line.take_extent parts' opened (by simp), Line.take_extent parts opened (by simp)]
  · rw [Line.offset_eq_of_parts parts'' inserted_length, Line.offset_eq_of_parts lines rfl,
      Line.drop_extent parts'' (by simp), Line.drop_extent lines (by simp)]

/-- Contents of the other style, in a text where a line feed alone ends a line: they have one
terminator and are two lines, the first of which keeps its carriage return. -/
theorem lines_of_replace_of_other_style :
    ∃ edited,
      (ofBytes [0x23, 0x7b, 0x74, 0x0a, 0x61, 0x0a, 0x23, 0x7d, 0x74]).replace .generous
        ⟨[0x23]⟩ [0x74] [0x78, 0x0d, 0x0a, 0x79] = .ok edited ∧
      LineEnding.ofText edited.bytes = .lf ∧
      ∃ i j,
        Encloses [0x23] [0x74] [[0x23, 0x7b, 0x74], [0x61], [0x23, 0x7d, 0x74]] i j ∧
        cut .lf edited.bytes =
          [[0x23, 0x7b, 0x74], [0x61], [0x23, 0x7d, 0x74]].take (i + 1) ++
            ([[0x78, 0x0d], [0x79]] ++
              [[0x23, 0x7b, 0x74], [0x61], [0x23, 0x7d, 0x74]].drop j) := by
  have replaced : (ofBytes [0x23, 0x7b, 0x74, 0x0a, 0x61, 0x0a, 0x23, 0x7d, 0x74]).replace .generous
      ⟨[0x23]⟩ [0x74] [0x78, 0x0d, 0x0a, 0x79] =
        .ok ⟨[0x23, 0x7b, 0x74, 0x0a, 0x78, 0x0d, 0x0a, 0x79, 0x0a, 0x23, 0x7d, 0x74], 12⟩ :=
    rfl
  obtain ⟨same, i, j, encloses, lines, -⟩ := lines_of_replace replaced
  exact ⟨_, replaced, same, i, j, encloses, lines⟩

end Buffer

end MarkedRegions
