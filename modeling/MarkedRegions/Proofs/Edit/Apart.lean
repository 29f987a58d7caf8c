import MarkedRegions.Proofs.Edit.Seams
import MarkedRegions.Proofs.Scan.Placement

/-!
# Regions apart from an edit

A replacement exchanges the lines between two marker lines for those of the new contents. A region
whose closing line stands before that place is found as if nothing had happened, whatever the new
contents are: the scan for its name never comes to them. The scan for a region whose opening line
stands behind that place reads the new contents outside of any region that it wants. There it passes
over more than it would inside: closing lines that give a name do nothing, and lines that open the
edited region, or any third one, do nothing either. What is left are the lines that are malformed,
that close without a name, and that open the wanted region; each of them keeps it from being found
where it was.

## Main definitions

* `exchanged`: lines with others in place of those between two
* `Region.MovesTo`: the same region in a longer or shorter text
* `Region.IsKept`: a region whose contents are where they were, or have moved

## Main results

* `encloses_exchanged_of_lt`, `encloses_exchanged_of_le`: where a region stands after an exchange
* `find_rewritten_behind_iff`: which contents leave a region behind them in its place
* `isKept_or_together`: the contents of every region are kept, unless it ends where the edited one does
* `find_replace_of_apart`: the same for buffers
-/

namespace MarkedRegions

/-- **The same region in a longer or shorter text**: its offsets have moved by as much as the text
has grown or shrunk in front of it, and it holds the same contents in the same way. -/
structure Region.MovesTo (region : Region) (text : Bytes) (moved : Region) (edited : Bytes) :
    Prop where
  start : moved.start + text.length = region.start + edited.length
  stop : moved.stop + text.length = region.stop + edited.length
  ending : moved.ending = region.ending
  trailing : moved.trailing = region.trailing
  contents : ∃ contents, region.contents? text = some contents ∧ moved.contents? edited = some contents

/-- **A region's contents are kept** by an edit: where they were, or in the place that they have moved
to. -/
def Region.IsKept (region : Region) (text edited : Bytes) : Prop :=
  (∃ held, region.contents? text = some held ∧ region.contents? edited = some held) ∨
    ∃ moved, region.MovesTo text moved edited

/-- Contents that are read stand in the text that they are read from. -/
theorem Region.infix_of_contents? {region : Region} {text held : Bytes}
    (read : region.contents? text = some held) : held <:+: text := by
  rw [contents?] at read
  split at read
  · obtain rfl := Option.some.inj read
    exact (List.drop_suffix _ _).isInfix.trans (List.take_prefix _ _).isInfix
  · cases read

/-- Contents that are kept stand in the edited text. -/
theorem Region.IsKept.infix_edited {region : Region} {text edited held : Bytes}
    (kept : region.IsKept text edited) (read : region.contents? text = some held) :
    held <:+: edited := by
  rcases kept with ⟨held', read', still⟩ | ⟨moved, moves⟩
  · obtain rfl := Option.some.inj (read.symm.trans read')
    exact infix_of_contents? still
  · obtain ⟨held', read', still⟩ := moves.contents
    obtain rfl := Option.some.inj (read.symm.trans read')
    exact infix_of_contents? still

namespace Scan

open Line (Passes Opens Malformed ClosesNothing cut extent extent_append offset)

/-! ## Lines in place of others -/

/-- **Lines with others in place of those between two.** -/
def exchanged (lines inserted : List Bytes) (i j : Nat) : List Bytes :=
  lines.take (i + 1) ++ (inserted ++ lines.drop j)

section Exchange

variable {lead marker other : Bytes} {lines inserted : List Bytes} {i j k l : Nat}

/-- **A region before an exchange stays where it is.** -/
theorem encloses_exchanged_of_lt (inserted : List Bytes) (j : Nat)
    (encloses : Encloses lead other lines k l) (before : l < i) (inside : i < lines.length) :
    Encloses lead other (exchanged lines inserted i j) k l := by
  apply encloses.congr_take
  have length : (lines.take (i + 1)).length = i + 1 := List.length_take_of_le inside
  rw [exchanged, List.take_append_of_le_length (by omega), List.take_take,
    Nat.min_eq_left (by omega)]

/-- Lines that are passed over in front of a region are passed over up to any line before it. -/
theorem Encloses.split (encloses : Encloses lead other lines k l) (behind : j ≤ k) :
    (∀ line ∈ lines.take j, Passes lead other false line) ∧
      Encloses lead other (lines.drop j) (k - j) (l - j) := by
  have ordered := encloses.ordered
  have inside := encloses.lt_length
  have length : (lines.take j).length = j := List.length_take_of_le (by omega)
  rw [← encloses_append_iff, List.take_append_drop, length, Nat.add_sub_cancel' behind,
    Nat.add_sub_cancel' (by omega)]
  exact encloses

/-- **A region behind an exchange moves along**, if its scan passes over what has been put in place
of the lines. -/
theorem encloses_exchanged_of_le (encloses : Encloses lead other lines k l) (ordered : i < j)
    (behind : j ≤ k) (passes : ∀ line ∈ inserted, Passes lead other false line) :
    Encloses lead other (exchanged lines inserted i j)
      ((lines.take (i + 1) ++ inserted).length + (k - j))
      ((lines.take (i + 1) ++ inserted).length + (l - j)) := by
  obtain ⟨idle, rest⟩ := encloses.split behind
  rw [exchanged, ← List.append_assoc, encloses_append_iff]
  refine ⟨?_, rest⟩
  intro line inside
  rcases List.mem_append.mp inside with earlier | later
  · exact idle line (List.take_subset_take_left lines (Nat.succ_le_of_lt ordered) earlier)
  · exact passes line later

end Exchange

/-- **A region with other lines in front of it** is the same region, moved. -/
theorem movesTo_between {ending : LineEnding} {text edited : Bytes} {front front' rest : List Bytes}
    {k l : Nat} (parts : cut ending text = front ++ rest)
    (parts' : cut ending edited = front' ++ rest) (ordered : k < l) (inside : l < rest.length) :
    (Region.between ending (front ++ rest) (front.length + k) (front.length + l)).MovesTo text
      (.between ending (front' ++ rest) (front'.length + k) (front'.length + l)) edited := by
  -- Either text is as long as its lines, which differ in those in front alone.
  have size := Line.extent_cut ending text
  have size' := Line.extent_cut ending edited
  rw [parts, extent_append] at size
  rw [parts', extent_append] at size'
  have held (front : List Bytes) : ((front ++ rest).take (front.length + l)).drop
      (front.length + k + 1) = (rest.take l).drop (k + 1) := by
    rw [List.take_length_add_append, Nat.add_assoc, List.drop_length_add_append]
  have contents := contents?_between parts (Nat.add_lt_add_left ordered front.length)
    (by rw [List.length_append]; omega)
  have contents' := contents?_between parts' (Nat.add_lt_add_left ordered front'.length)
    (by rw [List.length_append]; omega)
  rw [held] at contents contents'
  have moved := between_append ending front ordered inside.le
  have moved' := between_append ending front' ordered inside.le
  refine ⟨?_, ?_, rfl, ?_, _, contents, contents'⟩
  · simp only [moved, moved', Region.shift]
    omega
  · simp only [moved, moved', Region.shift]
    omega
  · rw [moved, moved']
    rfl

/-! ## What is found beside an edit -/

namespace Seams

variable {query : Query} {text contents other : Bytes} {region neighbour : Region}

/-- The lines of a rewritten text are exchanged for those of the contents. -/
theorem cut_rewritten_eq_exchanged (seams : Seams query text region) (contents : Bytes) :
    cut (.ofText text) (seams.rewritten contents) =
      exchanged (cut (.ofText text) text) (cut (.ofText text) contents) seams.index
        seams.before.length := by
  rw [seams.cut_rewritten, exchanged, seams.take_lines, seams.drop_lines]

/-- **A region before an edit** is found where it was. -/
theorem find_rewritten_before (seams : Seams query text region) (contents : Bytes)
    (before : Precedes query.lead (cut (.ofText text) text) other query.marker)
    (located : find ⟨query.lead, other⟩ text = .ok neighbour) :
    find ⟨query.lead, other⟩ (seams.rewritten contents) = .ok neighbour ∧
      ∃ held, neighbour.contents? text = some held ∧
        neighbour.contents? (seams.rewritten contents) = some held := by
  obtain ⟨k, l, i, j, encloses, around, earlier⟩ := before
  obtain ⟨rfl, rfl⟩ := around.unique seams.encloses
  obtain rfl := Except.ok.inj (located.symm.trans (encloses.find_eq rfl rfl))
  have inside : seams.index < (cut (.ofText text) text).length :=
    around.ordered.trans around.lt_length
  have encloses' := encloses_exchanged_of_lt (cut (.ofText text) contents) seams.before.length
    encloses earlier inside
  -- The lines up to the one that closes the region are the same.
  have same : (exchanged (cut (.ofText text) text) (cut (.ofText text) contents) seams.index
      seams.before.length).take l = (cut (.ofText text) text).take l := by
    have length : ((cut (.ofText text) text).take (seams.index + 1)).length = seams.index + 1 :=
      List.length_take_of_le inside
    rw [exchanged, List.take_append_of_le_length (by omega), List.take_take,
      Nat.min_eq_left (by omega)]
  have unmoved := between_congr_take (.ofText text) encloses.ordered same
  have lines := seams.cut_rewritten_eq_exchanged contents
  refine ⟨?_, _, contents?_between rfl encloses.ordered encloses.lt_length, ?_⟩
  · rw [encloses'.find_eq (seams.ofText_rewritten contents) lines, unmoved]
  · rw [← unmoved, contents?_between lines encloses'.ordered encloses'.lt_length, same]

/-- **A region behind an edit** moves along with its lines. -/
theorem movesTo_rewritten {k l : Nat} (seams : Seams query text region) (contents : Bytes)
    (encloses : Encloses query.lead other (cut (.ofText text) text) k l)
    (later : seams.before.length ≤ k) :
    (Region.between (.ofText text) (cut (.ofText text) text) k l).MovesTo text
      (.between (.ofText text) (cut (.ofText text) (seams.rewritten contents))
        (((cut (.ofText text) text).take (seams.index + 1) ++ cut (.ofText text) contents).length +
          (k - seams.before.length))
        (((cut (.ofText text) text).take (seams.index + 1) ++ cut (.ofText text) contents).length +
          (l - seams.before.length)))
      (seams.rewritten contents) := by
  have ordered := encloses.ordered
  have inside := encloses.lt_length
  -- Both texts, taken apart at the line that closes the edited region.
  have parts : cut (.ofText text) text = (cut (.ofText text) text).take seams.before.length ++
      (cut (.ofText text) text).drop seams.before.length := (List.take_append_drop ..).symm
  have length : ((cut (.ofText text) text).take seams.before.length).length =
      seams.before.length := List.length_take_of_le (by omega)
  have parts' : cut (.ofText text) (seams.rewritten contents) =
      ((cut (.ofText text) text).take (seams.index + 1) ++ cut (.ofText text) contents) ++
        (cut (.ofText text) text).drop seams.before.length := by
    rw [seams.cut_rewritten_eq_exchanged, exchanged, List.append_assoc]
  have moves := movesTo_between parts parts'
    (show k - seams.before.length < l - seams.before.length by omega)
    (by rw [List.length_drop]; omega)
  rwa [← parts, ← parts', length, Nat.add_sub_cancel' later,
    Nat.add_sub_cancel' (by omega)] at moves

/-- **A region behind an edit** is found where it has moved to, exactly if its scan passes over the
lines of the new contents. -/
theorem find_rewritten_behind_iff (seams : Seams query text region)
    (behind : Precedes query.lead (cut (.ofText text) text) query.marker other)
    (located : find ⟨query.lead, other⟩ text = .ok neighbour) :
    (∃ moved, find ⟨query.lead, other⟩ (seams.rewritten contents) = .ok moved ∧
        neighbour.MovesTo text moved (seams.rewritten contents)) ↔
      ∀ line ∈ cut (.ofText text) contents, Passes query.lead other false line := by
  obtain ⟨i, j, k, l, around, encloses, later⟩ := behind
  obtain ⟨rfl, rfl⟩ := around.unique seams.encloses
  obtain rfl := Except.ok.inj (located.symm.trans (encloses.find_eq rfl rfl))
  have lines := seams.cut_rewritten_eq_exchanged contents
  have style := seams.ofText_rewritten contents
  have moves := seams.movesTo_rewritten contents encloses later.le
  have inside := encloses.lt_length
  generalize cut (.ofText text) contents = inserted at lines moves
  constructor
  · rintro ⟨moved, found, moves'⟩
    obtain ⟨k', l', encloses', rfl⟩ := exists_encloses found
    rw [style] at encloses' moves'
    -- It starts where it has moved to, so the line that opens it is behind the new contents.
    have start := moves.start
    have start' := moves'.start
    have ordered := encloses.ordered
    have ordered' := encloses'.ordered
    have inside' := encloses'.lt_length
    have parts : cut (.ofText text) (seams.rewritten contents) =
        ((cut (.ofText text) text).take (seams.index + 1) ++ inserted) ++
          (cut (.ofText text) text).drop seams.before.length := by
      rw [lines, exchanged, List.append_assoc]
    have size := congrArg List.length parts
    rw [List.length_append, List.length_drop] at size
    have same := Line.offset_inj (by omega) (by omega) (Nat.add_right_cancel (start'.trans start.symm))
    obtain ⟨passes, -⟩ := encloses'.split
      (show ((cut (.ofText text) text).take (seams.index + 1) ++ inserted).length ≤ k' by omega)
    rw [parts, List.take_left] at passes
    intro line inside
    exact passes line (List.mem_append_right _ inside)
  · intro passes
    have encloses' := encloses_exchanged_of_le encloses around.ordered later.le passes
    rw [← lines] at encloses'
    exact ⟨_, encloses'.find_eq style rfl, moves⟩

/-- **No edit changes a region apart from it.** The contents of any region that is found are where they
were or have moved along, unless one line closes that region and the edited one. -/
theorem isKept_or_together (seams : Seams query text region) (contents : Bytes)
    (located : find ⟨query.lead, other⟩ text = .ok neighbour) :
    neighbour.IsKept text (seams.rewritten contents) ∨
      ∃ i k j, Encloses query.lead query.marker (cut (.ofText text) text) i j ∧
        Encloses query.lead other (cut (.ofText text) text) k j := by
  obtain ⟨k, l, encloses, between⟩ := exists_encloses located
  rcases seams.encloses.apart_or_together encloses with before | behind | rfl
  · have earlier : Precedes query.lead (cut (.ofText text) text) other query.marker :=
      ⟨k, l, _, _, encloses, seams.encloses, before⟩
    exact .inl (.inl (seams.find_rewritten_before contents earlier located).2)
  · rw [between]
    exact .inl (.inr ⟨_, seams.movesTo_rewritten contents encloses behind.le⟩)
  · exact .inr ⟨_, _, _, seams.encloses, encloses⟩

end Seams

end Scan

namespace Buffer

open Line (cut Malformed ClosesNothing Opens)
open Scan (Precedes)

variable {allocator : Allocator} {style : MarkerStyle} {marker contents other : Bytes}
  {buffer edited : Buffer} {neighbour : Region}

/-- **A replacement leaves every region apart from it alone.** A region before the edited one is
found where it was, whatever the contents are. A region behind it is found where it has moved to,
with its own contents, if and only if no line of the new contents is malformed, closes without a
name, or opens that region. -/
theorem find_replace_of_apart
    (replaced : buffer.replace allocator style marker contents = .ok edited)
    (located : buffer.find style other = .ok neighbour) :
    (Precedes style.lead (cut (.ofText buffer.bytes) buffer.bytes) other marker →
      edited.find style other = .ok neighbour ∧
        ∃ held, neighbour.contents? buffer.bytes = some held ∧
          neighbour.contents? edited.bytes = some held) ∧
    (Precedes style.lead (cut (.ofText buffer.bytes) buffer.bytes) marker other →
      ((∃ moved, edited.find style other = .ok moved ∧
          neighbour.MovesTo buffer.bytes moved edited.bytes) ↔
        ∀ line ∈ cut (.ofText buffer.bytes) contents,
          ¬ Malformed style.lead line ∧ ¬ ClosesNothing style.lead line ∧
            ¬ Opens style.lead other line)) := by
  obtain ⟨region, -, seams, rewritten⟩ := exists_rewritten replaced
  constructor
  · intro before
    rw [find, rewritten]
    exact seams.find_rewritten_before contents before located
  · intro behind
    simp only [← Line.passes_closed_iff]
    rw [find, rewritten]
    exact seams.find_rewritten_behind_iff behind located

/-- Contents with a closing line of their own, and with a line that opens the edited region once
more: the region behind them has moved by their length and a terminator, and holds what it held. -/
theorem find_replace_of_marker_lines :
    ∃ edited moved,
      (ofBytes [0x23, 0x7b, 0x74, 0x0a, 0x23, 0x7d, 0x74, 0x0a, 0x23, 0x7b, 0x75, 0x0a, 0x71, 0x0a,
        0x23, 0x7d, 0x75]).replace .generous ⟨[0x23]⟩ [0x74]
          [0x23, 0x7d, 0x7a, 0x0a, 0x23, 0x7b, 0x74] = .ok edited ∧
      edited.find ⟨[0x23]⟩ [0x75] = .ok moved ∧
      Region.MovesTo ⟨12, 13, .lf, true⟩
        [0x23, 0x7b, 0x74, 0x0a, 0x23, 0x7d, 0x74, 0x0a, 0x23, 0x7b, 0x75, 0x0a, 0x71, 0x0a, 0x23,
          0x7d, 0x75] moved edited.bytes := by
  have replaced : (ofBytes [0x23, 0x7b, 0x74, 0x0a, 0x23, 0x7d, 0x74, 0x0a, 0x23, 0x7b, 0x75, 0x0a,
      0x71, 0x0a, 0x23, 0x7d, 0x75]).replace .generous ⟨[0x23]⟩ [0x74]
        [0x23, 0x7d, 0x7a, 0x0a, 0x23, 0x7b, 0x74] =
          .ok ⟨[0x23, 0x7b, 0x74, 0x0a, 0x23, 0x7d, 0x7a, 0x0a, 0x23, 0x7b, 0x74, 0x0a, 0x23, 0x7d,
            0x74, 0x0a, 0x23, 0x7b, 0x75, 0x0a, 0x71, 0x0a, 0x23, 0x7d, 0x75], 25⟩ := rfl
  have found : Scan.find ⟨[0x23], [0x74]⟩ [0x23, 0x7b, 0x74, 0x0a, 0x23, 0x7d, 0x74, 0x0a, 0x23,
      0x7b, 0x75, 0x0a, 0x71, 0x0a, 0x23, 0x7d, 0x75] = .ok ⟨4, 4, .lf, false⟩ := rfl
  have located : Scan.find ⟨[0x23], [0x75]⟩ [0x23, 0x7b, 0x74, 0x0a, 0x23, 0x7d, 0x74, 0x0a, 0x23,
      0x7b, 0x75, 0x0a, 0x71, 0x0a, 0x23, 0x7d, 0x75] = .ok ⟨12, 13, .lf, true⟩ := rfl
  have passes : ∀ line ∈ cut .lf [0x23, 0x7d, 0x7a, 0x0a, 0x23, 0x7b, 0x74],
      Line.Passes [0x23] [0x75] false line := by decide
  obtain ⟨moved, again, moves⟩ := ((find_replace_of_apart replaced located).2
    ((Scan.precedes_iff found located).mpr (by decide))).mpr
      fun line inside => Line.passes_closed_iff.mp (passes line inside)
  exact ⟨_, moved, replaced, again, moves⟩

end Buffer

end MarkedRegions
