import MarkedRegions.Proofs.Scan.Course

/-!
# When a region is found

A region is found exactly where the lines of a text hold it: an opening line for its name, the
first one there is; then the first closing line that gives a name, whichever name that is; and
nothing up to that line that is malformed, closes without a name, or opens the name once more. The
offsets that are found are those of the two lines, and nothing behind the closing line has a say.

The conditions are stated on the lines by their indices, in the words of the productions, so that
neither the automaton nor the order of the scan is left in them.

## Main definitions

* `Bounds`: the two lines that would bound a region
* `Encloses`: the two lines bound it and nothing speaks against it
* `Region.between`: the region between two lines

## Main results

* `find_eq_ok_iff_encloses`: what is found, and when
-/

namespace MarkedRegions

/-- **The region between two lines**, by their indices: from the end of the one to the start of the
other, less the terminator of the last line in between, if there is a line in between. -/
def Region.between (ending : LineEnding) (lines : List Bytes) (i j : Nat) : Region where
  start := Line.offset ending lines (i + 1)
  stop :=
    if j = i + 1 then Line.offset ending lines j else Line.offset ending lines j - ending.width
  ending
  trailing := j ≠ i + 1

namespace Scan

open Line (Passes Opens Closes Malformed ClosesNothing extent offset)

/-- **The two lines that would bound a region**: the first that opens it, and the first after that
which closes any region. -/
structure Bounds (lead marker : Bytes) (lines : List Bytes) (i j : Nat) : Prop where
  opened : ∃ line, lines[i]? = some line ∧ Opens lead marker line
  first : ∀ line ∈ lines.take i, ¬ Opens lead marker line
  ordered : i < j
  closed : ∃ line, lines[j]? = some line ∧ Closes lead line
  next : ∀ line ∈ (lines.take j).drop (i + 1), ¬ Closes lead line

/-- **Two lines enclose a region**: they would bound it, all lines up to the second are in order,
and none between them opens the region again. -/
structure Encloses (lead marker : Bytes) (lines : List Bytes) (i j : Nat) : Prop
    extends Bounds lead marker lines i j where
  sound : ∀ line ∈ lines.take (j + 1), ¬ Malformed lead line ∧ ¬ ClosesNothing lead line
  once : ∀ line ∈ (lines.take j).drop (i + 1), ¬ Opens lead marker line

variable {lead marker : Bytes} {lines : List Bytes} {i j : Nat}

theorem lines_eq_of_getElem? {line : Bytes} (found : lines[j]? = some line) :
    lines = lines.take j ++ line :: lines.drop (j + 1) := by
  obtain ⟨inside, rfl⟩ := List.getElem?_eq_some_iff.mp found
  rw [← List.drop_eq_getElem_cons inside, List.take_append_drop]

theorem Bounds.underway_iff (bounds : Bounds lead marker lines i j) :
    Underway lead marker (lines.take j) (some i) ↔
      (∀ line ∈ lines.take i, Passes lead marker false line) ∧
        ∀ line ∈ (lines.take j).drop (i + 1), Passes lead marker true line := by
  obtain ⟨opening, found, opens⟩ := bounds.opened
  have ordered := bounds.ordered
  -- The opening line sets apart what is outside the region and what is inside.
  have within : (lines.take j)[i]? = some opening := by rw [List.getElem?_take_of_lt ordered, found]
  have inside : i < lines.length := (List.getElem?_eq_some_iff.mp found).1
  have length : (lines.take i).length = i := by rw [List.length_take]; omega
  have parts : lines.take j = lines.take i ++ opening :: (lines.take j).drop (i + 1) := by
    have parts := lines_eq_of_getElem? within
    rwa [List.take_take, Nat.min_eq_left ordered.le] at parts
  rw [underway_some_iff]
  constructor
  · rintro ⟨before, opening', inner, parts', length', idle, -, inert⟩
    obtain ⟨same, rest⟩ := List.append_inj (parts.symm.trans parts') (length.trans length'.symm)
    obtain ⟨-, same'⟩ := List.cons.inj rest
    exact ⟨same ▸ idle, same' ▸ inert⟩
  · rintro ⟨idle, inert⟩
    exact ⟨_, opening, _, parts, length, idle, opens, inert⟩

/-- **Enclosing lines are a course of the scan** that ends with the second of them. -/
theorem encloses_iff :
    Encloses lead marker lines i j ↔
      ∃ before line after, lines = before ++ line :: after ∧ before.length = j ∧
        Underway lead marker before (some i) ∧ Closes lead line := by
  constructor
  · -- Every line before the second is passed over, but for the first.
    intro encloses
    obtain ⟨line, found, closes⟩ := encloses.closed
    have ordered := encloses.ordered
    have inside : j < lines.length := (List.getElem?_eq_some_iff.mp found).1
    refine ⟨lines.take j, line, lines.drop (j + 1), lines_eq_of_getElem? found,
      by rw [List.length_take]; omega, encloses.underway_iff.mpr ⟨?_, ?_⟩, closes⟩
    · intro line inside
      have sound := encloses.sound line (List.take_subset_take_left lines (by omega) inside)
      exact Line.passes_iff.mpr ⟨sound.1, sound.2, encloses.first line inside, nofun⟩
    · intro line inside
      have sound := encloses.sound line
        (List.take_subset_take_left lines (by omega) (List.mem_of_mem_drop inside))
      exact Line.passes_iff.mpr
        ⟨sound.1, sound.2, encloses.once line inside, fun _ => encloses.next line inside⟩
  · -- What is asked of the lines before the second is what it means to be passed over.
    rintro ⟨before, line, after, rfl, rfl, behind, closes⟩
    obtain ⟨before, opening, inner, rfl, rfl, idle, opens, inert⟩ := underway_some_iff.mp behind
    have between : ((before ++ opening :: inner ++ line :: after).take
        (before ++ opening :: inner).length).drop (before.length + 1) = inner := by
      rw [List.take_left, ← List.singleton_append, ← List.append_assoc]
      exact List.drop_left' (by simp)
    refine ⟨⟨⟨opening, by simp, opens⟩, ?_, by simp, ⟨line, by simp, closes⟩, ?_⟩, ?_, ?_⟩
    · intro line' inside
      rw [List.append_assoc, List.take_left] at inside
      exact (idle line' inside).not_opens
    · intro line' inside
      rw [between] at inside
      exact (inert line' inside).not_closes
    · intro line' inside
      rw [List.take_length_add_append, List.take_one] at inside
      simp only [List.head?_cons, Option.toList_some, List.mem_append, List.mem_cons,
        List.not_mem_nil, or_false] at inside
      rcases inside with (earlier | rfl | later) | rfl
      · exact (idle line' earlier).sound
      · exact opens.sound
      · exact (inert line' later).sound
      · exact closes.sound
    · intro line' inside
      rw [between] at inside
      exact (inert line' inside).not_opens

/-- The offsets of a course are those of its two lines. -/
theorem region_between_eq_upTo (ending : LineEnding) {before : List Bytes} (line : Bytes)
    (after : List Bytes) {index : Nat} (behind : Underway lead marker before (some index)) :
    Region.between ending (before ++ line :: after) index before.length =
      .upTo ending (extent ending (before.take (index + 1))) (extent ending before) := by
  obtain ⟨before, opening, inner, rfl, rfl, -⟩ := underway_some_iff.mp behind
  have opened : (before ++ opening :: inner).take (before.length + 1) = before ++ [opening] :=
    List.take_length_add_append 1
  have start : (before ++ opening :: inner ++ line :: after).take (before.length + 1) =
      before ++ [opening] := by
    rw [List.take_append_of_le_length (by simp), opened]
  have stop : (before ++ opening :: inner ++ line :: after).take
      (before ++ opening :: inner).length = before ++ opening :: inner := List.take_left
  rw [Region.between, Line.offset_eq_extent, Line.offset_eq_extent, start, stop, opened]
  -- The closing line starts behind the region exactly if there is a line between the two.
  cases inner with
  | nil => simp [Region.upTo]
  | cons first inner =>
    have longer : extent ending (before ++ [opening]) <
        extent ending (before ++ opening :: first :: inner) := by
      have := Line.width_pos ending
      simp
      omega
    have apart : (before ++ opening :: first :: inner).length ≠ before.length + 1 := by simp
    rw [Region.upTo, if_pos longer, if_neg apart, decide_eq_true apart]

/-- **What is found, and when.** A scan finds a region if and only if two lines of its text enclose
one, and it finds the region between these two. -/
theorem find_eq_ok_iff_encloses (query : Query) (text : Bytes) (region : Region) :
    find query text = .ok region ↔
      ∃ i j,
        Encloses query.lead query.marker (Line.cut (.ofText text) text) i j ∧
          region = Region.between (.ofText text) (Line.cut (.ofText text) text) i j := by
  rw [find_eq_iff_course]
  constructor
  · intro course
    cases course with
    | closes parts behind closes =>
      refine ⟨_, _, encloses_iff.mpr ⟨_, _, _, parts, rfl, behind, closes⟩, ?_⟩
      rw [parts, region_between_eq_upTo _ _ _ behind]
  · rintro ⟨i, j, encloses, rfl⟩
    obtain ⟨before, line, after, parts, rfl, behind, closes⟩ := encloses_iff.mp encloses
    rw [parts, region_between_eq_upTo _ _ _ behind]
    exact .closes rfl behind closes

end Scan

end MarkedRegions
