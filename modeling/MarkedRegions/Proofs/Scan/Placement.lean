import MarkedRegions.Proofs.Scan.Success

/-!
# Where a region stands among other lines

The two lines that enclose a region are determined by the lines up to the second of them: what
follows has no say, and of what precedes it matters only that it is passed over. So a region keeps
its place when the lines behind it change, and moves along when lines are put in front of it, as far
as these lines do nothing to a scan for its name. In both cases its contents are the lines between
its two marker lines, which are the same.

## Main definitions

* `Region.shift`: a region with as many bytes more in front of it
* `Precedes`: one region lies before another

## Main results

* `Encloses.unique`: a name has one place among some lines
* `Encloses.apart_or_together`: two regions are apart, or one line closes both
* `Encloses.congr_take`: what follows a region has no say
* `encloses_append_iff`: what precedes a region must be passed over
* `between_append`: a region moves by the extent of the lines in front of it
* `contents?_between`: its contents are the lines between
-/

namespace MarkedRegions

/-- **A region with as many bytes more in front of it.** -/
def Region.shift (amount : Nat) (region : Region) : Region :=
  { region with start := region.start + amount, stop := region.stop + amount }

namespace Line

/-- Each line takes at least its terminator. -/
theorem offset_lt_offset (ending : LineEnding) {lines : List Bytes} {i j : Nat} (before : i < j)
    (inside : j ≤ lines.length) : offset ending lines i < offset ending lines j := by
  have parts : lines.take j = lines.take i ++ (lines.take j).drop i := by
    rw [← List.take_append_drop i (lines.take j), List.take_take, Nat.min_eq_left before.le,
      List.drop_left' (List.length_take_of_le (Nat.le_trans before.le inside))]
  have some_line : (lines.take j).drop i ≠ [] := by
    rw [ne_eq, List.drop_eq_nil_iff, List.length_take]
    omega
  obtain ⟨line, more, next⟩ := List.exists_cons_of_ne_nil some_line
  have positive := width_pos ending
  rw [offset_eq_extent, offset_eq_extent, parts, extent_append, next, extent_cons]
  omega

/-- Before any line but the first there is a terminator. -/
theorem width_le_offset (ending : LineEnding) {lines : List Bytes} {i : Nat} (positive : 0 < i)
    (inside : i ≤ lines.length) : ending.width ≤ offset ending lines i := by
  obtain ⟨line, lines, rfl⟩ := List.exists_cons_of_length_pos (Nat.lt_of_lt_of_le positive inside)
  obtain ⟨i, rfl⟩ := Nat.exists_eq_add_of_lt positive
  rw [Nat.zero_add, offset]
  omega

/-- Different lines start at different offsets. -/
theorem offset_inj {ending : LineEnding} {lines : List Bytes} {i j : Nat} (inside : i ≤ lines.length)
    (inside' : j ≤ lines.length) (same : offset ending lines i = offset ending lines j) : i = j := by
  rcases Nat.lt_trichotomy i j with before | rfl | behind
  · exact absurd same (offset_lt_offset ending before inside').ne
  · rfl
  · exact absurd same.symm (offset_lt_offset ending behind inside).ne

end Line

namespace Scan

open Line (Passes Opens Closes Malformed ClosesNothing cut extent extent_append offset)

variable {lead marker other : Bytes} {front lines lines' : List Bytes} {i j k l index : Nat}

/-- **One region lies before another**: the line that closes the one stands before the line that
opens the other. -/
def Precedes (lead : Bytes) (lines : List Bytes) (first second : Bytes) : Prop :=
  ∃ i j k l, Encloses lead first lines i j ∧ Encloses lead second lines k l ∧ j < k

/-! ## The place of a region -/

theorem Bounds.not_lt_of_opens (bounds : Bounds lead marker lines i j) {line : Bytes}
    (found : lines[k]? = some line) (opens : Opens lead marker line) : i ≤ k := by
  by_contra earlier
  have inside : line ∈ lines.take i := by
    apply List.mem_of_getElem? (i := k)
    rw [List.getElem?_take_of_lt (Nat.lt_of_not_le earlier), found]
  exact bounds.first line inside opens

theorem Bounds.not_lt_of_closes (bounds : Bounds lead marker lines i j) {line : Bytes}
    (behind : i < k) (found : lines[k]? = some line) (closes : Closes lead line) : j ≤ k := by
  by_contra earlier
  have inside : line ∈ (lines.take j).drop (i + 1) := by
    apply List.mem_of_getElem? (i := k - (i + 1))
    rw [List.getElem?_drop, Nat.add_sub_cancel' behind,
      List.getElem?_take_of_lt (Nat.lt_of_not_le earlier), found]
  exact bounds.next line inside closes

/-- **A name has one place** among some lines. -/
theorem Encloses.unique (encloses : Encloses lead marker lines i j)
    (encloses' : Encloses lead marker lines k l) : i = k ∧ j = l := by
  obtain ⟨opening, opened, opens⟩ := encloses.opened
  obtain ⟨opening', opened', opens'⟩ := encloses'.opened
  obtain ⟨closing, closed, closes⟩ := encloses.closed
  obtain ⟨closing', closed', closes'⟩ := encloses'.closed
  have same : i = k := Nat.le_antisymm
    (encloses.not_lt_of_opens opened' opens') (encloses'.not_lt_of_opens opened opens)
  subst same
  refine ⟨rfl, Nat.le_antisymm ?_ ?_⟩
  · exact encloses.not_lt_of_closes encloses'.ordered closed' closes'
  · exact encloses'.not_lt_of_closes encloses.ordered closed closes

theorem Encloses.lt_length (encloses : Encloses lead marker lines i j) : j < lines.length := by
  obtain ⟨closing, closed, -⟩ := encloses.closed
  exact (List.getElem?_eq_some_iff.mp closed).1

/-- **What follows a region has no say** in where it is. -/
theorem Encloses.congr_take (encloses : Encloses lead marker lines i j)
    (same : lines'.take (j + 1) = lines.take (j + 1)) : Encloses lead marker lines' i j := by
  obtain ⟨before, closing, after, rfl, rfl, behind, closes⟩ := encloses_iff.mp encloses
  have upTo : lines'.take (before.length + 1) = before ++ [closing] := by
    rw [same]
    exact List.take_length_add_append 1
  have parts : lines' = before ++ closing :: lines'.drop (before.length + 1) := by
    rw [← List.singleton_append, ← List.append_assoc, ← upTo, List.take_append_drop]
  exact encloses_iff.mpr ⟨before, closing, _, parts, rfl, behind, closes⟩

/-- Lines that are passed over in front of others. -/
theorem underway_append_iff :
    Underway lead marker (front ++ lines) (some (front.length + index)) ↔
      (∀ line ∈ front, Passes lead marker false line) ∧
        Underway lead marker lines (some index) := by
  simp only [underway_some_iff]
  constructor
  · rintro ⟨before, opening, inner, parts, length, idle, opens, inert⟩
    -- The opening line is not among the lines in front.
    obtain ⟨more, rfl⟩ : front <+: before :=
      List.prefix_of_prefix_length_le (List.prefix_append ..) ⟨_, parts.symm⟩ (by omega)
    rw [List.append_assoc] at parts
    rw [List.length_append] at length
    refine ⟨?_, more, opening, inner, List.append_cancel_left parts, by omega, ?_, opens, inert⟩
    · intro line inside
      exact idle line (List.mem_append_left _ inside)
    · intro line inside
      exact idle line (List.mem_append_right _ inside)
  · rintro ⟨passes, before, opening, inner, rfl, rfl, idle, opens, inert⟩
    refine ⟨front ++ before, opening, inner, (List.append_assoc ..).symm, List.length_append, ?_,
      opens, inert⟩
    intro line inside
    rcases List.mem_append.mp inside with earlier | later
    · exact passes line earlier
    · exact idle line later

/-- **What precedes a region must be passed over**, and the region moves along with it. -/
theorem encloses_append_iff :
    Encloses lead marker (front ++ lines) (front.length + i) (front.length + j) ↔
      (∀ line ∈ front, Passes lead marker false line) ∧ Encloses lead marker lines i j := by
  simp only [encloses_iff]
  constructor
  · rintro ⟨before, closing, after, parts, length, behind, closes⟩
    obtain ⟨more, rfl⟩ : front <+: before :=
      List.prefix_of_prefix_length_le (List.prefix_append ..) ⟨_, parts.symm⟩ (by omega)
    rw [List.append_assoc] at parts
    rw [List.length_append] at length
    obtain ⟨passes, behind⟩ := underway_append_iff.mp behind
    exact ⟨passes, more, closing, after, List.append_cancel_left parts, by omega, behind, closes⟩
  · rintro ⟨passes, before, closing, after, rfl, rfl, behind, closes⟩
    exact ⟨front ++ before, closing, after, (List.append_assoc ..).symm, List.length_append,
      underway_append_iff.mpr ⟨passes, behind⟩, closes⟩

/-! ## The region between two lines -/

/-- Where two lines enclose a region, it is found. -/
theorem Encloses.find_eq {ending : LineEnding} {text : Bytes}
    (encloses : Encloses lead marker lines i j) (style : LineEnding.ofText text = ending)
    (parts : cut ending text = lines) :
    find ⟨lead, marker⟩ text = .ok (.between ending lines i j) := by
  obtain ⟨before, closing, after, rfl, rfl, behind, closes⟩ := encloses_iff.mp encloses
  rw [find_eq_iff_course, style, parts, region_between_eq_upTo _ _ _ behind]
  exact .closes rfl behind closes

/-- Where a region is found, two lines enclose it. -/
theorem exists_encloses {text : Bytes} {region : Region}
    (found : find ⟨lead, marker⟩ text = .ok region) :
    ∃ i j, Encloses lead marker (cut (.ofText text) text) i j ∧
      region = .between (.ofText text) (cut (.ofText text) text) i j := by
  rw [find_eq_iff_course] at found
  cases found with
  | closes parts behind closes =>
    refine ⟨_, _, encloses_iff.mpr ⟨_, _, _, parts, rfl, behind, closes⟩, ?_⟩
    rw [parts, region_between_eq_upTo _ _ _ behind]

/-- The offsets of lines do not depend on the lines behind them. -/
theorem between_congr_take (ending : LineEnding) (ordered : i < j)
    (same : lines'.take j = lines.take j) :
    Region.between ending lines' i j = Region.between ending lines i j := by
  have same' : lines'.take (i + 1) = lines.take (i + 1) := by
    have upTo := congrArg (List.take (i + 1)) same
    rwa [List.take_take, List.take_take, Nat.min_eq_left (Nat.succ_le_of_lt ordered)] at upTo
  simp only [Region.between, Line.offset_eq_extent, same, same']

/-- **A region moves by the extent of the lines in front of it.** -/
theorem between_append (ending : LineEnding) (front : List Bytes) (ordered : i < j)
    (inside : j ≤ lines.length) :
    Region.between ending (front ++ lines) (front.length + i) (front.length + j) =
      (Region.between ending lines i j).shift (extent ending front) := by
  have moved (n : Nat) : offset ending (front ++ lines) (front.length + n) =
      offset ending lines n + extent ending front := by
    rw [Line.offset_eq_extent, Line.offset_eq_extent, List.take_length_add_append, extent_append,
      Nat.add_comm]
  have start := moved (i + 1)
  have stop := moved j
  rw [← Nat.add_assoc] at start
  have room := Line.width_le_offset ending (Nat.zero_lt_of_lt ordered) inside
  have adjacent : front.length + j = front.length + i + 1 ↔ j = i + 1 := by omega
  simp only [Region.between, Region.shift, start, stop, ne_eq, adjacent]
  by_cases next : j = i + 1
  · rw [if_pos next, if_pos next]
  · rw [if_neg next, if_neg next, Nat.sub_add_comm room]

/-- **The contents of a region are the lines between** its two marker lines, with terminators
between them. -/
theorem contents?_between {ending : LineEnding} {text : Bytes} (parts : cut ending text = lines)
    (ordered : i < j) (inside : j < lines.length) :
    (Region.between ending lines i j).contents? text =
      some (ending.bytes.intercalate ((lines.take j).drop (i + 1))) := by
  -- The lines up to the opening line, and the text that goes with them.
  have opened : lines.take (i + 1) ≠ [] := by
    apply List.ne_nil_of_length_pos
    rw [List.length_take]
    omega
  have closed : lines.drop j ≠ [] := by
    rwa [ne_eq, List.drop_eq_nil_iff, Nat.not_le]
  have upTo : lines.take j = lines.take (i + 1) ++ (lines.take j).drop (i + 1) := by
    rw [← List.take_append_drop (i + 1) (lines.take j), List.take_take,
      Nat.min_eq_left (Nat.succ_le_of_lt ordered), List.drop_left' (by rw [List.length_take]; omega)]
  have whole : lines = lines.take (i + 1) ++ ((lines.take j).drop (i + 1) ++ lines.drop j) := by
    rw [← List.append_assoc, ← upTo, List.take_append_drop]
  have start := Line.offset_eq_extent ending lines (i + 1)
  have stop := Line.offset_eq_extent ending lines j
  rw [upTo, extent_append, ← start] at stop
  obtain ⟨head, rest, rest_eq, cut_head, cut_rest⟩ :=
    Line.cut_eq_append (parts.trans whole) opened (by simp [closed])
  have head_length := Line.extent_cut ending head
  rw [cut_head, ← start, LineEnding.width, ← List.length_append] at head_length
  by_cases next : j = i + 1
  · -- No line is between the two, and nothing is between their offsets.
    subst next
    have none_between : (lines.take (i + 1)).drop (i + 1) = [] := by
      rw [List.drop_eq_nil_iff, List.length_take]
      omega
    rw [Region.between, if_pos rfl, Region.contents?, none_between, head_length, rest_eq,
      ← List.append_assoc, if_pos ⟨Nat.le_refl _, by simp⟩, List.take_left, List.drop_length]
    rfl
  · -- The text between the two terminators is cut into the lines between.
    have some_between : (lines.take j).drop (i + 1) ≠ [] := by
      rw [ne_eq, List.drop_eq_nil_iff, List.length_take]
      omega
    obtain ⟨body, tail, tail_eq, cut_body, -⟩ := Line.cut_eq_append cut_rest some_between closed
    have body_length := Line.extent_cut ending body
    have stop' : offset ending lines j - ending.width =
        (head ++ ending.bytes ++ body).length := by
      rw [stop, ← cut_body, body_length, head_length, ← Nat.add_assoc, Nat.add_sub_cancel,
        ← List.length_append]
    have parts' : text = head ++ ending.bytes ++ body ++ (ending.bytes ++ tail) := by
      simp only [rest_eq, tail_eq, List.append_assoc]
    rw [Region.between, if_neg next, Region.contents?, stop', head_length, parts',
      if_pos ⟨by simp, by simp⟩, List.take_left, List.drop_left, ← cut_body, Line.intercalate_cut]

/-! ## One region before another -/

/-- Behind the contents of a region and their terminator stands its closing line. -/
theorem between_stop_add_suffix (ending : LineEnding) (ordered : i < j) (inside : j ≤ lines.length) :
    (Region.between ending lines i j).stop + (Region.between ending lines i j).suffix.length =
      offset ending lines j := by
  have room := Line.width_le_offset ending (Nat.zero_lt_of_lt ordered) inside
  by_cases next : j = i + 1
  · simp [Region.between, Region.suffix, next]
  · rw [Region.between, Region.suffix, if_neg next, if_pos (by simpa using next)]
    exact Nat.sub_add_cancel room

/-- No line both opens and closes a region. -/
theorem not_closes_of_opens {line : Bytes} (opens : Opens lead marker line) :
    ¬ Line.Closes lead line := by
  intro closes
  obtain ⟨column, opening⟩ := Line.opens_iff.mp opens
  obtain ⟨name, column', closing⟩ := Line.closes_iff.mp closes
  rw [opening] at closing
  cases closing

/-- **Two regions are apart or end together.** The closing line of either is the first behind its
opening line that closes anything, so where one starts within the other, one line closes both. -/
theorem Encloses.apart_or_together (encloses : Encloses lead marker lines i j)
    (encloses' : Encloses lead other lines k l) : l < i ∨ j < k ∨ l = j := by
  obtain ⟨opening, opened, opens⟩ := encloses.opened
  obtain ⟨opening', opened', opens'⟩ := encloses'.opened
  obtain ⟨closing, closed, closes⟩ := encloses.closed
  obtain ⟨closing', closed', closes'⟩ := encloses'.closed
  by_cases before : l < i
  · exact .inl before
  by_cases behind : j < k
  · exact .inr (.inl behind)
  -- No line opens the one region and closes the other.
  have apart : i ≠ l := by
    rintro rfl
    obtain rfl := Option.some.inj (opened.symm.trans closed')
    exact not_closes_of_opens opens closes'
  have apart' : k ≠ j := by
    rintro rfl
    obtain rfl := Option.some.inj (opened'.symm.trans closed)
    exact not_closes_of_opens opens' closes
  have first : j ≤ l := encloses.not_lt_of_closes (by omega) closed' closes'
  have first' : l ≤ j := encloses'.not_lt_of_closes (by omega) closed closes
  exact .inr (.inr (Nat.le_antisymm first' first))

/-- **One region lies before another** if and only if its closing line starts before the other's
contents. -/
theorem precedes_iff {text : Bytes} {region region' : Region}
    (found : find ⟨lead, marker⟩ text = .ok region) (found' : find ⟨lead, other⟩ text = .ok region') :
    Precedes lead (cut (.ofText text) text) marker other ↔
      region.stop + region.suffix.length < region'.start := by
  obtain ⟨i, j, encloses, rfl⟩ := exists_encloses found
  obtain ⟨k, l, encloses', rfl⟩ := exists_encloses found'
  have inside := encloses.lt_length
  have inside' := encloses'.ordered.trans encloses'.lt_length
  rw [between_stop_add_suffix _ encloses.ordered inside.le]
  constructor
  · rintro ⟨i', j', k', l', around, around', apart⟩
    obtain ⟨-, rfl⟩ := around.unique encloses
    obtain ⟨rfl, -⟩ := around'.unique encloses'
    exact Line.offset_lt_offset _ (Nat.lt_succ_of_lt apart) inside'
  · intro before
    refine ⟨i, j, k, l, encloses, encloses', ?_⟩
    have apart : j ≤ k := by
      by_contra later
      rcases Nat.lt_or_eq_of_le (Nat.succ_le_of_lt (Nat.lt_of_not_le later)) with later | same
      · exact Nat.lt_asymm before (Line.offset_lt_offset _ later inside.le)
      · exact absurd before (by rw [← same]; exact Nat.lt_irrefl _)
    rcases Nat.lt_or_eq_of_le apart with apart | rfl
    · exact apart
    · -- One line would have to do both.
      obtain ⟨closing, closed, closes⟩ := encloses.closed
      obtain ⟨opening, opened, opens⟩ := encloses'.opened
      obtain rfl := Option.some.inj (closed.symm.trans opened)
      exact absurd closes (not_closes_of_opens opens)

end Scan

end MarkedRegions
