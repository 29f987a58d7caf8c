import MarkedRegions.Proofs.Edit.Parts
import MarkedRegions.Proofs.Edit.Reread
import MarkedRegions.Proofs.Edit.Room

/-!
# Writing back what is there

A region whose own contents are written back stays as it is if a terminator stands behind them. If
none does, then there is no line in the region; one terminator is added, which makes its empty
contents an empty line, and from then on the region stays as it is. The empty line is no marker line
in any style, even where a marker line may begin with the bytes of a terminator, or with nothing but
its brace: an empty line has no brace.

## Main results

* `replace_own`: a region with a line in it stays as it is
* `replace_bare`: a region without one gets an empty line
* `replace_own_contents`: writing back is done after at most one change
-/

namespace MarkedRegions

/-- **Nothing is inert**: an empty line has no brace, whatever the lead. -/
theorem Line.isInert_nil (lead marker : Bytes) (ending : LineEnding) :
    IsInert lead marker ending [] := by
  have lines : cut ending [] = [[]] := by cases ending <;> rfl
  intro line inside
  rw [lines, List.mem_singleton] at inside
  subst inside
  rw [kind]
  split
  · rw [List.drop_nil]
    rfl
  · rfl

namespace Buffer

open Line (cut)
open Scan (Encloses Seams)

variable {allocator : Allocator} {style : MarkerStyle} {marker own : Bytes} {buffer : Buffer}
  {region : Region}

/-- **A region with a line in it stays as it is**, whatever the machine would grant. -/
theorem replace_own (fits : buffer.Fits) (found : buffer.find style marker = .ok region)
    (kept : region.trailing = true) (read : region.contents? buffer.bytes = some own)
    (allocator : Allocator) : buffer.replace allocator style marker own = .ok buffer := by
  obtain ⟨seams⟩ := Scan.exists_seams found
  have joins := seams.joins
  have same : region.contents buffer.bytes = own :=
    Option.some.inj ((Region.contents?_eq_some_contents joins.ordered joins.within).symm.trans read)
  have suffix : region.addedSuffix = [] := by rw [Region.addedSuffix, kept, if_pos rfl]
  have length : own.length = region.length := Seams.length_of_contents? read
  have unchanged : region.growth own = 0 := by
    rw [Region.growth, suffix, length, List.length_nil, Nat.add_zero, Nat.sub_self]
  have small : own.length ≤ Size.maxBlock := by
    have within : region.stop ≤ buffer.length := joins.within
    have length_le := fits.length_le
    have capacity_le := fits.capacity_le
    rw [length, Region.length]
    omega
  have whole : region.rewrite buffer.bytes own = buffer.bytes := by
    rw [Region.rewrite, suffix, ← same, List.nil_append,
      Region.take_contents_drop joins.ordered joins.within]
  rw [replace_eq fits small found, unchanged, if_pos (canGrow_zero buffer allocator), whole,
    Nat.add_zero]

/-- The contents of a region without a line. -/
theorem contents?_bare (found : buffer.find style marker = .ok region)
    (bare : region.trailing = false) : region.contents? buffer.bytes = some [] := by
  obtain ⟨seams⟩ := Scan.exists_seams found
  have joins := seams.joins
  rw [Region.contents?_eq_some_contents joins.ordered joins.within, Region.contents,
    ← Scan.start_eq_stop found bare, List.drop_take, Nat.sub_self, List.take_zero]

/-- **A region without a line gets an empty one**, if the machine grants the room for its
terminator. -/
theorem replace_bare (fits : buffer.Fits) (found : buffer.find style marker = .ok region)
    (bare : region.trailing = false) (granted : buffer.CanGrow allocator region.ending.width) :
    ∃ edited, buffer.replace allocator style marker [] = .ok edited ∧ edited.Fits ∧
      edited.bytes = buffer.bytes.take region.start ++
        ((LineEnding.ofText buffer.bytes).bytes ++ buffer.bytes.drop region.start) := by
  obtain ⟨seams⟩ := Scan.exists_seams found
  have empty : region.start = region.stop := Scan.start_eq_stop found bare
  have suffix : region.addedSuffix = region.ending.bytes := by
    rw [Region.addedSuffix, bare, if_neg Bool.false_ne_true]
  have growth : region.growth [] = region.ending.width := by
    rw [Region.growth, Region.length, suffix, ← empty, Nat.sub_self, List.length_nil, Nat.zero_add]
    rfl
  have small : ([] : Bytes).length ≤ Size.maxBlock := Nat.zero_le _
  have replaced := replace_eq fits small found allocator
  rw [growth, if_pos granted, Region.rewrite, suffix, ← empty, seams.joins.ending_eq] at replaced
  exact ⟨_, replaced, fits.replaced small replaced, rfl⟩

/-- **Writing back is done after at most one change.** A region's own contents can be written back,
where there is no line in it as far as the machine grants the room for a terminator. This changes
nothing if and only if a terminator stands behind the contents. Otherwise the closing line follows
directly on the opening line, and what is changed is that one terminator of the text's style stands
where the region starts. In either case the same contents are found where the region started, with a
terminator behind them, and writing them back once more changes nothing. -/
theorem replace_own_contents (fits : buffer.Fits) (found : buffer.find style marker = .ok region)
    (granted : region.trailing = false → buffer.CanGrow allocator region.ending.width) :
    ∃ own edited again,
      region.contents? buffer.bytes = some own ∧
      buffer.replace allocator style marker own = .ok edited ∧
      (edited.bytes = buffer.bytes ↔ region.trailing = true) ∧
      (region.trailing = false →
        (∃ i, Encloses style.lead marker (cut (.ofText buffer.bytes) buffer.bytes) i (i + 1)) ∧
        edited.bytes = buffer.bytes.take region.start ++
          ((LineEnding.ofText buffer.bytes).bytes ++ buffer.bytes.drop region.start)) ∧
      edited.find style marker = .ok again ∧
      again.start = region.start ∧ again.contents? edited.bytes = some own ∧
      again.trailing = true ∧
      ∀ allocator', edited.replace allocator' style marker own = .ok edited := by
  cases kept : region.trailing with
  | true =>
    obtain ⟨seams⟩ := Scan.exists_seams found
    have joins := seams.joins
    have read := Region.contents?_eq_some_contents joins.ordered joins.within
    have again := replace_own fits found kept read
    exact ⟨_, buffer, region, read, again allocator, by simp, nofun, found, rfl, read, kept, again⟩
  | false =>
    have read := contents?_bare found kept
    obtain ⟨edited, replaced, fits', bytes⟩ := replace_bare fits found kept (granted kept)
    obtain ⟨region', found', seams, rewritten⟩ := exists_rewritten replaced
    obtain rfl := Except.ok.inj (found'.symm.trans found)
    -- The empty line is inert, so it is found where it was written.
    have again := seams.find_rewritten_of_inert (Line.isInert_nil _ _ _)
    have read' := seams.contents?_rewritten [] region'.ending true
    rw [← rewritten] at again read'
    have longer : edited.bytes ≠ buffer.bytes := by
      intro same
      have size := congrArg List.length bytes
      have positive := Line.width_pos (.ofText buffer.bytes)
      rw [same, List.length_append, List.length_append, ← LineEnding.width, List.length_take,
        List.length_drop] at size
      omega
    refine ⟨[], edited, _, read, replaced, by simp [longer], ?_, again, rfl, read', rfl,
      replace_own fits' again rfl read'⟩
    intro _
    obtain ⟨i, j, encloses, same⟩ := Scan.exists_encloses found
    have next : j = i + 1 := by
      rw [same] at kept
      simpa [Region.between] using kept
    exact ⟨⟨i, next ▸ encloses⟩, bytes⟩

/-- Marker lines that begin with a carriage return, in a text whose lines end in one and a line feed:
the terminator that is added is no marker line, and is all the room that is asked for. -/
theorem replace_own_contents_of_returning_lead :
    ∃ edited again,
      (ofBytes [0x0d, 0x7b, 0x74, 0x0d, 0x0a, 0x0d, 0x7d, 0x74]).replace (.below 11) ⟨[0x0d]⟩ [0x74]
        [] = .ok edited ∧
      edited.bytes =
        [0x0d, 0x7b, 0x74, 0x0d, 0x0a] ++ ([0x0d, 0x0a] ++ [0x0d, 0x7d, 0x74]) ∧
      edited.find ⟨[0x0d]⟩ [0x74] = .ok again ∧ again.start = 5 ∧ again.trailing = true ∧
      ∀ allocator, edited.replace allocator ⟨[0x0d]⟩ [0x74] [] = .ok edited := by
  have found : (ofBytes [0x0d, 0x7b, 0x74, 0x0d, 0x0a, 0x0d, 0x7d, 0x74]).find ⟨[0x0d]⟩ [0x74] =
      .ok ⟨5, 5, .crlf, false⟩ := rfl
  have granted : (ofBytes [0x0d, 0x7b, 0x74, 0x0d, 0x0a, 0x0d, 0x7d, 0x74]).CanGrow (.below 11)
      (LineEnding.width .crlf) := by decide
  obtain ⟨own, edited, again, read, replaced, -, added, found', start, -, trailing, still⟩ :=
    replace_own_contents (fits_ofBytes (by decide)) found fun _ => granted
  obtain rfl : [] = own := Option.some.inj read
  exact ⟨edited, again, replaced, (added rfl).2, found', start, trailing, still⟩

end Buffer

end MarkedRegions
