import MarkedRegions.Proofs.Edit.Room
import MarkedRegions.Proofs.Scan.Invariant

/-!
# Nothing leaves its bounds

A scan and the edit after it do arithmetic on words and look into buffers at offsets, and neither
asks before it does. Both are right not to. What a scan counts is counted byte by byte, so it is no
larger than the text, and a text that fits a block leaves half of the words to spare. An edit adds up
lengths, each of which fits a block, but whose sum with an offset may pass the largest word; that it
does not is due to the order of the steps, for a sum that no block can hold is refused when room is
made for it, before any offset is computed from it.

## Main definitions

* `State.InBounds`: what a scan does next stays in bounds
* `Buffer.EditsInBounds`: so does every step of an edit

## Main results

* `Sound.inBounds`: what holds of a scan keeps it in bounds
* `editsInBounds`: a region that is found is edited in bounds
* `replace_in_bounds`: the two together
-/

namespace MarkedRegions

namespace Scan

/-- **What a scan does next stays in bounds**: the place in the lead that the next byte is compared
with, the counters after that byte, and the offset at which a region would stop. -/
structure State.InBounds (lead : Bytes) (state : State) : Prop where
  matched : ∀ matched, state.reader.phase = .lead matched →
    matched < lead.length ∧ matched + 1 ≤ Size.max
  offset : state.offset + 1 ≤ Size.max
  line : state.line + 1 ≤ Size.max
  column : state.reader.column + 1 ≤ Size.max
  nameColumn : state.reader.nameColumn + 1 ≤ Size.max
  commandColumn : state.reader.commandColumn + 1 ≤ Size.max
  name : state.reader.name.length ≤ maxNameLength
  -- The style is known whenever a region is open, and it is open at or before the current line.
  settled : ∀ start, state.start = some start → state.ending.isSome ∧ start ≤ state.lineStart
  -- Where there is a line in the region, its terminator is.
  stop : ∀ start, state.start = some start → start < state.lineStart →
    ∃ stop, Size.sub? state.lineStart state.endingOrDefault.width = some stop ∧ start ≤ stop

/-- **What holds of a scan keeps it in bounds**, as long as what it has read fits a block. -/
theorem State.Sound.inBounds {lead : Bytes} {state : State} (sound : state.Sound lead)
    (small : state.offset ≤ Size.maxBlock) : state.InBounds lead := by
  have words : Size.maxBlock + 1 ≤ Size.max := by decide
  have offset := sound.offset_eq
  have line := sound.line_le
  have nameColumn := sound.reader.nameColumn_le
  have commandColumn := sound.reader.commandColumn_le
  refine ⟨?_, by omega, by omega, by omega, by omega, by omega, sound.reader.name_le, ?_, ?_⟩
  · intro matched phase
    have matched_le := sound.reader.matched_le matched phase
    exact ⟨sound.reader.matched_lt matched phase, by omega⟩
  · intro start opened
    exact ⟨Option.isSome_iff_exists.mpr (sound.settled start opened), sound.start_le start opened⟩
  · intro start opened behind
    have room := sound.room start opened behind
    exact ⟨_, Size.sub?_eq_some_iff.mpr ⟨by omega, rfl⟩, by omega⟩

end Scan

namespace Buffer

variable {allocator : Allocator} {style : MarkerStyle} {marker contents : Bytes} {buffer : Buffer}
  {region : Region}

/-- **Every step of an edit stays in bounds.** The region lies within the buffer, the two lengths are
exact, and once room has been made, the room is one block that holds the whole result; so the edit
has a result, which is as long as the lengths say and needs no more room. -/
structure EditsInBounds (allocator : Allocator) (region : Region) (contents : Bytes)
    (buffer : Buffer) : Prop where
  ordered : region.start ≤ region.stop
  within : region.stop ≤ buffer.length
  read : ∃ own, region.contents? buffer.bytes = some own
  old : Size.sub? region.stop region.start = some region.length
  new : Size.add? contents.length region.addedSuffix.length =
    some (contents.length + region.addedSuffix.length)
  edit : ∀ roomy,
    buffer.makeRoom allocator region.length (contents.length + region.addedSuffix.length) =
      .ok roomy →
    roomy.capacity ≤ Size.maxBlock ∧
      region.start + (contents.length + region.addedSuffix.length) ≤ roomy.capacity ∧
      ∃ edited, roomy.splice? region.start region.stop contents region.addedSuffix = some edited ∧
        edited.length + region.length =
          buffer.length + (contents.length + region.addedSuffix.length) ∧
        edited.length ≤ edited.capacity ∧ edited.capacity = roomy.capacity

/-- **A region that is found is edited in bounds.** -/
theorem editsInBounds (fits : buffer.Fits) (small : contents.length ≤ Size.maxBlock)
    (found : buffer.find style marker = .ok region) (allocator : Allocator) :
    buffer.EditsInBounds allocator region contents := by
  obtain ⟨seams⟩ := Scan.exists_seams found
  have ordered := seams.joins.ordered
  have within : region.stop ≤ buffer.length := seams.joins.within
  have words : Size.maxBlock + 2 ≤ Size.max := by decide
  have short := length_addedSuffix_le region
  refine ⟨ordered, within, ⟨_, Region.contents?_eq_some_contents ordered within⟩,
    Size.sub?_eq_some_iff.mpr ⟨ordered, rfl⟩, Size.add?_eq_some_iff.mpr ⟨by omega, rfl⟩, ?_⟩
  intro roomy made
  rw [makeRoom_eq fits] at made
  split at made
  · next granted =>
    cases made
    have length_le := fits.length_le
    have roomy := fits.grown granted
    have room : buffer.length + (contents.length + region.addedSuffix.length) ≤
        buffer.capacity + (contents.length + region.addedSuffix.length - region.length) +
          (region.stop - region.start) := by
      rw [Region.length]
      omega
    refine ⟨roomy.capacity_le, ?_, _,
      splice?_eq contents region.addedSuffix roomy ordered within room, ?_, ?_, rfl⟩
    all_goals
      simp only [length, Region.length, List.length_append, List.length_take, List.length_drop]
        at within length_le room ⊢
      omega
  · cases made

/-- **Nothing leaves its bounds.** Whatever part of a buffer a scan has read, what it does next, as it
goes on with the rest, stays in bounds; every region that it finds is edited in bounds; and so no
replacement fails for leaving them. -/
theorem replace_in_bounds (fits : buffer.Fits) (small : contents.length ≤ Size.maxBlock)
    (allocator : Allocator) (style : MarkerStyle) (marker : Bytes) :
    (∀ read rest, buffer.bytes = read ++ rest → ∀ state,
      Scan.run (style.query marker) (.initial (style.query marker)) read = .ok state →
        Scan.run (style.query marker) (.initial (style.query marker)) buffer.bytes =
          Scan.run (style.query marker) state rest ∧
        state.InBounds style.lead) ∧
    (∀ region, buffer.find style marker = .ok region →
      buffer.EditsInBounds allocator region contents) ∧
    buffer.replace allocator style marker contents ≠ .error .outOfBounds := by
  refine ⟨?_, ?_, ?_⟩
  · intro read rest parts state ran
    obtain ⟨sound, offset_le⟩ := (Scan.sound_initial (style.query marker)).run ran
    refine ⟨by rw [parts, Scan.run_append ran], sound.inBounds ?_⟩
    have length_le := fits.length_le
    have capacity_le := fits.capacity_le
    have none_yet : (Scan.State.initial (style.query marker)).offset = 0 := rfl
    rw [length, parts, List.length_append] at length_le
    omega
  · intro region found
    exact editsInBounds fits small found allocator
  · cases found : buffer.find style marker with
    | error cause => simp [replace, found]
    | ok region =>
      rcases replace_cases fits small found allocator with ⟨edited, done, -⟩ | ⟨requested, refused⟩
      · simp [done]
      · simp [refused]

/-- A lead of nothing, and a closing line behind an empty line in a text whose lines end in two bytes:
the region stops where it starts, exactly one terminator before its closing line. -/
theorem replace_in_bounds_of_empty_line :
    ∃ state,
      Scan.run ⟨[], [0x74]⟩ (.initial ⟨[], [0x74]⟩) [0x7b, 0x74, 0x0d, 0x0a, 0x0d, 0x0a] =
        .ok state ∧
      state.start = some 4 ∧ state.lineStart = 6 ∧ state.InBounds [] ∧
      (ofBytes [0x7b, 0x74, 0x0d, 0x0a, 0x0d, 0x0a, 0x7d, 0x74]).EditsInBounds .generous
        ⟨4, 4, .crlf, true⟩ [0x78] := by
  have small : [(0x78 : UInt8)].length ≤ Size.maxBlock := by decide
  have fits : (ofBytes [0x7b, 0x74, 0x0d, 0x0a, 0x0d, 0x0a, 0x7d, 0x74]).Fits :=
    fits_ofBytes (by decide)
  obtain ⟨scans, edits, -⟩ := replace_in_bounds fits small .generous ⟨[]⟩ [0x74]
  have parts : (ofBytes [0x7b, 0x74, 0x0d, 0x0a, 0x0d, 0x0a, 0x7d, 0x74]).bytes =
      [0x7b, 0x74, 0x0d, 0x0a, 0x0d, 0x0a] ++ [0x7d, 0x74] := rfl
  exact ⟨_, rfl, rfl, rfl, (scans _ _ parts _ rfl).2, edits _ rfl⟩

end Buffer

end MarkedRegions
