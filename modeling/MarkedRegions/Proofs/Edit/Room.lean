import MarkedRegions.Proofs.Edit.Seams

/-!
# Edits have room

The only thing that can keep contents from being written is a machine that does not grant the room.
Every range of an edit in place lies within the buffer and every size within a word, because room is
made before anything is moved: a buffer that has been granted room for the longer contents is no
larger than a block of memory can be, and each offset of the edit is within its new length.

## Main definitions

* `Buffer.Fits`: what holds of every buffer that a machine has granted
* `Buffer.CanGrow`: whether the machine grants more room
* `Region.rewrite`, `Region.growth`: what a replacement leaves of a text, and how much more room it
  needs

## Main results

* `grow?_eq`: a buffer grows by exactly what is asked for, or not at all
* `splice?_eq`: an edit with room has a result
* `replace_eq`: a replacement is made exactly if its room is granted
* `exists_replace_of_small`: it is made if what it leaves fits a block
-/

namespace MarkedRegions

/-- **What a replacement leaves of a text** whose region it has found. -/
def Region.rewrite (region : Region) (text contents : Bytes) : Bytes :=
  text.take region.start ++ (contents ++ (region.addedSuffix ++ text.drop region.stop))

/-- By how much new contents outgrow those of a region, with the terminator that may be added. -/
def Region.growth (region : Region) (contents : Bytes) : Nat :=
  contents.length + region.addedSuffix.length - region.length

namespace Buffer

/-- **A buffer that a machine has granted**: its bytes have room, and the room is one block. -/
structure Fits (buffer : Buffer) : Prop where
  length_le : buffer.length ≤ buffer.capacity
  capacity_le : buffer.capacity ≤ Size.maxBlock

theorem fits_ofBytes {bytes : Bytes} (small : bytes.length ≤ Size.maxBlock) :
    (ofBytes bytes).Fits :=
  ⟨Nat.le_refl _, small⟩

/-- Twice a block and some more is still a word. -/
theorem maxBlock_lt_max : 2 * Size.maxBlock < Size.max := by decide

variable {allocator : Allocator} {region : Region} {contents : Bytes}
  {buffer edited : Buffer} {start stop target additional old new : Nat}

/-! ## Room is made -/

/-- **The machine grants as much room more** past the capacity, if it is asked for any. -/
def CanGrow (allocator : Allocator) (additional : Nat) (buffer : Buffer) : Prop :=
  0 < additional →
    buffer.capacity + additional ≤ Size.maxBlock ∧ allocator (buffer.capacity + additional)

instance : Decidable (buffer.CanGrow allocator additional) :=
  inferInstanceAs (Decidable (_ → _))

theorem canGrow_zero (buffer : Buffer) (allocator : Allocator) : buffer.CanGrow allocator 0 :=
  fun more => absurd more (Nat.lt_irrefl 0)

/-- **A buffer grows by exactly what is asked for**, or not at all: the block that is asked for holds
the capacity and the room past it, however much of the capacity is in use. -/
theorem grow?_eq (fits : buffer.Fits) (allocator : Allocator) (additional : Nat) :
    buffer.grow? allocator additional =
      if buffer.CanGrow allocator additional then
        some { buffer with capacity := buffer.capacity + additional }
      else none := by
  have length_le := fits.length_le
  have capacity_le := fits.capacity_le
  have words := maxBlock_lt_max
  rw [grow?, reserve?, Size.addSaturating]
  by_cases nothing : additional = 0
  · -- Nothing is asked for that is not there, so nothing is asked for.
    subst nothing
    rw [if_pos (by omega), if_pos (canGrow_zero buffer allocator), Nat.add_zero]
  · rw [if_neg (by omega)]
    by_cases block : buffer.capacity + additional ≤ Size.maxBlock
    · -- What fits a block has not been held at the largest word.
      have total : buffer.length + min (buffer.capacity - buffer.length + additional) Size.max =
          buffer.capacity + additional := by omega
      have asked : Size.add? buffer.length
          (min (buffer.capacity - buffer.length + additional) Size.max) =
            some (buffer.capacity + additional) := Size.add?_eq_some_iff.mpr ⟨by omega, total⟩
      have granted : buffer.CanGrow allocator additional ↔
          buffer.capacity + additional ≤ Size.maxBlock ∧
            allocator (buffer.capacity + additional) :=
        ⟨fun granted => granted (Nat.pos_of_ne_zero nothing), fun granted _ => granted⟩
      simp only [asked, granted]
    · rw [if_neg fun granted => block (granted (Nat.pos_of_ne_zero nothing)).1]
      cases asked : Size.add? buffer.length
        (min (buffer.capacity - buffer.length + additional) Size.max) with
      | none => rfl
      | some total =>
        obtain ⟨-, total_eq⟩ := Size.add?_eq_some_iff.mp asked
        exact if_neg fun granted => by have := granted.1; omega

/-- A buffer that has grown is still one block. -/
theorem Fits.grown (fits : buffer.Fits) (granted : buffer.CanGrow allocator additional) :
    (Buffer.mk buffer.bytes (buffer.capacity + additional)).Fits := by
  refine ⟨Nat.le_add_right_of_le fits.length_le, ?_⟩
  rcases Nat.eq_zero_or_pos additional with rfl | more
  · exact fits.capacity_le
  · exact (granted more).1

/-- **Room is made for all of the longer contents**, or refused. -/
theorem makeRoom_eq (fits : buffer.Fits) (allocator : Allocator) (old new : Nat) :
    buffer.makeRoom allocator old new =
      if buffer.CanGrow allocator (new - old) then
        .ok { buffer with capacity := buffer.capacity + (new - old) }
      else .error (.allocation (new - old)) := by
  rw [makeRoom]
  by_cases longer : old < new
  · rw [if_pos longer, grow?_eq fits]
    by_cases granted : buffer.CanGrow allocator (new - old)
    · rw [if_pos granted, if_pos granted]
    · rw [if_neg granted, if_neg granted]
  · have nothing : new - old = 0 := by omega
    rw [if_neg longer, nothing, if_pos (canGrow_zero buffer allocator), Nat.add_zero]

/-! ## Every step of an edit is within bounds -/

theorem exists_moveWithin? (ordered : start ≤ stop) (within : stop ≤ buffer.length)
    (within' : target + (stop - start) ≤ buffer.length) :
    ∃ moved, buffer.moveWithin? start stop target = some moved ∧
      moved.length = buffer.length ∧ moved.capacity = buffer.capacity := by
  rw [moveWithin?, if_pos ⟨ordered, within, within'⟩]
  refine ⟨_, rfl, ?_, rfl⟩
  simp only [length, List.length_append, List.length_take, List.length_drop] at within within' ⊢
  omega

theorem exists_overwrite? (ordered : start ≤ stop) (within : stop ≤ buffer.length)
    (size : contents.length = stop - start) :
    ∃ written, buffer.overwrite? start stop contents = some written ∧
      written.length = buffer.length ∧ written.capacity = buffer.capacity := by
  rw [overwrite?, if_pos ⟨ordered, within, size⟩]
  refine ⟨_, rfl, ?_, rfl⟩
  simp only [length, List.length_append, List.length_take, List.length_drop] at within ⊢
  omega

/-- **The tail of a buffer with room can be moved**, and the buffer does not grow beyond its room. -/
theorem exists_moveTail? (target : Nat) (fits : buffer.Fits) (within : stop ≤ buffer.length)
    (room : buffer.length + target ≤ buffer.capacity + stop) :
    ∃ moved, buffer.moveTail? stop target = some moved ∧
      moved.length + stop = buffer.length + target ∧ moved.capacity = buffer.capacity := by
  have capacity_le := fits.capacity_le
  have words := maxBlock_lt_max
  rcases Nat.lt_trichotomy stop target with later | rfl | earlier
  · -- Lengthened first, within the room there is.
    have growth : Size.sub? target stop = some (target - stop) :=
      Size.sub?_eq_some_iff.mpr ⟨later.le, rfl⟩
    have longer : Size.add? buffer.length (target - stop) =
        some (buffer.length + (target - stop)) :=
      Size.add?_eq_some_iff.mpr ⟨by omega, rfl⟩
    have resized : buffer.resize (buffer.length + (target - stop)) =
        ⟨buffer.bytes ++ List.replicate (target - stop) 0, buffer.capacity⟩ := by
      rw [resize, if_neg (by omega), capacityFor, if_pos (by omega), Nat.add_sub_cancel_left]
    have size : (buffer.resize (buffer.length + (target - stop))).length =
        buffer.length + (target - stop) := by
      rw [resized, length, List.length_append, List.length_replicate, ← length]
    obtain ⟨moved, done, length, capacity⟩ := exists_moveWithin? within
      (show buffer.length ≤ (buffer.resize (buffer.length + (target - stop))).length by omega)
      (show target + (buffer.length - stop) ≤ _ by omega)
    refine ⟨moved, ?_, by omega, by rw [capacity, resized]⟩
    simp only [moveTail?, if_pos later, growth, longer, bind, Option.bind_some, done]
  · exact ⟨buffer, by simp [moveTail?], rfl, rfl⟩
  · -- Shortened last.
    obtain ⟨moved, done, size, capacity⟩ := exists_moveWithin? within (Nat.le_refl _)
      (show target + (buffer.length - stop) ≤ _ by omega)
    have shrinking : Size.sub? stop target = some (stop - target) :=
      Size.sub?_eq_some_iff.mpr ⟨earlier.le, rfl⟩
    have shorter : Size.sub? buffer.length (stop - target) =
        some (buffer.length - (stop - target)) :=
      Size.sub?_eq_some_iff.mpr ⟨by omega, rfl⟩
    refine ⟨moved.truncate (buffer.length - (stop - target)), ?_, ?_, capacity⟩
    · simp only [moveTail?, if_neg (Nat.lt_asymm earlier), if_pos earlier, done, shrinking, shorter,
        bind, Option.bind_some, pure]
    · rw [truncate, length, List.length_take, ← length, size]
      omega

/-- **An edit with room has a result**, for no range or size of it is out of bounds, and it asks for
no more room. -/
theorem splice?_eq (contents suffix : Bytes) (fits : buffer.Fits) (ordered : start ≤ stop)
    (within : stop ≤ buffer.length)
    (room : buffer.length + (contents.length + suffix.length) ≤
      buffer.capacity + (stop - start)) :
    buffer.splice? start stop contents suffix =
      some ⟨buffer.bytes.take start ++ (contents ++ (suffix ++ buffer.bytes.drop stop)),
        buffer.capacity⟩ := by
  have capacity_le := fits.capacity_le
  have words := maxBlock_lt_max
  have inserted : Size.add? contents.length suffix.length =
      some (contents.length + suffix.length) := Size.add?_eq_some_iff.mpr ⟨by omega, rfl⟩
  have target : Size.add? start (contents.length + suffix.length) =
      some (start + (contents.length + suffix.length)) :=
    Size.add?_eq_some_iff.mpr ⟨by omega, rfl⟩
  have middle : Size.add? start contents.length = some (start + contents.length) :=
    Size.add?_eq_some_iff.mpr ⟨by omega, rfl⟩
  obtain ⟨moved, shifted, size, capacity⟩ :=
    exists_moveTail? (start + (contents.length + suffix.length)) fits within (by omega)
  obtain ⟨written, first, size', capacity'⟩ := exists_overwrite? (Nat.le_add_right start _)
    (show start + contents.length ≤ moved.length by omega) (Nat.add_sub_cancel_left ..).symm
  obtain ⟨edited, second, -, capacity''⟩ := exists_overwrite?
    (show start + contents.length ≤ start + (contents.length + suffix.length) by omega)
    (show _ ≤ written.length by omega) (show suffix.length = _ by omega)
  have done : buffer.splice? start stop contents suffix = some edited := by
    simp only [splice?, inserted, target, middle, shifted, first, second, bind, Option.bind_some]
  rw [done, ← splice?_bytes ordered within done, ← capacity, ← capacity', ← capacity'']

/-! ## Replacements -/

theorem length_addedSuffix_le (region : Region) : region.addedSuffix.length ≤ 2 := by
  rw [Region.addedSuffix]
  split
  · exact Nat.zero_le 2
  · cases region.ending <;> decide

variable {style : MarkerStyle} {marker : Bytes}

/-- **What a replacement of a region does.** It is made exactly if the machine grants the room by which
the new contents outgrow the old; then it leaves what an edit of the text would leave, and a buffer
with as much room more. -/
theorem replaceRegion_eq (fits : buffer.Fits)
    (word : contents.length + region.addedSuffix.length ≤ Size.max)
    (ordered : region.start ≤ region.stop) (within : region.stop ≤ buffer.length)
    (allocator : Allocator) :
    buffer.replaceRegion allocator region contents =
      if buffer.CanGrow allocator (region.growth contents) then
        .ok ⟨region.rewrite buffer.bytes contents, buffer.capacity + region.growth contents⟩
      else .error (.allocation (region.growth contents)) := by
  have new : Size.add? contents.length region.addedSuffix.length =
      some (contents.length + region.addedSuffix.length) := Size.add?_eq_some_iff.mpr ⟨word, rfl⟩
  have old : Size.sub? region.stop region.start = some region.length :=
    Size.sub?_eq_some_iff.mpr ⟨ordered, rfl⟩
  have roomy : buffer.makeRoom allocator region.length
      (contents.length + region.addedSuffix.length) =
        if buffer.CanGrow allocator (region.growth contents) then
          .ok { buffer with capacity := buffer.capacity + region.growth contents }
        else .error (.allocation (region.growth contents)) := makeRoom_eq fits allocator _ _
  simp only [replaceRegion, new, old, roomy, EditError.ofOption, bind, Except.bind]
  by_cases granted : buffer.CanGrow allocator (region.growth contents)
  · have room : buffer.length + (contents.length + region.addedSuffix.length) ≤
        buffer.capacity + region.growth contents + (region.stop - region.start) := by
      have length_le := fits.length_le
      rw [Region.growth, Region.length]
      omega
    simp only [if_pos granted, splice?_eq contents region.addedSuffix (fits.grown granted) ordered
      within room, Region.rewrite]
  · simp only [if_neg granted]

/-- A buffer whose region has been replaced is still one that a machine has granted. -/
theorem Fits.rewritten (fits : buffer.Fits) (ordered : region.start ≤ region.stop)
    (within : region.stop ≤ buffer.length)
    (granted : buffer.CanGrow allocator (region.growth contents)) :
    (Buffer.mk (region.rewrite buffer.bytes contents)
      (buffer.capacity + region.growth contents)).Fits := by
  refine ⟨?_, (fits.grown granted).capacity_le⟩
  have length_le := fits.length_le
  simp only [length, Region.rewrite, List.length_append, List.length_take, List.length_drop,
    Region.growth, Region.length] at within length_le ⊢
  omega

/-- What a replacement does where its region is found. -/
theorem replace_eq (fits : buffer.Fits) (small : contents.length ≤ Size.maxBlock)
    (found : buffer.find style marker = .ok region) (allocator : Allocator) :
    buffer.replace allocator style marker contents =
      if buffer.CanGrow allocator (region.growth contents) then
        .ok ⟨region.rewrite buffer.bytes contents, buffer.capacity + region.growth contents⟩
      else .error (.allocation (region.growth contents)) := by
  obtain ⟨seams⟩ := Scan.exists_seams found
  have words : Size.maxBlock + 2 ≤ Size.max := by decide
  have short := length_addedSuffix_le region
  rw [replace, found]
  exact replaceRegion_eq fits (by omega) seams.joins.ordered seams.joins.within allocator

/-- **Contents are written wherever their region is found**, unless the room for them is refused. -/
theorem replace_cases (fits : buffer.Fits) (small : contents.length ≤ Size.maxBlock)
    (found : buffer.find style marker = .ok region) (allocator : Allocator) :
    (∃ edited, buffer.replace allocator style marker contents = .ok edited ∧ edited.Fits) ∨
    ∃ requested, buffer.replace allocator style marker contents =
      .error (.allocation requested) := by
  rw [replace_eq fits small found allocator]
  by_cases granted : buffer.CanGrow allocator (region.growth contents)
  · obtain ⟨seams⟩ := Scan.exists_seams found
    exact .inl ⟨_, if_pos granted, fits.rewritten seams.joins.ordered seams.joins.within granted⟩
  · exact .inr ⟨_, if_neg granted⟩

/-- **A replacement is made if what it leaves fits a block**, in a buffer without spare room on a
machine that refuses no block. -/
theorem exists_replace_of_small {text : Bytes} (small : text.length ≤ Size.maxBlock)
    (found : Scan.find (style.query marker) text = .ok region)
    (room : (region.rewrite text contents).length ≤ Size.maxBlock) :
    ∃ edited, (ofBytes text).replace .generous style marker contents = .ok edited ∧
      edited.bytes = region.rewrite text contents := by
  obtain ⟨seams⟩ := Scan.exists_seams found
  have ordered := seams.joins.ordered
  have within := seams.joins.within
  simp only [Region.rewrite, List.length_append, List.length_take, List.length_drop] at room
  have granted : (ofBytes text).CanGrow .generous (region.growth contents) := by
    intro more
    refine ⟨?_, rfl⟩
    -- Where the text grows at all, it grows to the length of what is left.
    rw [Region.growth, Region.length] at more ⊢
    rw [capacity_ofBytes]
    omega
  exact ⟨_, (replace_eq (fits_ofBytes small) (by omega) found .generous).trans (if_pos granted), rfl⟩

/-- A buffer stays one that a machine has granted. -/
theorem Fits.replaced (fits : buffer.Fits) (small : contents.length ≤ Size.maxBlock)
    (replaced : buffer.replace allocator style marker contents = .ok edited) : edited.Fits := by
  obtain ⟨region, found, -⟩ := exists_rewritten replaced
  rcases replace_cases fits small found allocator with ⟨edited', done, fits'⟩ | ⟨requested, refused⟩
  · obtain rfl := Except.ok.inj (done.symm.trans replaced)
    exact fits'
  · rw [refused] at replaced
    cases replaced

end Buffer

end MarkedRegions
