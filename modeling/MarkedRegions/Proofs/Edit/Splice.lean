import MarkedRegions.Edit

/-!
# What an edit in place leaves

An edit in place moves the tail of a buffer over itself, forwards or backwards, and writes the new
bytes into the gap. What it leaves is what an edit that builds a new text would leave: the bytes
before the span, the new bytes, and the bytes behind the span. Whichever way the tail moves, and
however far it overlaps its own target, the tail arrives as it was and the bytes before the span
stay where they are; the bytes in the gap are overwritten to the last.

## Main results

* `moveTail?_bytes`: the tail behind a gap of the right size
* `splice?_bytes`: the bytes of an edited buffer
* `replaceRegion_bytes`: the bytes of a buffer whose region has been replaced
-/

namespace MarkedRegions.Buffer

variable {buffer moved written edited : Buffer} {start stop target length : Nat}

/-- A buffer that is lengthened keeps its bytes. -/
theorem bytes_resize (longer : buffer.length ≤ length) :
    (buffer.resize length).bytes =
      buffer.bytes ++ List.replicate (length - buffer.length) 0 := by
  rcases Nat.lt_or_eq_of_le longer with longer | rfl
  · rw [resize, if_neg (Nat.not_le.mpr longer)]
  · rw [resize, if_pos (Nat.le_refl _), Nat.sub_self, List.replicate_zero, List.append_nil]
    exact List.take_length

theorem moveWithin?_eq_some (done : buffer.moveWithin? start stop target = some moved) :
    stop ≤ buffer.length ∧ target + (stop - start) ≤ buffer.length ∧
      moved.bytes = buffer.bytes.take target ++ (buffer.bytes.take stop).drop start ++
        buffer.bytes.drop (target + (stop - start)) := by
  simp only [moveWithin?] at done
  split at done
  · next fits =>
    cases done
    exact ⟨fits.2.1, fits.2.2, rfl⟩
  · cases done

theorem overwrite?_eq_some {bytes : Bytes}
    (done : buffer.overwrite? start stop bytes = some written) :
    start ≤ stop ∧ stop ≤ buffer.length ∧ bytes.length = stop - start ∧
      written.bytes = buffer.bytes.take start ++ bytes ++ buffer.bytes.drop stop := by
  simp only [overwrite?] at done
  split at done
  · next fits =>
    cases done
    exact ⟨fits.1, fits.2.1, fits.2.2, rfl⟩
  · cases done

/-- A buffer that is lengthened and then moves its tail to its new end. -/
theorem moveTail?_bytes_of_lt (within : stop ≤ buffer.length) (before : start ≤ stop)
    (later : stop < target) (done : buffer.moveTail? stop target = some moved) :
    ∃ gap, moved.bytes = gap ++ buffer.bytes.drop stop ∧ gap.length = target ∧
      gap.take start = buffer.bytes.take start := by
  simp only [moveTail?, if_pos later, bind, Option.bind_eq_some_iff, Size.sub?_eq_some_iff,
    Size.add?_eq_some_iff] at done
  obtain ⟨growth, ⟨-, rfl⟩, longer, ⟨-, rfl⟩, done⟩ := done
  have resized := bytes_resize (Nat.le_add_right buffer.length (target - stop))
  obtain ⟨-, fits, bytes⟩ := moveWithin?_eq_some done
  have size : (buffer.resize (buffer.length + (target - stop))).bytes.length =
      target + (buffer.length - stop) := by
    rw [resized, List.length_append, List.length_replicate, ← length]
    omega
  -- The gap holds what has been there before, zeros included; it is overwritten later.
  refine ⟨(buffer.resize (buffer.length + (target - stop))).bytes.take target, ?_, ?_, ?_⟩
  · have tail : (buffer.resize (buffer.length + (target - stop))).bytes.take buffer.length =
        buffer.bytes := by
      rw [resized]
      exact List.take_left
    rw [bytes, tail, List.drop_of_length_le (Nat.le_of_eq size), List.append_nil]
  · rw [List.length_take, size]
    omega
  · rw [List.take_take, Nat.min_eq_left (by omega), resized]
    exact List.take_append_of_le_length (Nat.le_trans before within)

/-- A buffer that moves its tail towards its start and is then shortened. -/
theorem moveTail?_bytes_of_gt (within : stop ≤ buffer.length) (before : start ≤ target)
    (earlier : target < stop) (done : buffer.moveTail? stop target = some moved) :
    ∃ gap, moved.bytes = gap ++ buffer.bytes.drop stop ∧ gap.length = target ∧
      gap.take start = buffer.bytes.take start := by
  simp only [moveTail?, if_neg (Nat.lt_asymm earlier), if_pos earlier, bind, pure,
    Option.bind_eq_some_iff, Size.sub?_eq_some_iff, Option.some.injEq] at done
  obtain ⟨shifted, done, shrinking, ⟨-, rfl⟩, shorter, ⟨-, rfl⟩, rfl⟩ := done
  obtain ⟨-, -, bytes⟩ := moveWithin?_eq_some done
  have whole : buffer.bytes.take buffer.length = buffer.bytes := List.take_length
  have gap : (buffer.bytes.take target).length = target := by
    rw [List.length_take, ← length]
    omega
  refine ⟨buffer.bytes.take target, ?_, gap, ?_⟩
  · -- What is cut off at the end is what the tail has left behind.
    have kept : (buffer.bytes.take target ++ buffer.bytes.drop stop).length =
        buffer.length - (stop - target) := by
      rw [List.length_append, gap, List.length_drop, ← length]
      omega
    rw [truncate, bytes, whole]
    exact List.take_left' kept
  · rw [List.take_take, Nat.min_eq_left before]

/-- **The tail of a buffer stands behind a gap** after it has been moved, and what stands before
the span has not been touched. -/
theorem moveTail?_bytes (within : stop ≤ buffer.length) (before : start ≤ stop)
    (before' : start ≤ target) (done : buffer.moveTail? stop target = some moved) :
    ∃ gap, moved.bytes = gap ++ buffer.bytes.drop stop ∧ gap.length = target ∧
      gap.take start = buffer.bytes.take start := by
  rcases Nat.lt_trichotomy stop target with later | rfl | earlier
  · exact moveTail?_bytes_of_lt within before later done
  · -- The new contents are as long as the old.
    have unmoved : moved = buffer := by simpa [moveTail?] using done.symm
    subst unmoved
    refine ⟨moved.bytes.take stop, (List.take_append_drop stop moved.bytes).symm, ?_, ?_⟩
    · exact List.length_take_of_le within
    · rw [List.take_take, Nat.min_eq_left before]
  · exact moveTail?_bytes_of_gt within before' earlier done

/-- **The bytes of an edited buffer**: those before the span, the contents, the suffix, and those
behind the span. -/
theorem splice?_bytes {contents suffix : Bytes} (before : start ≤ stop)
    (within : stop ≤ buffer.length)
    (done : buffer.splice? start stop contents suffix = some edited) :
    edited.bytes =
      buffer.bytes.take start ++ (contents ++ (suffix ++ buffer.bytes.drop stop)) := by
  simp only [splice?, bind, Option.bind_eq_some_iff, Size.add?_eq_some_iff] at done
  obtain ⟨inserted, ⟨-, rfl⟩, target, ⟨-, rfl⟩, middle, ⟨-, rfl⟩, moved, shifted, written, first,
    second⟩ := done
  obtain ⟨gap, gap_bytes, gap_length, kept⟩ :=
    moveTail?_bytes within before (Nat.le_add_right start _) shifted
  obtain ⟨-, -, -, first_bytes⟩ := overwrite?_eq_some first
  obtain ⟨-, -, -, second_bytes⟩ := overwrite?_eq_some second
  -- The contents are written over the first part of the gap, the suffix over the rest of it.
  have head : moved.bytes.take start = buffer.bytes.take start := by
    rw [gap_bytes, List.take_append_of_le_length (by omega), kept]
  have head_length : (buffer.bytes.take start ++ contents).length = start + contents.length := by
    rw [List.length_append, List.length_take_of_le (Nat.le_trans before within)]
  have written_bytes : written.bytes =
      buffer.bytes.take start ++ contents ++ moved.bytes.drop (start + contents.length) := by
    rw [first_bytes, head]
  have target : start + (contents.length + suffix.length) =
      start + contents.length + suffix.length := by omega
  have tail : written.bytes.drop (start + (contents.length + suffix.length)) =
      buffer.bytes.drop stop := by
    rw [written_bytes, target, ← List.drop_drop, List.drop_left' head_length, List.drop_drop,
      ← target, gap_bytes, List.drop_left' gap_length]
  rw [second_bytes, tail, written_bytes, List.take_left' head_length]
  simp only [List.append_assoc]

/-! ## Replacing a region -/

theorem reserve?_bytes {allocator : Allocator} {additional : Nat}
    (done : buffer.reserve? allocator additional = some edited) : edited.bytes = buffer.bytes := by
  rw [reserve?] at done
  split at done
  · -- The capacity is enough.
    cases done
    rfl
  · split at done
    · cases done
    · split at done
      · cases done
        rfl
      · cases done

/-- Making room changes no byte. -/
theorem makeRoom_bytes {allocator : Allocator} {old new : Nat}
    (done : buffer.makeRoom allocator old new = .ok edited) : edited.bytes = buffer.bytes := by
  rw [makeRoom] at done
  split at done
  · split at done
    · next grown =>
      cases done
      exact reserve?_bytes grown
    · cases done
  · cases done
    rfl

theorem ofOption_eq_ok_iff {α : Type} {value : Option α} {a : α} :
    EditError.ofOption value = .ok a ↔ value = some a := by
  cases value <;> simp [EditError.ofOption]

theorem bind_eq_ok_iff {ε α β : Type} {action : Except ε α} {next : α → Except ε β} {b : β} :
    action >>= next = .ok b ↔ ∃ a, action = .ok a ∧ next a = .ok b := by
  cases action <;> simp [bind, Except.bind]

/-- **The bytes of a buffer whose region has been replaced**: those before the contents, the new
contents, a terminator where the region has none to keep, and those behind the old contents. -/
theorem replaceRegion_bytes {allocator : Allocator} {region : Region} {contents : Bytes}
    (ordered : region.start ≤ region.stop) (within : region.stop ≤ buffer.length)
    (replaced : buffer.replaceRegion allocator region contents = .ok edited) :
    edited.bytes = buffer.bytes.take region.start ++
      (contents ++ (region.addedSuffix ++ buffer.bytes.drop region.stop)) := by
  simp only [replaceRegion, bind_eq_ok_iff, ofOption_eq_ok_iff] at replaced
  obtain ⟨new, -, old, -, roomy, grown, spliced⟩ := replaced
  have same := makeRoom_bytes grown
  have within' : region.stop ≤ roomy.length := by rwa [length, same]
  rw [splice?_bytes ordered within' spliced, same]

end MarkedRegions.Buffer
