import MarkedRegions.Proofs.Edit.Room

/-!
# Spare room makes no difference

What a replacement does to the bytes of a buffer depends on the bytes alone. How much room the
buffer has matters only to the machine: a buffer with more room asks for larger blocks, since room is
always asked for past the capacity, and a larger block may be refused where a smaller one is not. So
of two buffers with the same bytes, the one with more room fares as the other does, unless it is
refused its room; and it keeps having more.

## Main definitions

* `Buffer.Roomier`: a buffer with the same bytes and no less room

## Main results

* `Roomier.replace_cases`: a replacement does the same to two such buffers
-/

namespace MarkedRegions.Buffer

/-- **A buffer with the same bytes and no less room**, where the machine has granted both. -/
structure Roomier (tight roomy : Buffer) : Prop where
  bytes : roomy.bytes = tight.bytes
  fits_tight : tight.Fits
  fits : roomy.Fits
  capacity_le : tight.capacity ≤ roomy.capacity

variable {tight roomy buffer : Buffer} {additional : Nat}

/-- A buffer that holds just the bytes of another has the least room. -/
theorem roomier_ofBytes (fits : buffer.Fits) : Roomier (ofBytes buffer.bytes) buffer :=
  ⟨rfl, fits_ofBytes (Nat.le_trans fits.length_le fits.capacity_le), fits, fits.length_le⟩

/-- Whoever grants a block grants the smaller one, if blocks are granted by size alone. -/
theorem Roomier.canGrow (roomier : Roomier tight roomy)
    (granted : roomy.CanGrow .generous additional) : tight.CanGrow .generous additional := by
  intro more
  have capacity_le := roomier.capacity_le
  exact ⟨Nat.le_trans (by omega) (granted more).1, rfl⟩

/-- **A replacement does the same to two buffers** with the same bytes: the one with more room is
refused more of it, or both replacements fail for the same reason, or both are made and it has more
room still. -/
theorem Roomier.replace_cases (roomier : Roomier tight roomy) (style : MarkerStyle)
    (marker contents : Bytes) :
    (∃ requested,
      roomy.replace .generous style marker contents = .error (.allocation requested)) ∨
    (∃ e, tight.replace .generous style marker contents = .error e ∧
      roomy.replace .generous style marker contents = .error e) ∨
    ∃ tight' roomy', tight.replace .generous style marker contents = .ok tight' ∧
      roomy.replace .generous style marker contents = .ok roomy' ∧ Roomier tight' roomy' := by
  have same : roomy.find style marker = tight.find style marker := by rw [find, find, roomier.bytes]
  rw [replace, replace, same]
  cases found : tight.find style marker with
  | error cause => exact .inr (.inl ⟨_, rfl, rfl⟩)
  | ok region =>
    obtain ⟨seams⟩ := Scan.exists_seams found
    have ordered := seams.joins.ordered
    have within : region.stop ≤ tight.length := seams.joins.within
    have within' : region.stop ≤ roomy.length := by rwa [length, roomier.bytes]
    dsimp only
    by_cases word : contents.length + region.addedSuffix.length ≤ Size.max
    · rw [replaceRegion_eq roomier.fits_tight word ordered within,
        replaceRegion_eq roomier.fits word ordered within']
      by_cases granted : roomy.CanGrow .generous (region.growth contents)
      · rw [if_pos granted, if_pos (roomier.canGrow granted)]
        refine .inr (.inr ⟨_, _, rfl, rfl, ?_, ?_, ?_, ?_⟩)
        · rw [roomier.bytes]
        · exact roomier.fits_tight.rewritten ordered within (roomier.canGrow granted)
        · exact roomier.fits.rewritten ordered within' granted
        · exact Nat.add_le_add_right roomier.capacity_le _
      · rw [if_neg granted]
        exact .inl ⟨_, rfl⟩
    · -- No word holds the new length, whatever the buffer.
      have long : Size.add? contents.length region.addedSuffix.length = none := if_neg word
      refine .inr (.inl ⟨.outOfBounds, ?_, ?_⟩)
      all_goals
        rw [replaceRegion, long]
        rfl

end MarkedRegions.Buffer
