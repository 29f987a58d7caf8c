import MarkedRegions.Buffer.Basic

/-!
# Editing in place

A span of a buffer is replaced in place: the buffer is lengthened first if the new bytes need more
room than the old, the tail behind the span is moved, the buffer is shortened if they need less,
and the new bytes are written into the gap. Every step is defined only where its ranges lie within
the buffer and its sizes within a word, so that an edit that has a result has made no step outside.

## Main definitions

* `Buffer.resize`, `Buffer.truncate`: lengthening and shortening
* `Buffer.moveWithin?`, `Buffer.overwrite?`: moving a range, and writing over one
* `Buffer.splice?`: the edit
-/

namespace MarkedRegions.Buffer

/-- The capacity of a buffer that must hold `needed` bytes: as before if that is enough, and
otherwise at least twice as much as before. -/
def capacityFor (capacity needed : Nat) : Nat :=
  if needed ≤ capacity then capacity else max (max (2 * capacity) needed) 8

/-- Sets the length: new bytes at the end are zero. -/
def resize (length : Nat) (buffer : Buffer) : Buffer :=
  if length ≤ buffer.length then
    { buffer with bytes := buffer.bytes.take length }
  else
    { bytes := buffer.bytes ++ List.replicate (length - buffer.length) 0
      capacity := capacityFor buffer.capacity length }

def truncate (length : Nat) (buffer : Buffer) : Buffer :=
  { buffer with bytes := buffer.bytes.take length }

/-- **Moves the range** from `start` to `stop` so that it begins at `target`. Ranges may overlap:
what arrives is what stood in the range before. -/
def moveWithin? (start stop target : Nat) (buffer : Buffer) : Option Buffer :=
  if start ≤ stop ∧ stop ≤ buffer.length ∧ target + (stop - start) ≤ buffer.length then
    let range := (buffer.bytes.take stop).drop start
    some { buffer with
      bytes := buffer.bytes.take target ++ range ++ buffer.bytes.drop (target + (stop - start)) }
  else
    none

/-- **Writes over the range** from `start` to `stop`, which must be as long as what is written. -/
def overwrite? (start stop : Nat) (written : Bytes) (buffer : Buffer) : Option Buffer :=
  if start ≤ stop ∧ stop ≤ buffer.length ∧ written.length = stop - start then
    some { buffer with bytes := buffer.bytes.take start ++ written ++ buffer.bytes.drop stop }
  else
    none

/-- Moves the tail of the buffer, which begins at `stop`, so that it begins at `target`, and makes
the buffer as long as that leaves it. -/
def moveTail? (stop target : Nat) (buffer : Buffer) : Option Buffer := do
  let length := buffer.length
  -- Lengthened before the tail moves back, shortened after it has moved forward.
  if stop < target then
    let longer ← Size.add? length (← Size.sub? target stop)
    (buffer.resize longer).moveWithin? stop length target
  else if target < stop then
    let moved ← buffer.moveWithin? stop length target
    let shorter ← Size.sub? length (← Size.sub? stop target)
    return moved.truncate shorter
  else
    return buffer

/-- **Replaces the span** from `start` to `stop` by the contents and then the suffix. -/
def splice? (start stop : Nat) (contents suffix : Bytes) (buffer : Buffer) : Option Buffer := do
  let inserted ← Size.add? contents.length suffix.length
  let target ← Size.add? start inserted
  let middle ← Size.add? start contents.length
  -- The gap that the tail leaves is filled by the contents and the suffix to the last byte.
  let moved ← buffer.moveTail? stop target
  let written ← moved.overwrite? start middle contents
  written.overwrite? middle target suffix

end MarkedRegions.Buffer
