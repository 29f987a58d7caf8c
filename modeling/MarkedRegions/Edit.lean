import MarkedRegions.Buffer.Splice
import MarkedRegions.Scan.State

/-!
# Replacing the contents of a region

The contents of a region are replaced in three steps: the region is found, room is made for as
many bytes as the new contents have more than the old, and the span is edited in place. Nothing is
changed unless all three steps are possible.

A region without a line gets a terminator after its new contents, so that its closing line stays a
line of its own; any other region keeps the terminator it has. So writing the same contents twice
is the same as writing them once.

## Main definitions

* `EditError`: why contents are not replaced
* `Buffer.find`, `Buffer.replace`: one region
* `Buffer.replaceAll`: several regions in order, up to the first failure
-/

namespace MarkedRegions

/-- **Why the contents of a region are not replaced.** -/
inductive EditError
  -- The region is not found.
  | scan (cause : ScanError)
  -- The machine does not grant the room.
  | allocation (requested : Nat)
  -- A size or a range leaves its bounds.
  | outOfBounds
deriving DecidableEq, Repr

/-- The wording of a failed replacement. -/
def EditError.message : EditError → String
  | .scan cause => cause.message
  | .allocation requested => "Could not grow buffer by " ++ toString requested ++ " bytes"
  | .outOfBounds => "Edit leaves the bounds of the buffer"

/-- The scan for a name in marker lines of a style. -/
def MarkerStyle.query (style : MarkerStyle) (marker : Bytes) : Scan.Query :=
  ⟨style.lead, marker⟩

/-- A result, or the fault of a step outside its bounds. -/
def EditError.ofOption {α : Type} : Option α → Except EditError α
  | some a => .ok a
  | none => .error .outOfBounds

/-- **What is written after new contents**: a terminator where the region has none to keep. -/
def Region.addedSuffix (region : Region) : Bytes :=
  if region.trailing then [] else region.ending.bytes

namespace Buffer

/-- The region of a name in a buffer. -/
def find (style : MarkerStyle) (marker : Bytes) (buffer : Buffer) : Except ScanError Region :=
  Scan.find (style.query marker) buffer.bytes

/-- **Room for longer contents**: as many bytes as the new length exceeds the old. -/
def makeRoom (allocator : Allocator) (old new : Nat) (buffer : Buffer) : Except EditError Buffer :=
  if old < new then
    match buffer.grow? allocator (new - old) with
    | some grown => .ok grown
    | none => .error (.allocation (new - old))
  else
    .ok buffer

/-- Replaces the contents of a region that has been found. -/
def replaceRegion (allocator : Allocator) (region : Region) (contents : Bytes) (buffer : Buffer) :
    Except EditError Buffer := do
  let new ← EditError.ofOption (Size.add? contents.length region.addedSuffix.length)
  let old ← EditError.ofOption (Size.sub? region.stop region.start)
  -- From here on the edit never asks for room.
  let roomy ← buffer.makeRoom allocator old new
  EditError.ofOption (roomy.splice? region.start region.stop contents region.addedSuffix)

/-- **Replaces the contents of the region of a name.** -/
def replace (allocator : Allocator) (style : MarkerStyle) (marker contents : Bytes)
    (buffer : Buffer) : Except EditError Buffer :=
  match buffer.find style marker with
  | .ok region => buffer.replaceRegion allocator region contents
  | .error cause => .error (.scan cause)

/-- **Replaces several regions in order**, scanning afresh for each. The first failure ends the
work; what was done before it stays done. The machine may answer differently each time: `allocator
k` is what it grants to the replacement number `k`. Returned are the buffer and how many
replacements were made, or the failure. -/
def replaceAll (allocator : Nat → Allocator) (style : MarkerStyle) (buffer : Buffer)
    (pairs : List (Bytes × Bytes)) : Buffer × Except EditError Nat :=
  go 0 buffer pairs
where
  go (applied : Nat) (buffer : Buffer) : List (Bytes × Bytes) → Buffer × Except EditError Nat
    | [] => (buffer, .ok applied)
    | (marker, contents) :: rest =>
      match buffer.replace (allocator applied) style marker contents with
      | .ok edited => go (applied + 1) edited rest
      | .error e => (buffer, .error e)

end Buffer

end MarkedRegions
