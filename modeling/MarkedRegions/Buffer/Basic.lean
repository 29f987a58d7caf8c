import MarkedRegions.Bytes
import MarkedRegions.Buffer.Size

/-!
# Growable buffers

A buffer holds bytes and owns room for more. Room is asked for explicitly and may be refused, by
the machine or because no block of memory is that large; a refusal changes nothing. The edits that
follow never ask for room that is not there.

## Main definitions

* `Buffer`: bytes and capacity
* `Allocator`: which blocks the machine grants
* `Buffer.grow?`: more room, past the present capacity
-/

namespace MarkedRegions

/-- **Which blocks the machine grants**, by their size in bytes. -/
abbrev Allocator := Nat → Bool

def Allocator.generous : Allocator := fun _ => true

/-- A machine that refuses blocks from some size on. -/
def Allocator.below (limit : Nat) : Allocator := fun size => size < limit

/-- **A buffer**: the bytes in use and how many it has room for. -/
structure Buffer where
  bytes : Bytes
  capacity : Nat
deriving DecidableEq, Repr

namespace Buffer

/-- The buffer without bytes and without room. -/
def empty : Buffer := ⟨[], 0⟩

instance : EmptyCollection Buffer := ⟨empty⟩

/-- The buffer that holds the given bytes and has room for no more. -/
def ofBytes (bytes : Bytes) : Buffer := ⟨bytes, bytes.length⟩

def length (buffer : Buffer) : Nat := buffer.bytes.length

def isEmpty (buffer : Buffer) : Bool := buffer.bytes.isEmpty

/-- A copy owns no more room than it needs. -/
def clone (buffer : Buffer) : Buffer := ofBytes buffer.bytes

@[simp] theorem bytes_ofBytes (bytes : Bytes) : (ofBytes bytes).bytes = bytes := rfl

@[simp] theorem capacity_ofBytes (bytes : Bytes) : (ofBytes bytes).capacity = bytes.length := rfl

/-- **Room for `additional` bytes past the length**: nothing happens if there is enough, and
otherwise a block of exactly the needed size is asked for. -/
def reserve? (allocator : Allocator) (additional : Nat) (buffer : Buffer) : Option Buffer :=
  if additional ≤ buffer.capacity - buffer.length then
    some buffer
  else
    match Size.add? buffer.length additional with
    | none => none
    | some total =>
      if total ≤ Size.maxBlock ∧ allocator total then some { buffer with capacity := total }
      else none

/-- **Room for `additional` bytes past the capacity**, whatever is in use: the spare room counts
as needed. -/
def grow? (allocator : Allocator) (additional : Nat) (buffer : Buffer) : Option Buffer :=
  buffer.reserve? allocator (Size.addSaturating (buffer.capacity - buffer.length) additional)

end Buffer

end MarkedRegions
