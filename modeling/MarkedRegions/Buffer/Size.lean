/-!
# Sizes

Sizes and offsets are kept in words of 64 bits, and a block of memory holds at most half of what a
word can count. Arithmetic on them is checked: an operation that would leave the range of a word
has no result.

## Main definitions

* `Size.max`, `Size.maxBlock`: the largest word and the largest block
* `Size.add?`, `Size.sub?`: exact sum and difference, where they exist
* `Size.addSaturating`: the sum, held at the largest word
-/

namespace MarkedRegions.Size

/-- The largest number that a word holds. -/
def max : Nat := 0xffffffffffffffff

/-- The largest number of bytes in one block of memory. -/
def maxBlock : Nat := 0x7fffffffffffffff

/-- **The exact sum**, if a word holds it. -/
def add? (m n : Nat) : Option Nat :=
  if m + n ≤ max then some (m + n) else none

/-- **The exact difference**, if it is not negative. -/
def sub? (m n : Nat) : Option Nat :=
  if n ≤ m then some (m - n) else none

/-- The sum, or the largest word where no word holds the sum. -/
def addSaturating (m n : Nat) : Nat :=
  min (m + n) max

@[simp] theorem add?_eq_some_iff {m n k : Nat} : add? m n = some k ↔ m + n ≤ max ∧ m + n = k := by
  simp [add?]

@[simp] theorem sub?_eq_some_iff {m n k : Nat} : sub? m n = some k ↔ n ≤ m ∧ m - n = k := by
  simp [sub?]

end MarkedRegions.Size
