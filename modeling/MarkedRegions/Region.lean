import MarkedRegions.LineEnding

/-!
# Regions

A region is the span of a text between its two marker lines. Its contents leave out the terminator
of their last line; a region without any line has none to leave out, and that difference is kept.

## Main definitions

* `Region`: the span, the text's line ending, and whether a terminator follows the contents
* `Region.contents?`: the contents, where the span lies within a text
* `Region.suffix`: the terminator that stands between the contents and the closing line
-/

namespace MarkedRegions

/-- **A region**, by offsets into the text that was scanned. -/
structure Region where
  -- The first byte after the opening line.
  start : Nat
  -- One past the last byte of the contents.
  stop : Nat
  -- The line ending of the text.
  ending : LineEnding
  -- Whether a terminator stands between the contents and the closing line.
  trailing : Bool
deriving DecidableEq, Repr

namespace Region

def length (region : Region) : Nat :=
  region.stop - region.start

/-- Whether the contents are empty. A region that holds one empty line is empty in this sense. -/
def isEmpty (region : Region) : Bool :=
  region.start = region.stop

/-- **The contents**, defined where the span lies within the text. -/
def contents? (region : Region) (text : Bytes) : Option Bytes :=
  if region.start ≤ region.stop ∧ region.stop ≤ text.length then
    some ((text.take region.stop).drop region.start)
  else
    none

/-- The contents, with nothing read where the span leaves the text. -/
def contents (region : Region) (text : Bytes) : Bytes :=
  (text.take region.stop).drop region.start

/-- The terminator between the contents and the closing line: none if the region has no line. -/
def suffix (region : Region) : Bytes :=
  if region.trailing then region.ending.bytes else []

theorem contents?_eq_some_contents {region : Region} {text : Bytes}
    (ordered : region.start ≤ region.stop) (within : region.stop ≤ text.length) :
    region.contents? text = some (region.contents text) := by
  simp [contents?, contents, ordered, within]

end Region

end MarkedRegions
