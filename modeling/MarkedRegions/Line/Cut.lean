import MarkedRegions.LineEnding

/-!
# The lines of a text

A text is cut into lines at the terminators of one style. Lines do not hold their terminators, and
the last line is whatever follows the last of them, so a text with `k` terminators has `k + 1`
lines. Put together again with terminators between them, the lines are the text.

## Main definitions

* `LineEnding.ofText`: the style of a text, settled by its first line feed
* `Line.cut`: the lines of a text
* `Line.offset`: where a line starts

## Main results

* `intercalate_cut`: nothing is lost between the lines
-/

namespace MarkedRegions

/-- **The style of a text**: its first line feed settles it, and a text without one is plain. -/
def LineEnding.ofText (text : Bytes) : LineEnding :=
  if lineFeed ∈ text ∧ (text.takeWhile (· ≠ lineFeed)).getLast? = some carriageReturn then .crlf
  else .lf

namespace Line

/-- The lines of a text in the two-byte style: only a line feed after a carriage return ends one. -/
def cutAtPairs : Bytes → List Bytes
  | [] => [[]]
  | [byte] => [[byte]]
  | byte :: next :: rest =>
    if byte = carriageReturn ∧ next = lineFeed then [] :: cutAtPairs rest
    else (cutAtPairs (next :: rest)).modifyHead (byte :: ·)

/-- **The lines of a text**, cut at every terminator of a style. In the plain style every line feed is
one. -/
def cut : LineEnding → Bytes → List Bytes
  | .lf => List.splitOn lineFeed
  | .crlf => cutAtPairs

/-- **Where a line starts**, by its index: after all lines before it and their terminators. -/
def offset (ending : LineEnding) : List Bytes → Nat → Nat
  | [], _ | _, 0 => 0
  | line :: lines, index + 1 => line.length + ending.width + offset ending lines index

theorem cutAtPairs_ne_nil (text : Bytes) : cutAtPairs text ≠ [] := by
  fun_induction cutAtPairs text with
  | case1 => exact List.cons_ne_nil _ _
  | case2 byte => exact List.cons_ne_nil _ _
  | case3 byte next rest _ _ => exact List.cons_ne_nil _ _
  | case4 byte next rest _ ih => rwa [ne_eq, List.modifyHead_eq_nil_iff]

theorem cut_ne_nil (ending : LineEnding) (text : Bytes) : cut ending text ≠ [] := by
  cases ending
  · exact List.splitOn_ne_nil lineFeed text
  · exact cutAtPairs_ne_nil text

/-- A byte in front of the first line is one in front of the text. -/
theorem intercalate_modifyHead (terminator : Bytes) (byte : UInt8) {lines : List Bytes}
    (some_line : lines ≠ []) :
    terminator.intercalate (lines.modifyHead (byte :: ·)) = byte :: terminator.intercalate lines := by
  cases lines with
  | nil => exact absurd rfl some_line
  | cons line lines => exact List.intercalate_cons_cons_left

theorem intercalate_cutAtPairs (text : Bytes) :
    LineEnding.crlf.bytes.intercalate (cutAtPairs text) = text := by
  fun_induction cutAtPairs text with
  | case1 => rfl
  | case2 byte => rfl
  | case3 byte next rest terminated ih =>
    obtain ⟨rfl, rfl⟩ := terminated
    rw [List.intercalate_cons_of_ne_nil (cutAtPairs_ne_nil rest), ih]
    rfl
  | case4 byte next rest _ ih =>
    rw [intercalate_modifyHead _ _ (cutAtPairs_ne_nil (next :: rest)), ih]

/-- **Nothing is lost between the lines** but the terminators. -/
theorem intercalate_cut (ending : LineEnding) (text : Bytes) :
    ending.bytes.intercalate (cut ending text) = text := by
  cases ending
  · exact List.intercalate_splitOn lineFeed
  · exact intercalate_cutAtPairs text

end Line

end MarkedRegions
