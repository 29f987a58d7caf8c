import Mathlib.Data.List.TakeWhile
import MarkedRegions.Line.Cut

/-!
# Cutting a text at a terminator

Where a text is put together from two parts with a terminator between them, its lines are the lines
of the one part and then the lines of the other. This is not a matter of course for two-byte
terminators: a part may end in a carriage return or begin with a line feed. It holds because the
terminator's own first byte is no line feed and its last no carriage return, so that no pair of
bytes can reach across it. Everything that is known of lines in a larger text comes from this law.

## Main definitions

* `LineEnding.Unbroken`: a run of bytes none of which ends a line
* `Line.extent`: how many bytes some lines take with their terminators
* `LineEnding.settledIn`: the style of a text, byte by byte

## Main results

* `cut_append`: the law
* `cut_cases`, `cut_eq_append`: its converse, for the first line and for any seam between lines
* `offset_eq_extent`: a line starts after the extent of the lines before it
* `ofText_append`: the style of a text is that of any part up to its first line feed or beyond
-/

namespace MarkedRegions

theorem carriageReturn_ne_lineFeed : carriageReturn ≠ lineFeed := by decide

namespace LineEnding

theorem lineFeed_mem_bytes (ending : LineEnding) : lineFeed ∈ ending.bytes := by
  cases ending <;> decide

theorem getLast?_append_bytes (front : Bytes) (ending : LineEnding) :
    (front ++ ending.bytes).getLast? = some lineFeed := by
  cases ending <;> simp [bytes]

/-- **A run of bytes within one line**: none of them ends a line, given the byte before the run. -/
def Unbroken (ending : LineEnding) (before : Option UInt8) : Bytes → Prop
  | [] => True
  | byte :: rest => ¬ ending.endsAt before byte ∧ ending.Unbroken (some byte) rest

theorem endsAt_lf_iff {before : Option UInt8} {byte : UInt8} :
    lf.endsAt before byte ↔ byte = lineFeed := by
  simp [endsAt]

theorem endsAt_crlf_iff {before : Option UInt8} {byte : UInt8} :
    crlf.endsAt before byte ↔ byte = lineFeed ∧ before = some carriageReturn := by
  by_cases feed : byte = lineFeed
  · by_cases back : before = some carriageReturn <;> simp [endsAt, settledBy, feed, back]
  · simp [endsAt, settledBy, feed]

/-- Where lines end in two bytes, the first of them is needed. -/
theorem not_endsAt_crlf {before : Option UInt8} (other : before ≠ some carriageReturn)
    (byte : UInt8) : ¬ crlf.endsAt before byte := by
  intro ends
  exact other (endsAt_crlf_iff.mp ends).2

theorem not_endsAt_crlf_of_apart {byte next : UInt8}
    (apart : ¬ (byte = carriageReturn ∧ next = lineFeed)) : ¬ crlf.endsAt (some byte) next := by
  intro ends
  obtain ⟨feed, back⟩ := endsAt_crlf_iff.mp ends
  exact apart ⟨Option.some.inj back, feed⟩

theorem unbroken_lf_iff {before : Option UInt8} {line : Bytes} :
    lf.Unbroken before line ↔ lineFeed ∉ line := by
  induction line generalizing before with
  | nil => simp [Unbroken]
  | cons byte rest ih =>
    rw [Unbroken, ih, endsAt_lf_iff, List.mem_cons, not_or, eq_comm]

/-- What stands before a run matters only if it is a carriage return. -/
theorem Unbroken.of_ne_carriageReturn {ending : LineEnding} {line : Bytes}
    (unbroken : ending.Unbroken none line) {before : Option UInt8}
    (other : before ≠ some carriageReturn) : ending.Unbroken before line := by
  cases ending with
  | lf => exact unbroken_lf_iff.mpr (unbroken_lf_iff.mp unbroken)
  | crlf =>
    cases line with
    | nil => trivial
    | cons byte rest =>
      -- Only the first byte has the byte before the run in front of it.
      exact ⟨not_endsAt_crlf other byte, unbroken.2⟩

/-- A carriage return never ends a line by itself. -/
theorem Unbroken.append_carriageReturn {ending : LineEnding} {before : Option UInt8}
    {line : Bytes} (unbroken : ending.Unbroken before line) :
    ending.Unbroken before (line ++ [carriageReturn]) := by
  -- The run in front of the last byte is unchanged, byte for byte.
  induction line generalizing before with
  | nil =>
    cases ending <;>
      simp [Unbroken, endsAt_lf_iff, endsAt_crlf_iff, carriageReturn_ne_lineFeed]
  | cons byte rest ih => exact ⟨unbroken.1, ih unbroken.2⟩

/-- The byte read last, after one byte and some more. -/
theorem getLast?_cons_or (byte : UInt8) (rest : Bytes) (before : Option UInt8) :
    (byte :: rest).getLast?.or before = rest.getLast?.or (some byte) := by
  rw [List.getLast?_cons]
  cases rest.getLast? <;> rfl

theorem unbroken_append_iff {ending : LineEnding} {before : Option UInt8} {front back : Bytes} :
    ending.Unbroken before (front ++ back) ↔
      ending.Unbroken before front ∧ ending.Unbroken (front.getLast?.or before) back := by
  induction front generalizing before with
  | nil => simp [Unbroken]
  | cons byte front ih =>
    rw [List.cons_append, Unbroken, Unbroken, ih, getLast?_cons_or, and_assoc]

/-- Without a line feed no line ends, in either style. -/
theorem unbroken_of_not_mem (ending : LineEnding) {before : Option UInt8} {line : Bytes}
    (none_inside : lineFeed ∉ line) : ending.Unbroken before line := by
  cases ending with
  | lf => exact unbroken_lf_iff.mpr none_inside
  | crlf =>
    induction line generalizing before with
    | nil => trivial
    | cons byte rest ih =>
      rw [List.mem_cons, not_or] at none_inside
      exact ⟨fun ends => none_inside.1 (endsAt_crlf_iff.mp ends).1.symm, ih none_inside.2⟩

/-- The style of a text read byte by byte, given the byte before it. -/
def settledIn (before : Option UInt8) : Bytes → LineEnding
  | [] => .lf
  | byte :: rest => (settledBy before byte).getD (settledIn (some byte) rest)

theorem settledIn_eq (before : Option UInt8) (text : Bytes) :
    settledIn before text =
      if lineFeed ∈ text ∧
          (text.takeWhile (· ≠ lineFeed)).getLast?.or before = some carriageReturn then .crlf
      else .lf := by
  -- Up to the first line feed, the byte before it is the last of those that have been read.
  induction text generalizing before with
  | nil => simp [settledIn]
  | cons byte rest ih =>
    by_cases feed : byte = lineFeed
    · by_cases back : before = some carriageReturn <;> simp [settledIn, settledBy, feed, back]
    · have other : ¬ lineFeed = byte := fun same => feed same.symm
      simp only [settledIn, settledBy, if_neg feed, Option.getD_none, ih]
      rw [List.takeWhile_cons_of_pos (by simpa using feed), getLast?_cons_or]
      simp [other]

/-- **The style of a text is settled by the first line feed that is read.** -/
theorem ofText_eq_settledIn (text : Bytes) : ofText text = settledIn none text := by
  rw [settledIn_eq, ofText, Option.or_none]

/-- The style is settled by what stands before the first line feed. -/
theorem ofText_of_first {front : Bytes} (first : lineFeed ∉ front) (back : Bytes) :
    ofText (front ++ lineFeed :: back) =
      if front.getLast? = some carriageReturn then .crlf else .lf := by
  have before : (front ++ lineFeed :: back).takeWhile (· ≠ lineFeed) = front := by
    rw [List.takeWhile_append_of_pos]
    · simp
    · intro byte inside
      have other : byte ≠ lineFeed := fun same => first (same ▸ inside)
      simpa using other
  simp only [ofText, before, List.mem_append, List.mem_cons_self, or_true, true_and]

/-- **Only the first line feed matters**: what follows it does not change the style. -/
theorem ofText_append {text : Bytes} (settled : lineFeed ∈ text) (rest : Bytes) :
    ofText (text ++ rest) = ofText text := by
  -- The bytes before the first line feed are not the whole text, so they stay the same.
  have stops : (text.takeWhile (· ≠ lineFeed)).length ≠ text.length := by
    intro whole
    have same := (List.takeWhile_prefix (· ≠ lineFeed)).eq_of_length whole
    have outside := List.mem_takeWhile_imp (same ▸ settled)
    simp at outside
  simp only [ofText, List.takeWhile_append, if_neg stops, List.mem_append, settled, true_or]

end LineEnding

namespace Line

open LineEnding (Unbroken)

theorem modifyHead_append (byte : UInt8) {lines : List Bytes} (some_line : lines ≠ [])
    (more : List Bytes) :
    (lines ++ more).modifyHead (byte :: ·) = lines.modifyHead (byte :: ·) ++ more := by
  cases lines with
  | nil => exact absurd rfl some_line
  | cons line lines => rfl

theorem cutAtPairs_append (text rest : Bytes) :
    cutAtPairs (text ++ carriageReturn :: lineFeed :: rest) =
      cutAtPairs text ++ cutAtPairs rest := by
  fun_induction cutAtPairs text with
  | case1 => simp [cutAtPairs]
  | case2 byte =>
    -- The last byte of the one part and the first of the terminator do not make a pair.
    have apart : ¬ (byte = carriageReturn ∧ carriageReturn = lineFeed) := by
      rintro ⟨-, same⟩
      exact carriageReturn_ne_lineFeed same
    rw [List.singleton_append, cutAtPairs, if_neg apart, cutAtPairs, if_pos ⟨rfl, rfl⟩]
    rfl
  | case3 byte next text pair ih =>
    rw [List.cons_append, List.cons_append, cutAtPairs, if_pos pair, ih, List.cons_append]
  | case4 byte next text apart ih =>
    rw [List.cons_append, List.cons_append, cutAtPairs, if_neg apart, ← List.cons_append, ih,
      modifyHead_append _ (cutAtPairs_ne_nil (next :: text))]

/-- **A terminator separates lines**: what stands on either side of it is cut by itself. -/
theorem cut_append (ending : LineEnding) (text rest : Bytes) :
    cut ending (text ++ (ending.bytes ++ rest)) = cut ending text ++ cut ending rest := by
  cases ending
  · exact List.splitOn_append_cons_self text rest
  · exact cutAtPairs_append text rest

theorem cutAtPairs_of_unbroken {before : Option UInt8} {line : Bytes}
    (unbroken : LineEnding.crlf.Unbroken before line) : cutAtPairs line = [line] := by
  fun_induction cutAtPairs line generalizing before with
  | case1 => rfl
  | case2 byte => rfl
  | case3 byte next rest pair =>
    exact absurd (LineEnding.endsAt_crlf_iff.mpr ⟨pair.2, congrArg some pair.1⟩) unbroken.2.1
  | case4 byte next rest _ ih =>
    rw [ih unbroken.2]
    rfl

/-- A run within one line is cut nowhere. -/
theorem cut_of_unbroken {ending : LineEnding} {line : Bytes}
    (unbroken : ending.Unbroken none line) : cut ending line = [line] := by
  cases ending
  · exact List.splitOn_eq_singleton (LineEnding.unbroken_lf_iff.mp unbroken)
  · exact cutAtPairs_of_unbroken unbroken

theorem unbroken_crlf_singleton (byte : UInt8) : LineEnding.crlf.Unbroken none [byte] := by
  have fresh : none ≠ some carriageReturn := nofun
  exact ⟨LineEnding.not_endsAt_crlf fresh byte, trivial⟩

theorem unbroken_crlf_cons {byte next : UInt8} {rest : Bytes}
    (apart : ¬ (byte = carriageReturn ∧ next = lineFeed))
    (unbroken : LineEnding.crlf.Unbroken none (next :: rest)) :
    LineEnding.crlf.Unbroken none (byte :: next :: rest) :=
  ⟨(unbroken_crlf_singleton byte).1, LineEnding.not_endsAt_crlf_of_apart apart, unbroken.2⟩

/-- The first line feed that ends a line, in the style of two-byte terminators. -/
theorem first_pair (text : Bytes) :
    LineEnding.crlf.Unbroken none text ∨
      ∃ line rest, text = line ++ carriageReturn :: lineFeed :: rest ∧
        LineEnding.crlf.Unbroken none line := by
  fun_induction cutAtPairs text with
  | case1 => exact .inl trivial
  | case2 byte => exact .inl (unbroken_crlf_singleton byte)
  | case3 byte next rest pair =>
    obtain ⟨rfl, rfl⟩ := pair
    exact .inr ⟨[], rest, rfl, trivial⟩
  | case4 byte next rest apart ih =>
    rcases ih with unbroken | ⟨line, rest', same, unbroken⟩
    · exact .inl (unbroken_crlf_cons apart unbroken)
    · refine .inr ⟨byte :: line, rest', by rw [same]; rfl, ?_⟩
      cases line with
      | nil => exact unbroken_crlf_singleton byte
      | cons first line =>
        -- The byte behind the new first one is still the one that follows it in the text.
        obtain ⟨rfl, -⟩ := List.cons.inj same
        exact unbroken_crlf_cons apart unbroken

/-- **The first line of a text**: the whole of it, or what stands before the first terminator. -/
theorem cut_cases (ending : LineEnding) (text : Bytes) :
    ending.Unbroken none text ∨
      ∃ line rest, text = line ++ (ending.bytes ++ rest) ∧ ending.Unbroken none line := by
  cases ending with
  | lf =>
    by_cases feed : lineFeed ∈ text
    · obtain ⟨line, rest, same, unbroken⟩ := List.eq_append_cons_of_mem feed
      exact .inr ⟨line, rest, same, LineEnding.unbroken_lf_iff.mpr unbroken⟩
    · exact .inl (LineEnding.unbroken_lf_iff.mpr feed)
  | crlf => exact first_pair text

theorem cut_unbroken_append {ending : LineEnding} {line : Bytes}
    (unbroken : ending.Unbroken none line) (rest : Bytes) :
    cut ending (line ++ (ending.bytes ++ rest)) = line :: cut ending rest := by
  rw [cut_append, cut_of_unbroken unbroken, List.singleton_append]

/-- **A seam between two lines is a terminator** of the text, and its sides are cut as before. -/
theorem cut_eq_append {ending : LineEnding} {text : Bytes} {first second : List Bytes}
    (lines : cut ending text = first ++ second) (some_first : first ≠ [])
    (some_second : second ≠ []) :
    ∃ head tail, text = head ++ (ending.bytes ++ tail) ∧
      cut ending head = first ∧ cut ending tail = second := by
  induction first generalizing text with
  | nil => exact absurd rfl some_first
  | cons line first ih =>
    rcases cut_cases ending text with unbroken | ⟨line', rest, rfl, unbroken⟩
    · -- A text of one line has no seam.
      rw [cut_of_unbroken unbroken, List.cons_append, List.cons.injEq] at lines
      obtain ⟨-, nothing⟩ := List.append_eq_nil_iff.mp lines.2.symm
      exact absurd nothing some_second
    · rw [cut_unbroken_append unbroken, List.cons_append, List.cons.injEq] at lines
      obtain ⟨rfl, lines⟩ := lines
      by_cases alone : first = []
      · -- The seam is the first terminator.
        subst alone
        exact ⟨line', rest, rfl, cut_of_unbroken unbroken, lines⟩
      · -- The seam is one of the rest of the text, and the first line goes to its head.
        obtain ⟨head, tail, rfl, cut_head, cut_tail⟩ := ih lines alone
        refine ⟨line' ++ (ending.bytes ++ head), tail, by simp, ?_, cut_tail⟩
        rw [cut_unbroken_append unbroken, cut_head]

/-! ## How far lines reach -/

/-- **How many bytes lines take** with a terminator after each. -/
def extent (ending : LineEnding) : List Bytes → Nat
  | [] => 0
  | line :: lines => line.length + ending.width + extent ending lines

@[simp] theorem extent_nil (ending : LineEnding) : extent ending [] = 0 := rfl

@[simp] theorem extent_cons (ending : LineEnding) (line : Bytes) (lines : List Bytes) :
    extent ending (line :: lines) = line.length + ending.width + extent ending lines := rfl

@[simp] theorem extent_append (ending : LineEnding) (first second : List Bytes) :
    extent ending (first ++ second) = extent ending first + extent ending second := by
  induction first with
  | nil => rw [List.nil_append, extent_nil, Nat.zero_add]
  | cons line lines ih => rw [List.cons_append, extent_cons, extent_cons, ih, ← Nat.add_assoc]

theorem width_pos (ending : LineEnding) : 0 < ending.width := by
  cases ending <;> decide

/-- **A line starts after the extent of the lines before it.** -/
theorem offset_eq_extent (ending : LineEnding) (lines : List Bytes) (index : Nat) :
    offset ending lines index = extent ending (lines.take index) := by
  fun_induction offset ending lines index with
  | case1 index => simp
  | case2 lines => simp
  | case3 line lines index ih => rw [List.take_succ_cons, extent_cons, ih]

theorem offset_eq_of_parts {ending : LineEnding} {lines first second : List Bytes} {index : Nat}
    (parts : lines = first ++ second) (length : first.length = index) :
    offset ending lines index = extent ending first := by
  rw [offset_eq_extent, parts, List.take_left' length]

/-- The lines of a text take the text and one terminator more. -/
theorem extent_cut (ending : LineEnding) (text : Bytes) :
    extent ending (cut ending text) = text.length + ending.width := by
  induction lines : cut ending text generalizing text with
  | nil => exact absurd lines (cut_ne_nil ending text)
  | cons line rest ih =>
    rcases cut_cases ending text with unbroken | ⟨line', rest', rfl, unbroken⟩
    · -- The terminator more is the one that the last line does not have.
      rw [cut_of_unbroken unbroken, List.cons.injEq] at lines
      obtain ⟨rfl, rfl⟩ := lines
      simp
    · rw [cut_unbroken_append unbroken, List.cons.injEq] at lines
      obtain ⟨rfl, lines⟩ := lines
      rw [extent_cons, ih rest' lines, List.length_append, List.length_append, LineEnding.width]
      omega

/-- **What follows the terminator of a line** is the text of the lines that follow. -/
theorem drop_extent {ending : LineEnding} {text : Bytes} {first second : List Bytes}
    (lines : cut ending text = first ++ second) (some_second : second ≠ []) :
    text.drop (extent ending first) = ending.bytes.intercalate second := by
  by_cases none_first : first = []
  · subst none_first
    rw [extent_nil, List.drop_zero, ← List.nil_append second, ← lines, intercalate_cut]
  · obtain ⟨head, tail, rfl, rfl, rfl⟩ := cut_eq_append lines none_first some_second
    rw [extent_cut, ← List.append_assoc, intercalate_cut]
    exact List.drop_left' List.length_append

/-- **What precedes a line** is the text of the lines that precede it, each with its terminator. -/
theorem take_extent {ending : LineEnding} {text : Bytes} {first second : List Bytes}
    (lines : cut ending text = first ++ second) (some_first : first ≠ [])
    (some_second : second ≠ []) :
    text.take (extent ending first) = ending.bytes.intercalate first ++ ending.bytes := by
  obtain ⟨head, tail, rfl, rfl, rfl⟩ := cut_eq_append lines some_first some_second
  rw [extent_cut, ← List.append_assoc, intercalate_cut]
  exact List.take_left' List.length_append

/-! ## How many lines there are -/

/-- **The terminators in a text**: the offsets at which a terminator of the style is complete. -/
def terminators (ending : LineEnding) (text : Bytes) : Nat :=
  (List.range text.length).countP (ending.terminatesAt text)

/-- The bytes of a run that end a line, given the byte before it. -/
def ends (ending : LineEnding) (before : Option UInt8) : Bytes → Nat
  | [] => 0
  | byte :: rest => (if ending.endsAt before byte then 1 else 0) + ends ending (some byte) rest

theorem countP_endsAt (ending : LineEnding) (before : Option UInt8) (text : Bytes) :
    (List.range text.length).countP (fun index => text[index]?.any
      (ending.endsAt (if index = 0 then before else text[index - 1]?))) =
      ends ending before text := by
  induction text generalizing before with
  | nil => rfl
  | cons byte rest ih =>
    -- The offsets behind the first are those of the rest, with the first byte in front of it.
    have later : ((fun index => (byte :: rest)[index]?.any (ending.endsAt
        (if index = 0 then before else (byte :: rest)[index - 1]?))) ∘ Nat.succ) =
        fun index => rest[index]?.any
          (ending.endsAt (if index = 0 then some byte else rest[index - 1]?)) := by
      funext index
      cases index <;> rfl
    rw [List.length_cons, List.range_succ_eq_map, List.countP_cons, List.countP_map, later, ih,
      ends, Nat.add_comm]
    rfl

theorem terminators_eq_ends (ending : LineEnding) (text : Bytes) :
    terminators ending text = ends ending none text :=
  countP_endsAt ending none text

theorem length_splitOn_lineFeed (before : Option UInt8) (text : Bytes) :
    (text.splitOn lineFeed).length = ends .lf before text + 1 := by
  induction text generalizing before with
  | nil => rfl
  | cons byte rest ih =>
    rw [List.splitOn_cons_eq_if_modifyHead, ends]
    by_cases feed : byte = lineFeed
    · rw [if_pos (beq_iff_eq.mpr feed), if_pos (LineEnding.endsAt_lf_iff.mpr feed),
        List.length_cons, ih, Nat.add_comm 1]
    · rw [if_neg (mt beq_iff_eq.mp feed), if_neg (mt LineEnding.endsAt_lf_iff.mp feed),
        List.length_modifyHead, ih, Nat.zero_add]

theorem length_cutAtPairs {before : Option UInt8} (other : before ≠ some carriageReturn)
    (text : Bytes) : (cutAtPairs text).length = ends .crlf before text + 1 := by
  fun_induction cutAtPairs text generalizing before with
  | case1 => rfl
  | case2 byte =>
    rw [ends, if_neg (LineEnding.not_endsAt_crlf other byte)]
    rfl
  | case3 byte next rest pair ih =>
    obtain ⟨rfl, rfl⟩ := pair
    -- Of the two bytes the second one counts, and it is no carriage return for the next.
    have fresh : some lineFeed ≠ some carriageReturn := by decide
    rw [ends, if_neg (LineEnding.not_endsAt_crlf other _), ends,
      if_pos (LineEnding.endsAt_crlf_iff.mpr ⟨rfl, rfl⟩), List.length_cons, ih fresh]
    omega
  | case4 byte next rest apart ih =>
    -- What stands before the rest is this byte now, but no pair begins at it.
    rw [List.length_modifyHead, ih other, ends, ends,
      if_neg (LineEnding.not_endsAt_crlf other next), ends,
      if_neg (LineEnding.not_endsAt_crlf other byte),
      if_neg (LineEnding.not_endsAt_crlf_of_apart apart)]
    simp only [Nat.zero_add]

/-- **A text has one line more than it has terminators.** -/
theorem length_cut (ending : LineEnding) (text : Bytes) :
    (cut ending text).length = terminators ending text + 1 := by
  rw [terminators_eq_ends]
  cases ending
  · exact length_splitOn_lineFeed none text
  · have fresh : none ≠ some carriageReturn := nofun
    exact length_cutAtPairs fresh text

end Line

end MarkedRegions
