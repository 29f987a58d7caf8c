import MarkedRegions.Proofs.Scan.Decision
import MarkedRegions.Proofs.Scan.Failure
import MarkedRegions.Proofs.Text.Encoded

/-!
# What an unterminated region lacks

A scan that finds a region opened and not closed has passed over everything else, so all that the
text lacks is a line that closes the region. One line at its end is enough, behind a terminator of
the text's style: then the region is found, and it holds all that follows its opening line. Whatever
the last line of the text is, the terminator ends it, and it is the line that it was.

There is one exception. A text without a line feed has not settled its style, and the terminator that
is put behind it settles it. If the text ends in a carriage return, then this byte now belongs to the
terminator, and the line is shorter by it. But a text without a line feed is a single line, which must
be the one that opens the region, and at the end of a marker line a carriage return is a blank.

The line must give a name. A brace alone closes nothing, and a text that is completed by the lead and
a brace, as the message of such a scan has it, is refused at that line.

## Main definitions

* `Line.addLine`: a text with a line more
* `Scan.Completes`: what is known of the lines in front of the added one

## Main results

* `cut_addLine`: the lines of a text with a line more
* `Underway.exists_completes`: a scan comes to the added line with its region open
* `find_addLine_named`: a closing line with a name completes the region
* `find_addLine_advised`: the line that the message advises does not
-/

namespace MarkedRegions

namespace Line

variable {text line closing : Bytes}

/-! ## Lines of the lead and a brace -/

/-- **The lead, a brace and a name** close a region. -/
theorem closes_append_name (lead : Bytes) {name : Bytes} (isName : IsName name) :
    Closes lead (lead ++ closeBrace :: name) := by
  have none_blank : AreBlank [] := List.forall_mem_nil _
  have reads : Reads lead (lead ++ ([] ++ closeBrace :: ([] ++ (name ++ [])))) _ :=
    .named .closing none_blank none_blank isName none_blank
  rw [List.append_nil] at reads
  exact ⟨name, _, reads⟩

/-- The lead and a brace close nothing. -/
theorem reads_append_brace (lead : Bytes) :
    Reads lead (lead ++ [closeBrace]) (.bare .closing lead.length) := by
  have none_blank : AreBlank [] := List.forall_mem_nil _
  exact .bare .closing none_blank none_blank

/-! ## A line more -/

/-- **A text with a line more** at its end, behind a terminator of its style. -/
def addLine (text line : Bytes) : Bytes :=
  text ++ ((LineEnding.ofText text).bytes ++ line)

/-- **The lines of a text with a line more** are its lines and that one, unless the text is a single
line that ends in a carriage return. -/
theorem cut_addLine (unbroken : (LineEnding.ofText text).Unbroken none closing) :
    LineEnding.ofText (addLine text closing) = .ofText text ∧
        cut (.ofText text) (addLine text closing) = cut (.ofText text) text ++ [closing] ∨
      ∃ line, text = line ++ [carriageReturn] ∧ lineFeed ∉ text ∧
        LineEnding.ofText text = .lf ∧ LineEnding.ofText (addLine text closing) = .crlf ∧
        cut .crlf (addLine text closing) = [line, closing] := by
  have added : cut (.ofText text) (addLine text closing) = cut (.ofText text) text ++ [closing] := by
    rw [addLine, cut_append, cut_of_unbroken unbroken]
  by_cases settled : lineFeed ∈ text
  · exact .inl ⟨LineEnding.ofText_append settled _, added⟩
  · have plain : LineEnding.ofText text = .lf := if_neg fun feed => settled feed.1
    have parts : addLine text closing = text ++ lineFeed :: closing := by
      rw [addLine, plain]
      rfl
    have style := LineEnding.ofText_of_first settled closing
    rw [← parts] at style
    by_cases last : text.getLast? = some carriageReturn
    · -- The added line feed makes a pair with the last byte of the text.
      rw [if_pos last] at style
      rw [plain] at unbroken
      obtain ⟨line, rfl⟩ := List.getLast?_eq_some_iff.mp last
      have alone : lineFeed ∉ line := fun inside => settled (List.mem_append_left _ inside)
      have parts' : addLine (line ++ [carriageReturn]) closing =
          line ++ (LineEnding.crlf.bytes ++ closing) := by
        rw [parts]
        simp [LineEnding.bytes]
      refine .inr ⟨line, rfl, settled, plain, style, ?_⟩
      rw [parts', cut_unbroken_append (LineEnding.unbroken_of_not_mem _ alone),
        cut_of_unbroken (LineEnding.unbroken_of_not_mem _ (LineEnding.unbroken_lf_iff.mp unbroken))]
    · rw [if_neg last, ← plain] at style
      exact .inl ⟨style, added⟩

end Line

namespace Scan

open Line (Opens Closes addLine cut extent offset)

variable {lead marker name rest text line closing : Bytes} {query : Query} {lines : List Bytes}
  {index : Nat}

/-! ## Behind an unterminated text -/

/-- **A text is unterminated** if a scan has the region open at its end. -/
theorem exists_underway_of_unterminated
    (unclosed : find query text = .error (.unterminated name lead)) :
    name = query.marker ∧ lead = query.lead ∧
      ∃ index, Underway query.lead query.marker (cut (.ofText text) text) (some index) := by
  rw [find_eq_iff_course] at unclosed
  generalize wrong : (.error (.unterminated name lead) : Except ScanError Region) = verdict at unclosed
  cases unclosed with
  | closes => cases wrong
  | offends parts behind offends =>
    cases offends with
    | malformed breaks =>
      cases breaks <;> cases wrong
    | namelessEnd | nested => cases wrong
  | @ends opened behind =>
    cases opened with
    | none => cases wrong
    | some index =>
      cases wrong
      exact ⟨rfl, rfl, index, behind⟩

/-- Of the lines behind a scan with an open region, only one opens the region. -/
theorem Underway.opens_iff (behind : Underway lead marker lines (some index)) {k : Nat}
    (found : lines[k]? = some line) : Opens lead marker line ↔ k = index := by
  obtain ⟨before, opening, inner, rfl, rfl, idle, opens, inert⟩ := underway_some_iff.mp behind
  rcases getElem?_parts found with ⟨earlier, inside⟩ | ⟨rfl, rfl⟩ | ⟨later, inside⟩
  · exact iff_of_false (idle line inside).not_opens earlier.ne
  · exact iff_of_true opens rfl
  · exact iff_of_false (inert line inside).not_opens later.ne'

/-- **The lead begins a line of the text**, so a line that begins with it and goes on without a line
feed is one line in the style of the text. -/
theorem Underway.unbroken_closing {ending : LineEnding}
    (behind : Underway lead marker (cut ending text) (some index)) (alone : lineFeed ∉ rest) :
    ending.Unbroken none (lead ++ closeBrace :: rest) := by
  obtain ⟨before, opening, inner, parts, -, -, ⟨column, reads⟩, -⟩ := underway_some_iff.mp behind
  obtain ⟨-, -, -, -, unbroken, -⟩ := Line.exists_front parts
  have behind_lead : lineFeed ∉ closeBrace :: rest := by
    rw [List.mem_cons, not_or]
    exact ⟨by decide, alone⟩
  cases reads with
  | named =>
    exact LineEnding.unbroken_append_iff.mpr
      ⟨(LineEnding.unbroken_append_iff.mp unbroken).1,
        LineEnding.unbroken_of_not_mem ending behind_lead⟩

/-! ## In front of the added line -/

/-- **What is known of the lines in front of the added one**: a scan passes over them with the region
open, and they take the bytes that those of the text have taken. -/
structure Completes (query : Query) (text closing : Bytes) (index : Nat) (before : List Bytes) :
    Prop where
  lines : cut (.ofText (addLine text closing)) (addLine text closing) = before ++ [closing]
  behind : Underway query.lead query.marker before (some index)
  length : before.length = (cut (.ofText text) text).length
  start : extent (.ofText (addLine text closing)) (before.take (index + 1)) =
    offset (.ofText text) (cut (.ofText text) text) (index + 1)
  whole : extent (.ofText (addLine text closing)) before =
    text.length + (LineEnding.ofText text).width
  -- Where the style is another, there is no line but the opening one.
  style : index + 1 < before.length → LineEnding.ofText (addLine text closing) = .ofText text

/-- At the end of an opening line a carriage return is a blank. -/
theorem opens_of_append_carriageReturn (opens : Opens lead marker (line ++ [carriageReturn])) :
    Opens lead marker line := by
  obtain ⟨column, named⟩ := Line.opens_iff.mp opens
  refine Line.opens_iff.mpr ⟨column, ?_⟩
  rcases Line.kind_append_blank lead line (show isBlank carriageReturn by decide) with
    same | ⟨-, blank⟩
  · rw [← same, named]
  · rw [blank] at named
    cases named

/-- **A scan comes to the added line with its region open.** -/
theorem Underway.exists_completes
    (behind : Underway query.lead query.marker (cut (.ofText text) text) (some index))
    (unbroken : (LineEnding.ofText text).Unbroken none closing) :
    ∃ before, Completes query text closing index before := by
  rcases Line.cut_addLine unbroken with
    ⟨style, lines⟩ | ⟨line, rfl, alone, plain, style, lines⟩
  · refine ⟨cut (.ofText text) text, by rw [style, lines], behind, rfl, ?_, ?_, fun _ => style⟩
    · rw [style, Line.offset_eq_extent]
    · rw [style, Line.extent_cut]
  · -- The text is its opening line, which has lost its last byte to the terminator.
    have single : cut (.ofText (line ++ [carriageReturn])) (line ++ [carriageReturn]) =
        [line ++ [carriageReturn]] := Line.cut_of_unbroken (LineEnding.unbroken_of_not_mem _ alone)
    have opens := behind.index_lt
    rw [single] at behind opens
    obtain rfl : index = 0 := Nat.lt_one_iff.mp opens
    have first : [line ++ [carriageReturn]][0]? = some (line ++ [carriageReturn]) := rfl
    have opening := opens_of_append_carriageReturn ((behind.opens_iff first).mpr rfl)
    refine ⟨[line], by rw [style, lines]; rfl, Underway.start.opens opening, by rw [single]; rfl,
      ?_, ?_, ?_⟩
    · rw [style, single, plain]
      simp [offset]
    · rw [style, plain]
      simp
    · intro more
      simp at more

/-! ## The added line -/

namespace Completes

variable {before : List Bytes}

/-- The region starts where it would have, and the added line starts behind the terminator that has
been added. -/
theorem find_eq_upTo (completes : Completes query text closing index before)
    (closes : Closes query.lead closing) :
    find query (addLine text closing) = .ok (.upTo (.ofText (addLine text closing))
      (offset (.ofText text) (cut (.ofText text) text) (index + 1))
      (text.length + (LineEnding.ofText text).width)) := by
  rw [← completes.start, ← completes.whole]
  exact find_eq_iff_course.mpr (.closes completes.lines completes.behind closes)

/-- Where a line follows the opening line, the region starts within the text. -/
theorem offset_le (completes : Completes query text closing index before)
    (more : index + 1 < before.length) :
    offset (.ofText text) (cut (.ofText text) text) (index + 1) ≤ text.length := by
  have inside : before.take (index + 1) ++ before.drop (index + 1) = before :=
    List.take_append_drop _ _
  obtain ⟨next, lines, rest⟩ := List.exists_cons_of_ne_nil
    (show before.drop (index + 1) ≠ [] by rwa [ne_eq, List.drop_eq_nil_iff, Nat.not_le])
  -- The lines that follow take at least the terminator that has been added.
  have whole := completes.whole
  have start := completes.start
  rw [completes.style more] at whole start
  rw [← inside, rest, Line.extent_append, Line.extent_cons, start] at whole
  omega

/-- Where no line follows it, the region starts behind the terminator that has been added. -/
theorem offset_eq (completes : Completes query text closing index before)
    (last : ¬ index + 1 < before.length) :
    offset (.ofText text) (cut (.ofText text) text) (index + 1) =
      text.length + (LineEnding.ofText text).width := by
  rw [← completes.start, ← completes.whole, List.take_of_length_le (Nat.not_lt.mp last)]

/-- **A region that is closed by the added line** holds all that follows its opening line. -/
theorem find_eq (completes : Completes query text closing index before)
    (closes : Closes query.lead closing) :
    ∃ region, find query (addLine text closing) = .ok region ∧
      if index + 1 < (cut (.ofText text) text).length then
        region.trailing = true ∧ region.contents? (addLine text closing) =
          some (text.drop (offset (.ofText text) (cut (.ofText text) text) (index + 1)))
      else
        region.trailing = false ∧ region.contents? (addLine text closing) = some [] := by
  refine ⟨_, completes.find_eq_upTo closes, ?_⟩
  have within : text.length + (LineEnding.ofText text).width ≤ (addLine text closing).length := by
    rw [addLine, List.length_append, List.length_append, LineEnding.width]
    omega
  rw [← completes.length]
  by_cases more : index + 1 < before.length
  · have ordered := completes.offset_le more
    have within' : text.length ≤ (addLine text closing).length := by omega
    have positive := Line.width_pos (.ofText text)
    rw [if_pos more, completes.style more, Region.upTo, if_pos (by omega), Nat.add_sub_cancel]
    refine ⟨rfl, ?_⟩
    rw [Region.contents?, if_pos ⟨ordered, within'⟩, addLine, List.take_left]
  · rw [if_neg more, completes.offset_eq more, Region.upTo, if_neg (Nat.lt_irrefl _)]
    refine ⟨rfl, ?_⟩
    rw [Region.contents?, if_pos ⟨Nat.le_refl _, within⟩, List.drop_take, Nat.sub_self,
      List.take_zero]

end Completes

/-- **A closing line with a name is all that is missing.** Whatever text is unterminated, and whatever
name the line gives, the region is found once the line has been added. It holds all that follows the
line which opens it, in front of a terminator; or it is empty and has none, if that is the last line of
the text. -/
theorem find_addLine_named (unclosed : find query text = .error (.unterminated name lead))
    {given : Bytes} (isName : Line.IsName given) :
    ∃ i, i < (cut (.ofText text) text).length ∧
      (∀ k line, (cut (.ofText text) text)[k]? = some line →
        (Opens query.lead query.marker line ↔ k = i)) ∧
      ∃ region, find query (addLine text (query.lead ++ closeBrace :: given)) = .ok region ∧
        if i + 1 < (cut (.ofText text) text).length then
          region.trailing = true ∧
            region.contents? (addLine text (query.lead ++ closeBrace :: given)) =
              some (text.drop (offset (.ofText text) (cut (.ofText text) text) (i + 1)))
        else
          region.trailing = false ∧
            region.contents? (addLine text (query.lead ++ closeBrace :: given)) = some [] := by
  obtain ⟨-, -, index, behind⟩ := exists_underway_of_unterminated unclosed
  have alone : lineFeed ∉ given := fun feed => isName.solid lineFeed feed (by decide)
  obtain ⟨before, completes⟩ := behind.exists_completes (behind.unbroken_closing alone)
  exact ⟨index, behind.index_lt, fun k line found => behind.opens_iff found,
    completes.find_eq (Line.closes_append_name query.lead isName)⟩

/-- A text without a line feed that ends in a carriage return: what is added makes this the first byte
of a terminator, and the region has no line. -/
theorem find_addLine_named_of_carriageReturn :
    ∃ region, find ⟨[0x23], [0x74]⟩ (addLine [0x23, 0x7b, 0x74, 0x0d] [0x23, 0x7d, 0x6e]) =
        .ok region ∧ region.trailing = false ∧
      region.contents? (addLine [0x23, 0x7b, 0x74, 0x0d] [0x23, 0x7d, 0x6e]) = some [] := by
  have unclosed : find ⟨[0x23], [0x74]⟩ [0x23, 0x7b, 0x74, 0x0d] =
      .error (.unterminated [0x74] [0x23]) := rfl
  have solid : Line.AreSolid [0x6e] := List.forall_mem_singleton.mpr (by decide)
  have isName : Line.IsName [0x6e] := ⟨by decide, by decide, solid⟩
  obtain ⟨i, -, -, region, found, holds⟩ := find_addLine_named unclosed isName
  have last : ¬ i + 1 < (cut (.ofText [0x23, 0x7b, 0x74, 0x0d]) [0x23, 0x7b, 0x74, 0x0d]).length :=
    Nat.not_lt.mpr (Nat.le_add_left 1 i)
  rw [if_neg last] at holds
  exact ⟨region, found, holds⟩

/-! ## The advice -/

/-- **The lead and a brace** do not complete a region. The scan comes to them and refuses them. -/
theorem find_addLine_brace (unclosed : find query text = .error (.unterminated name lead)) :
    find query (addLine text (query.lead ++ [closeBrace])) =
      .error (.namelessEnd ((cut (.ofText text) text).length + 1) (query.lead.length + 1)) := by
  obtain ⟨-, -, index, behind⟩ := exists_underway_of_unterminated unclosed
  obtain ⟨before, completes⟩ := behind.exists_completes (behind.unbroken_closing List.not_mem_nil)
  rw [← completes.length]
  exact find_eq_iff_course.mpr (.offends completes.lines completes.behind
    (.namelessEnd (Line.reads_append_brace query.lead)))

/-- What the message of an unterminated text quotes: the lead and a closing brace. -/
theorem message_unterminated (name : Bytes) (given : String) :
    (ScanError.unterminated name (Bytes.ofString given)).message =
      "Expected end of marker '" ++ Utf8.lossy name ++ "', got end of buffer. Please add '"
        ++ (given ++ "\x7d") ++ "'" := by
  have quoted : "\x7d'" = "\x7d" ++ "'" := by decide +kernel
  have worded : (ScanError.unterminated name (Bytes.ofString given)).message =
      "Expected end of marker '" ++ Utf8.lossy name ++ "', got end of buffer. Please add '"
        ++ Utf8.lossy (Bytes.ofString given) ++ "\x7d'" := rfl
  rw [worded, Utf8.lossy_ofString, quoted]
  simp only [String.append_assoc]

theorem ofString_append_brace (given : String) :
    Bytes.ofString (given ++ "\x7d") = Bytes.ofString given ++ [closeBrace] := by
  have brace : Bytes.ofString "\x7d" = [closeBrace] := by
    rw [Bytes.ofString_eq_flatMap]
    decide
  rw [Bytes.ofString_append, brace]

/-- **What the message of an unterminated text advises is refused.** Behind `Please add` it quotes the
lead and a closing brace. If a line of just these is added, then the scan comes to it and refuses it,
since it gives no name. -/
theorem find_addLine_advised {given : String}
    (unclosed : find ⟨Bytes.ofString given, marker⟩ text = .error (.unterminated name lead)) :
    (ScanError.unterminated name lead).message =
        "Expected end of marker '" ++ Utf8.lossy marker ++ "', got end of buffer. Please add '"
          ++ (given ++ "\x7d") ++ "'" ∧
      find ⟨Bytes.ofString given, marker⟩ (addLine text (Bytes.ofString (given ++ "\x7d"))) =
        .error (.namelessEnd ((cut (.ofText text) text).length + 1)
          ((Bytes.ofString given).length + 1)) := by
  obtain ⟨rfl, rfl, -⟩ := exists_underway_of_unterminated unclosed
  refine ⟨message_unterminated name given, ?_⟩
  rw [ofString_append_brace]
  exact find_addLine_brace unclosed

/-- The advice on a text whose lines end in two bytes and that ends within a line. -/
theorem find_addLine_advised_of_two_byte_ending :
    find ⟨Bytes.ofString "#", [0x74]⟩
        (addLine [0x23, 0x7b, 0x74, 0x0d, 0x0a, 0x61] (Bytes.ofString ("#" ++ "\x7d"))) =
      .error (.namelessEnd 3 2) := by
  have lead : Bytes.ofString "#" = [0x23] := by
    rw [Bytes.ofString_eq_flatMap]
    decide
  have unclosed : find ⟨Bytes.ofString "#", [0x74]⟩ [0x23, 0x7b, 0x74, 0x0d, 0x0a, 0x61] =
      .error (.unterminated [0x74] [0x23]) := by
    rw [lead]
    rfl
  obtain ⟨-, refused⟩ := find_addLine_advised unclosed
  rw [refused, lead]
  rfl

/-- The advice does not complete every unterminated text, nor the simplest one in the standard style. -/
theorem not_find_addLine_advised :
    ¬ ∀ (given : String) (marker text : Bytes),
      find ⟨Bytes.ofString given, marker⟩ text =
          .error (.unterminated marker (Bytes.ofString given)) →
        ∃ region, find ⟨Bytes.ofString given, marker⟩
          (addLine text (Bytes.ofString (given ++ "\x7d"))) = .ok region := by
  intro completes
  have lead : Bytes.ofString MarkerStyle.standardLead = [0x2f, 0x2f, 0x21, 0x6d, 0x72, 0x20] := by
    rw [Bytes.ofString_eq_flatMap]
    decide
  -- The text has an opening line for `test` and the line `body`.
  obtain ⟨region, found⟩ := completes MarkerStyle.standardLead [0x74, 0x65, 0x73, 0x74]
    [0x2f, 0x2f, 0x21, 0x6d, 0x72, 0x20, 0x7b, 0x74, 0x65, 0x73, 0x74, 0x0a, 0x62, 0x6f, 0x64, 0x79]
    (by rw [lead]; rfl)
  rw [ofString_append_brace, lead] at found
  cases found

end Scan

end MarkedRegions
