import MarkedRegions.Proofs.Scan.Success

/-!
# The point of decision

A verdict is reached at one byte of the text: at the line feed that ends the closing line, or that
ends a line which offends as a whole, or else at the byte that a marker line does not admit. Whatever
follows this byte has no say. Any other text with the same bytes up to there has the same verdict,
even if it goes on with the same region once more, with malformed lines, or in the other style.

On the lines this means that a text which is continued differently keeps the lines that have ended,
and the line that has not keeps its beginning. The style is among what is kept, as soon as one line
has ended. Before that it may still change, but then there is no line feed that could end the line
in either style. And no terminator can reach back into the beginning of a line if this does not end
in a carriage return, as no offending byte does.

## Main definitions

* `EndsAt`: the line with an index is ended by the line feed at an offset
* `DecidedAt`: the byte at which a verdict is reached
* `Decides`: all texts with the same start have the verdict

## Main results

* `exists_cut_of_prefix`: the lines of a text that begins like another
* `Line.Breaks.exists_byte`: a defect is that of its byte and of what stands before it
* `find_eq_of_decidedAt`: what follows the point of decision has no say
-/

namespace MarkedRegions

namespace Line

variable {ending : LineEnding} {text line body more : Bytes} {first second : List Bytes}

/-! ## Texts that begin alike -/

/-- The first line is what the text begins with, and no line ends within it. -/
theorem exists_of_cut_eq_cons (lines : cut ending text = line :: second) :
    ∃ rest, text = line ++ rest ∧ ending.Unbroken none line := by
  rcases cut_cases ending text with unbroken | ⟨line', rest, rfl, unbroken⟩
  · rw [cut_of_unbroken unbroken, List.cons.injEq] at lines
    obtain ⟨rfl, -⟩ := lines
    exact ⟨[], (List.append_nil text).symm, unbroken⟩
  · rw [cut_unbroken_append unbroken, List.cons.injEq] at lines
    obtain ⟨rfl, -⟩ := lines
    exact ⟨_, rfl, unbroken⟩

/-- **What stands before a line** can be followed by any text: the lines before it stay, and the
text that follows is cut by itself. -/
theorem exists_front (lines : cut ending text = first ++ line :: second) :
    ∃ front rest, text = front ++ (line ++ rest) ∧ front.length = extent ending first ∧
      ending.Unbroken none line ∧ (first ≠ [] → front.getLast? = some lineFeed) ∧
      ∀ text', cut ending (front ++ text') = first ++ cut ending text' := by
  by_cases none_first : first = []
  · subst none_first
    obtain ⟨rest, rfl, unbroken⟩ := exists_of_cut_eq_cons lines
    exact ⟨[], rest, rfl, rfl, unbroken, fun some_first => absurd rfl some_first, fun _ => rfl⟩
  · obtain ⟨head, tail, rfl, rfl, cut_tail⟩ :=
      cut_eq_append lines none_first (List.cons_ne_nil line second)
    obtain ⟨rest, rfl, unbroken⟩ := exists_of_cut_eq_cons cut_tail
    refine ⟨head ++ ending.bytes, rest, by simp, ?_, unbroken, ?_, ?_⟩
    · rw [extent_cut, List.length_append, LineEnding.width]
    · intro _
      exact LineEnding.getLast?_append_bytes head ending
    · intro text'
      rw [List.append_assoc, cut_append]

/-- **The first line holds no line feed**: the first one of the text settles the style, and ends a
line of this style. -/
theorem lineFeed_not_mem_first (lines : cut (.ofText text) text = line :: second) :
    lineFeed ∉ line := by
  by_cases settled : lineFeed ∈ text
  case neg =>
    rw [cut_of_unbroken (LineEnding.unbroken_of_not_mem _ settled), List.cons.injEq] at lines
    exact lines.1 ▸ settled
  case pos =>
    obtain ⟨front, back, rfl, alone⟩ := List.eq_append_cons_of_mem settled
    rw [LineEnding.ofText_of_first alone] at lines
    by_cases last : front.getLast? = some carriageReturn
    · -- The carriage return before it belongs to the terminator.
      obtain ⟨front, rfl⟩ := List.getLast?_eq_some_iff.mp last
      rw [List.mem_append, not_or] at alone
      have parts : front ++ [carriageReturn] ++ lineFeed :: back =
          front ++ (LineEnding.crlf.bytes ++ back) := by simp [LineEnding.bytes]
      rw [if_pos last, parts, cut_unbroken_append (LineEnding.unbroken_of_not_mem _ alone.1),
        List.cons.injEq] at lines
      exact lines.1 ▸ alone.1
    · have parts : front ++ lineFeed :: back = front ++ (LineEnding.lf.bytes ++ back) := rfl
      rw [if_neg last, parts, cut_unbroken_append (LineEnding.unbroken_of_not_mem _ alone),
        List.cons.injEq] at lines
      exact lines.1 ▸ alone

/-- **The beginning of a line** stays whatever follows, unless it ends in a carriage return. -/
theorem exists_cut_of_unbroken (unbroken : ending.Unbroken none body)
    (last : body.getLast? ≠ some carriageReturn) (rest : Bytes) :
    ∃ more second, cut ending (body ++ rest) = (body ++ more) :: second := by
  have goes_on {more : Bytes} (unbroken' : ending.Unbroken none more) :
      ending.Unbroken none (body ++ more) := by
    refine LineEnding.unbroken_append_iff.mpr ⟨unbroken, unbroken'.of_ne_carriageReturn ?_⟩
    rwa [Option.or_none]
  rcases cut_cases ending rest with unbroken' | ⟨more, rest, rfl, unbroken'⟩
  · exact ⟨rest, [], cut_of_unbroken (goes_on unbroken')⟩
  · refine ⟨more, cut ending rest, ?_⟩
    rw [← List.append_assoc, cut_unbroken_append (goes_on unbroken')]

/-- **The lines of a text that begins alike**, up to within a line: those that have ended are the
same, and the line keeps its beginning. The style is the same too, if a line has ended. -/
theorem exists_cut_of_prefix (lines : cut (.ofText text) text = first ++ (body ++ more) :: second)
    (last : body.getLast? ≠ some carriageReturn) :
    extent (.ofText text) first + body.length ≤ text.length ∧
      ∀ text', text.take (extent (.ofText text) first + body.length) <+: text' →
        (first ≠ [] → LineEnding.ofText text' = .ofText text) ∧
          ∃ more' second', cut (.ofText text') text' = first ++ (body ++ more') :: second' := by
  obtain ⟨front, behind, parts, length, unbroken, settled, cut_front⟩ := exists_front lines
  have reach : (front ++ body).length = extent (.ofText text) first + body.length := by
    rw [List.length_append, length]
  have parts' : text = front ++ body ++ (more ++ behind) := by simpa using parts
  have upTo : text.take (extent (.ofText text) first + body.length) = front ++ body := by
    rw [← reach, parts', List.take_left]
  refine ⟨by rw [← reach, parts']; simp, ?_⟩
  rw [upTo]
  rintro _ ⟨rest, rfl⟩
  have style (some_first : first ≠ []) :
      LineEnding.ofText (front ++ body ++ rest) = .ofText text := by
    have feed := List.mem_of_getLast? (settled some_first)
    rw [parts, List.append_assoc, LineEnding.ofText_append feed, LineEnding.ofText_append feed]
  refine ⟨style, ?_⟩
  by_cases none_first : first = []
  · -- The style may be another, but nothing ends a line in any.
    subst none_first
    obtain rfl : front = [] := List.eq_nil_of_length_eq_zero length
    have none_inside := lineFeed_not_mem_first lines
    rw [List.mem_append, not_or] at none_inside
    exact exists_cut_of_unbroken (LineEnding.unbroken_of_not_mem _ none_inside.1) last rest
  · obtain ⟨more', second', cut_rest⟩ :=
      exists_cut_of_unbroken (LineEnding.unbroken_append_iff.mp unbroken).1 last rest
    refine ⟨more', second', ?_⟩
    rw [style none_first, List.append_assoc, cut_front, cut_rest]

/-! ## The byte of a defect -/

/-- How many bytes of the line stand before the refused one. -/
def Defect.column : Defect → Nat
  | .unexpected column _ _ | .nameTooLong column => column

/-- **A defect is that of its byte** and of what stands before it, however the line goes on. -/
theorem Breaks.exists_byte {lead : Bytes} {defect : Defect} (breaks : Breaks lead line defect) :
    ∃ front byte rest, line = front ++ byte :: rest ∧ front.length = defect.column ∧
      ¬ isBlank byte ∧ ∀ rest', Breaks lead (front ++ byte :: rest') defect := by
  cases breaks with
  | @command ws rest byte blank solid noBrace =>
    refine ⟨lead ++ ws, byte, rest, by simp, by simp [Defect.column], solid, ?_⟩
    intro rest'
    rw [List.append_assoc]
    exact .command blank solid noBrace
  | @name ws ws' name rest byte command blank blank' full solid more =>
    refine ⟨lead ++ (ws ++ command.toByte :: (ws' ++ name)), byte, rest, by simp,
      by simp [Defect.column]; omega, more, ?_⟩
    intro rest'
    simp only [List.append_assoc, List.cons_append]
    exact .name command blank blank' full solid more
  | @endOfLine ws ws' ws'' name rest byte command blank blank' isName apart blank'' solid =>
    refine ⟨lead ++ (ws ++ command.toByte :: (ws' ++ (name ++ ws''))), byte, rest, by simp,
      by simp [Defect.column]; omega, solid, ?_⟩
    intro rest'
    simp only [List.append_assoc, List.cons_append]
    exact .endOfLine command blank blank' isName apart blank'' solid

end Line

namespace Scan

open Line (Opens Closes cut extent offset)

/-- The line with an index is ended by the line feed at an offset. -/
def EndsAt (text : Bytes) (index point : Nat) : Prop :=
  index + 1 < (cut (.ofText text) text).length ∧
    point + 1 = offset (.ofText text) (cut (.ofText text) text) (index + 1)

/-- **The byte at which a verdict is reached**, if it is reached before the end of the text. Lines
and columns of errors count from one. -/
def DecidedAt (query : Query) (text : Bytes) (point : Nat) : Except ScanError Region → Prop
  -- At the end of the closing line.
  | .ok _ => ∃ i j, Encloses query.lead query.marker (cut (.ofText text) text) i j ∧
      EndsAt text j point
  -- At the refused byte.
  | .error (.unexpected line column _ _) | .error (.nameTooLong line column) =>
    point + 1 = offset (.ofText text) (cut (.ofText text) text) (line - 1) + column
  -- At the end of the line.
  | .error (.namelessEnd line _) | .error (.nested _ line _) => EndsAt text (line - 1) point
  -- Only the end of the text tells that a marker line is missing.
  | .error (.notFound _) | .error (.unterminated _ _) => False

/-- **A start decides** if all texts with this start have the same verdict. -/
def Decides (query : Query) (start : Bytes) (verdict : Except ScanError Region) : Prop :=
  ∀ text, start <+: text → find query text = verdict

variable {query : Query} {text line : Bytes} {before after : List Bytes} {opened : Option Nat}
  {verdict : Except ScanError Region} {index point : Nat}

/-- A line ends with a line feed of the text. -/
theorem EndsAt.getElem? (ended : EndsAt text index point) : text[point]? = some lineFeed := by
  obtain ⟨inside, place⟩ := ended
  obtain ⟨front, rest, parts, length, -, settled, -⟩ := Line.exists_front
    (lines_eq_of_getElem? (List.getElem?_eq_getElem inside))
  rw [← Line.offset_eq_extent, ← place] at length
  have some_first : (cut (.ofText text) text).take (index + 1) ≠ [] := by
    rw [ne_eq, List.take_eq_nil_iff, not_or]
    exact ⟨Nat.succ_ne_zero index, Line.cut_ne_nil _ text⟩
  rw [parts, List.getElem?_append_left (by omega), ← settled some_first,
    List.getLast?_eq_getElem?, length, Nat.add_sub_cancel]

/-! ## What decides -/

/-- **A verdict on a line that has ended** depends on nothing behind the line. -/
theorem decides_of_endsAt (lines : cut (.ofText text) text = before ++ line :: after)
    (ended : EndsAt text before.length point)
    (course : ∀ after', Course query (.ofText text) (before ++ line :: after') verdict) :
    point < text.length ∧ Decides query (text.take (point + 1)) verdict := by
  obtain ⟨inside, place⟩ := ended
  -- The line has ended, so another one has begun, of which nothing needs to be kept.
  cases after with
  | nil => simp [lines] at inside
  | cons next after =>
    have parts : cut (.ofText text) text = (before ++ [line]) ++ ([] ++ next) :: after := by
      simpa using lines
    obtain ⟨within, alike⟩ := Line.exists_cut_of_prefix parts nofun
    rw [Line.offset_eq_of_parts parts (by simp)] at place
    rw [List.length_nil, Nat.add_zero, ← place] at within alike
    refine ⟨within, ?_⟩
    intro text' begins
    obtain ⟨style, more, after', lines'⟩ := alike text' begins
    rw [find_eq_iff_course, lines', style (by simp), List.append_assoc, List.singleton_append]
    exact course _

/-- **A verdict on the byte of a defect** depends on nothing behind the byte. -/
theorem decides_of_breaks {defect : Line.Defect}
    (lines : cut (.ofText text) text = before ++ line :: after)
    (behind : Underway query.lead query.marker before opened)
    (breaks : Line.Breaks query.lead line defect)
    (place : point = extent (.ofText text) before + defect.column) :
    point < text.length ∧
      Decides query (text.take (point + 1)) (.error (defect.onLine (before.length + 1))) := by
  obtain ⟨front, byte, more, rfl, column, solid, breaks'⟩ := breaks.exists_byte
  have parts : cut (.ofText text) text = before ++ ((front ++ [byte]) ++ more) :: after := by
    simpa using lines
  have last : (front ++ [byte]).getLast? ≠ some carriageReturn := by
    rw [List.getLast?_concat]
    rintro ⟨⟩
    exact solid (by decide)
  obtain ⟨within, alike⟩ := Line.exists_cut_of_prefix parts last
  rw [List.length_append, column, List.length_singleton, ← Nat.add_assoc, ← place] at within alike
  refine ⟨within, ?_⟩
  intro text' begins
  obtain ⟨-, more', after', lines'⟩ := alike text' begins
  rw [List.append_assoc, List.singleton_append] at lines'
  exact find_eq_iff_course.mpr (.offends lines' behind (.malformed (breaks' more')))

/-- **The bytes up to the point of decision** decide. The cases are the courses of a scan. -/
theorem DecidedAt.decides (decided : DecidedAt query text point verdict)
    (found : find query text = verdict) :
    point < text.length ∧ Decides query (text.take (point + 1)) verdict := by
  cases verdict with
  | ok region =>
    obtain ⟨i, j, encloses, ended⟩ := decided
    obtain ⟨before, line, after, lines, rfl, behind, closes⟩ := encloses_iff.mp encloses
    have course (after' : List Bytes) :
        Course query (.ofText text) (before ++ line :: after') _ := .closes rfl behind closes
    have same := found.symm.trans (find_eq_iff_course.mpr (lines ▸ course after))
    rw [same]
    exact decides_of_endsAt lines ended course
  | error e =>
    cases find_eq_iff_course.mp found with
    | @ends opened behind =>
      -- The text was read to its end, which is no point of decision.
      cases opened <;> cases decided
    | @offends before after line opened e lines behind offends =>
      have line_start : offset (.ofText text) (cut (.ofText text) text) before.length =
          extent (.ofText text) before := Line.offset_eq_of_parts lines rfl
      cases offends with
      | @malformed defect breaks =>
        refine decides_of_breaks lines behind breaks ?_
        rw [← line_start]
        cases defect <;> exact Nat.succ.inj decided
      | namelessEnd reads =>
        exact decides_of_endsAt lines decided fun _ => .offends rfl behind (.namelessEnd reads)
      | nested already reads =>
        exact decides_of_endsAt lines decided fun _ => .offends rfl behind (.nested already reads)

/-- **What follows the point of decision has no say.** If a scan finds a region and the closing line
is ended, or if it fails on a byte, or on a line that is ended, then the text up to the byte or to
the end of the line decides: continued in any way, it has the same verdict, and so has any text
that agrees with it up to there. -/
theorem find_eq_of_decidedAt (found : find query text = verdict)
    (decided : DecidedAt query text point verdict) :
    point < text.length ∧ (∀ rest, find query (text.take (point + 1) ++ rest) = verdict) ∧
      ∀ text' : Bytes, (∀ index ≤ point, text'[index]? = text[index]?) →
        find query text' = verdict := by
  obtain ⟨within, decides⟩ := decided.decides found
  refine ⟨within, fun rest => decides _ (List.prefix_append _ rest), ?_⟩
  intro text' agree
  apply decides
  have alike : text.take (point + 1) = text'.take (point + 1) := by
    apply List.ext_getElem?
    intro index
    by_cases upTo : index < point + 1
    · rw [List.getElem?_take_of_lt upTo, List.getElem?_take_of_lt upTo]
      exact (agree index (Nat.lt_succ_iff.mp upTo)).symm
    · rw [List.getElem?_take, List.getElem?_take, if_neg upTo, if_neg upTo]
  rw [alike]
  exact List.take_prefix ..

/-- A region whose closing line is ended, with a malformed line behind it. -/
theorem find_eq_of_decidedAt_of_malformed_rest :
    find ⟨[0x23], [0x74]⟩ [0x23, 0x7b, 0x74, 0x0a, 0x23, 0x7d, 0x74, 0x0a, 0x23, 0x78] =
        .ok ⟨4, 4, .lf, false⟩ ∧
      ∀ rest, find ⟨[0x23], [0x74]⟩ ([0x23, 0x7b, 0x74, 0x0a, 0x23, 0x7d, 0x74, 0x0a] ++ rest) =
        .ok ⟨4, 4, .lf, false⟩ := by
  have found : find ⟨[0x23], [0x74]⟩
      [0x23, 0x7b, 0x74, 0x0a, 0x23, 0x7d, 0x74, 0x0a, 0x23, 0x78] = .ok ⟨4, 4, .lf, false⟩ := rfl
  have opens : Opens [0x23] [0x74] [0x23, 0x7b, 0x74] := Line.opens_iff.mpr ⟨2, rfl⟩
  have closes : Closes [0x23] [0x23, 0x7d, 0x74] := Line.closes_iff.mpr ⟨[0x74], 2, rfl⟩
  have encloses :
      Encloses [0x23] [0x74] [[0x23, 0x7b, 0x74], [0x23, 0x7d, 0x74], [0x23, 0x78]] 0 1 :=
    encloses_iff.mpr ⟨[[0x23, 0x7b, 0x74]], _, _, rfl, rfl, .opens .start opens, closes⟩
  have ended : EndsAt [0x23, 0x7b, 0x74, 0x0a, 0x23, 0x7d, 0x74, 0x0a, 0x23, 0x78] 1 7 :=
    ⟨by decide, by decide⟩
  exact ⟨found, (find_eq_of_decidedAt found ⟨0, 1, encloses, ended⟩).2.1⟩

end Scan

end MarkedRegions
