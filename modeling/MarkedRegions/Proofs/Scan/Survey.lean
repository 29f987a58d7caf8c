import MarkedRegions.Proofs.Line.Cutting
import MarkedRegions.Proofs.Scan.Effect
import MarkedRegions.Scan.State

/-!
# A scan is a survey of lines

The scan never cuts its text: it settles the line ending on the way, feeds the carriage return of a
two-byte terminator to the line automaton like any other byte, and takes its decisions when a
terminator has been recognised. A survey does the same work on a list of lines that has been cut
beforehand in a style known beforehand, and looks at every line as a whole. The two come to the
same verdict on every text, lead and name.

Three differences have to be bridged. That the style is known from the start makes none, because no
byte ends a line before it is settled (`resume_settled`). Within a line the scan only runs the
automaton (`resume_run`). And at the end of a line the automaton has seen one byte more than the
line if the terminator has two: a blank, which changes nothing that matters (`exists_body`).

## Main definitions

* `survey`: the verdict on a list of lines
* `resume`: the verdict of a scan that goes on from a state

## Main results

* `find_eq_survey`: the scan of a text is the survey of its lines
-/

namespace MarkedRegions

/-- The region that starts at one offset and whose closing line starts at another: contents of at
least one line give up their last terminator. -/
def Region.upTo (ending : LineEnding) (start place : Nat) : Region :=
  if start < place then ⟨start, place - ending.width, ending, true⟩
  else ⟨start, place, ending, false⟩

namespace Scan

/-- **The verdict on lines**: `count` lines have come before, the first of these starts at `place`,
and `start` is where the wanted region starts if it has been opened. -/
def survey (query : Query) (ending : LineEnding) (count place : Nat) (start : Option Nat) :
    List Bytes → Except ScanError Region
  | [] =>
    .error (if start.isSome then .unterminated query.marker query.lead else .notFound query.marker)
  | line :: rest =>
    let next := place + line.length + ending.width
    match (Line.kind query.lead line).effect query.marker start.isSome (count + 1) with
    | .error e => .error e
    | .ok .passes => survey query ending (count + 1) next start rest
    | .ok .opens => survey query ending (count + 1) next (some next) rest
    | .ok .closes => .ok (.upTo ending (start.getD place) place)

/-- The verdict of a scan that goes on from a state with the rest of the text. -/
def resume (query : Query) (state : State) (text : Bytes) : Except ScanError Region := do
  let state ← run query state text
  let state ← finishText query state
  conclude query state

theorem find_eq_resume (query : Query) (text : Bytes) :
    find query text = resume query (.initial query) text := rfl

theorem resume_cons_of_ok {query : Query} {state next : State} {byte : UInt8} (rest : Bytes)
    (undecided : state.stop = none) (stepped : step query state byte = .ok next) :
    resume query state (byte :: rest) = resume query next rest := by
  simp only [resume, run, undecided, Option.isSome_none, Bool.false_eq_true, if_false, stepped]

theorem resume_cons_of_error {query : Query} {state : State} {byte : UInt8} {e : ScanError}
    (rest : Bytes) (undecided : state.stop = none) (stepped : step query state byte = .error e) :
    resume query state (byte :: rest) = .error e := by
  simp only [resume, run, undecided, Option.isSome_none, Bool.false_eq_true, if_false, stepped]
  rfl

/-- Once the region is closed, the rest of the text is not looked at. -/
theorem run_of_closed {query : Query} {state : State} (text : Bytes) (closed : state.stop.isSome) :
    run query state text = .ok state := by
  cases text with
  | nil => rfl
  | cons byte rest => rw [run, if_pos closed]

theorem resume_of_closed {query : Query} {state : State} (text : Bytes)
    (closed : state.stop.isSome) : resume query state text = conclude query state := by
  simp only [resume, run_of_closed text closed, finishText, if_pos closed, Except.bind, bind]

/-! ## The end of a line -/

/-- **What a line that ends does** is told by its kind alone. -/
theorem finishLine_eq (query : Query) (next : Nat) (state : State) :
    state.finishLine query next =
      match state.reader.kind.effect query.marker state.start.isSome state.lineNumber with
      | .error e => .error e
      | .ok .passes => .ok state
      | .ok .opens => .ok { state with start := some next }
      | .ok .closes => .ok state.closeRegion := by
  obtain ⟨offset, before, ending, line, lineStart, reader, start, stop⟩ := state
  obtain ⟨phase, column, name, nameColumn, commandColumn⟩ := reader
  cases phase with
  | lead agreed | text | beforeCommand => rfl
  | beforeName command => cases command <;> rfl
  | inName command | afterName command =>
    cases command with
    | opening =>
      -- Only here the name and the open region matter.
      by_cases wanted : name = query.marker <;> cases start <;>
        simp [State.finishLine, State.openRegion, Line.Reader.kind, Line.Kind.effect, wanted]
    | closing => cases start <;> rfl

theorem closeRegion_eq (state : State) {start : Nat} (opened : state.start = some start) :
    ∃ stop trailing, state.closeRegion = { state with stop := some (stop, trailing) } ∧
      Region.upTo state.endingOrDefault start state.lineStart =
        ⟨start, stop, state.endingOrDefault, trailing⟩ := by
  by_cases nonempty : start < state.lineStart
  · exact ⟨state.lineStart - state.endingOrDefault.width, true,
      by simp [State.closeRegion, opened, nonempty], by simp [Region.upTo, nonempty]⟩
  · exact ⟨state.lineStart, false,
      by simp [State.closeRegion, opened, nonempty], by simp [Region.upTo, nonempty]⟩

/-- **The end of the text** ends its last line. -/
theorem resume_nil {query : Query} {state : State} (undecided : state.stop = none) :
    resume query state [] =
      match state.reader.kind.effect query.marker state.start.isSome state.lineNumber with
      | .error e => .error e
      | .ok .closes =>
        .ok (.upTo state.endingOrDefault (state.start.getD state.lineStart) state.lineStart)
      | .ok .passes => survey query state.endingOrDefault 0 0 state.start []
      | .ok .opens => survey query state.endingOrDefault 0 0 (some 0) [] := by
  simp only [resume, run, finishText, undecided, Option.isSome_none, Bool.false_eq_true, if_false,
    finishLine_eq, bind, Except.bind]
  cases effect : state.reader.kind.effect query.marker state.start.isSome state.lineNumber with
  | error e => rfl
  | ok done =>
    cases done with
    | passes => cases opened : state.start <;> simp [conclude, survey, opened, undecided]
    | opens => simp [conclude, survey]
    | closes =>
      -- The text ends with the closing line.
      obtain ⟨start, opened⟩ := Option.isSome_iff_exists.mp (Line.Kind.opened_of_closes effect)
      obtain ⟨stop, trailing, closed, region⟩ := closeRegion_eq state opened
      simp only [closed, conclude, opened, Option.getD_some, region]
      rfl

/-! ## The style might as well be known from the start -/

theorem endsAt_of_settledBy {before : Option UInt8} {byte : UInt8} {ending : LineEnding}
    (settles : LineEnding.settledBy before byte = some ending) :
    ending.endsAt before byte = true := by
  cases ending with
  | lf =>
    by_contra other
    have feed : byte ≠ lineFeed := fun same => other (LineEnding.endsAt_lf_iff.mpr same)
    simp [LineEnding.settledBy, feed] at settles
  | crlf => simp [LineEnding.endsAt, settles]

theorem endsAt_of_settledBy_none {before : Option UInt8} {byte : UInt8} (ending : LineEnding)
    (silent : LineEnding.settledBy before byte = none) : ending.endsAt before byte = false := by
  have other : byte ≠ lineFeed := by
    rintro rfl
    by_cases back : before = some carriageReturn <;>
      simp [LineEnding.settledBy, back] at silent
  cases ending <;> simp [LineEnding.endsAt, LineEnding.settledBy, other]

/-- **Knowing the style from the start changes nothing**: until the first line feed no byte ends a
line in either style, and that line feed ends one in the style that it settles. -/
theorem resume_settled {query : Query} {state : State} (text : Bytes)
    (unsettled : state.ending = none) (undecided : state.stop = none) :
    resume query state text =
      resume query { state with ending := some (LineEnding.settledIn state.before text) } text := by
  induction text generalizing state with
  | nil =>
    -- A text that is over has the plain style, which a scan assumes that has settled none.
    have plain : state.endingOrDefault = .lf := by rw [State.endingOrDefault, unsettled]; rfl
    rw [resume_nil undecided, resume_nil (by exact undecided), plain]
    rfl
  | cons byte rest ih =>
    obtain ⟨offset, before, ending, line, lineStart, reader, start, stop⟩ := state
    cases unsettled
    cases undecided
    cases settles : LineEnding.settledBy before byte with
    | some ending =>
      -- The byte settles the style, and ends the line either way.
      have ends := endsAt_of_settledBy settles
      simp [resume, run, step, State.endsLine, State.endingAfter, LineEnding.settledIn, settles,
        ends]
    | none =>
      -- The byte settles nothing and ends no line, so both scans feed it to the automaton.
      have goes_on := endsAt_of_settledBy_none (LineEnding.settledIn (some byte) rest) settles
      simp only [LineEnding.settledIn, settles, Option.getD_none]
      cases fed : reader.feed query.lead byte with
      | error defect =>
        rw [resume_cons_of_error rest rfl (e := defect.onLine (line + 1)),
          resume_cons_of_error rest rfl (e := defect.onLine (line + 1))] <;>
        simp [step, State.endsLine, settles, goes_on, fed, State.lineNumber]
      | ok reader' =>
        have unsettled_step :
            step query ⟨offset, before, none, line, lineStart, reader, start, none⟩ byte =
              .ok ⟨offset + 1, some byte, none, line, lineStart, reader', start, none⟩ := by
          simp [step, State.endsLine, State.endingAfter, settles, fed]
        have settled_step :
            step query ⟨offset, before, some (LineEnding.settledIn (some byte) rest), line,
                lineStart, reader, start, none⟩ byte =
              .ok ⟨offset + 1, some byte, some (LineEnding.settledIn (some byte) rest), line,
                lineStart, reader', start, none⟩ := by
          simp [step, State.endsLine, State.endingAfter, goes_on, fed]
        rw [resume_cons_of_ok rest rfl unsettled_step, resume_cons_of_ok rest rfl settled_step]
        exact ih rfl rfl

/-! ## Within a line the scan only runs the automaton -/

/-- The state after some bytes within a line. -/
def State.within (state : State) (read : Bytes) (reader : Line.Reader) : State :=
  { state with
    offset := state.offset + read.length
    before := read.getLast?.or state.before
    reader }

theorem within_cons (state : State) (byte : UInt8) (read : Bytes) (reader reader' : Line.Reader) :
    (state.within [byte] reader).within read reader' = state.within (byte :: read) reader' := by
  simp only [State.within, List.length_cons, List.length_nil, List.getLast?_singleton,
    Option.some_or, LineEnding.getLast?_cons_or, Nat.add_assoc, Nat.add_comm 1]

theorem step_within (query : Query) {state : State} {byte : UInt8} {ending : LineEnding}
    (settled : state.ending = some ending) (goes_on : ¬ ending.endsAt state.before byte) :
    step query state byte =
      match state.reader.feed query.lead byte with
      | .ok reader => .ok (state.within [byte] reader)
      | .error defect => .error (defect.onLine state.lineNumber) := by
  obtain ⟨offset, before, _, line, lineStart, reader, start, stop⟩ := state
  cases settled
  have other : ending.endsAt before byte = false := by simpa using goes_on
  simp only [step, State.endsLine, other, Bool.false_eq_true, if_false]
  cases reader.feed query.lead byte <;> rfl

/-- **Bytes within a line** move the automaton and nothing else. -/
theorem resume_run {query : Query} {state : State} {ending : LineEnding} {line : Bytes}
    (settled : state.ending = some ending) (undecided : state.stop = none)
    (unbroken : ending.Unbroken state.before line) (rest : Bytes) :
    resume query state (line ++ rest) =
      match state.reader.read query.lead line with
      | .ok reader => resume query (state.within line reader) rest
      | .error defect => .error (defect.onLine state.lineNumber) := by
  induction line generalizing state with
  | nil => rfl
  | cons byte line ih =>
    have stepped := step_within query settled unbroken.1
    rw [Line.Reader.read, List.cons_append]
    cases fed : state.reader.feed query.lead byte with
    | error defect =>
      rw [fed] at stepped
      exact resume_cons_of_error _ undecided stepped
    | ok reader =>
      rw [fed] at stepped
      have later := @ih (state.within [byte] reader) settled undecided unbroken.2
      rw [resume_cons_of_ok _ undecided stepped, later]
      simp only [within_cons]
      rfl

/-! ## Lines, one after the other -/

/-- The state of a scan in a style at the start of a line. -/
def State.atLine (query : Query) (ending : LineEnding) (before : Option UInt8) (count place : Nat)
    (start : Option Nat) : State :=
  ⟨place, before, some ending, count, place, .initial query.lead, start, none⟩

/-- **What the automaton reads of a line** that ends: the line, or the line and a carriage return,
which does not change what the line does. -/
theorem exists_body {ending : LineEnding} {line : Bytes} (unbroken : ending.Unbroken none line)
    (lead rest : Bytes) :
    ∃ body, line ++ (ending.bytes ++ rest) = body ++ lineFeed :: rest ∧
      body.length + 1 = line.length + ending.width ∧ ending.Unbroken none body ∧
      (∀ before, before ≠ some carriageReturn →
        ending.endsAt (body.getLast?.or before) lineFeed) ∧
      ∀ marker isOpen number,
        (Line.kind lead body).effect marker isOpen number =
          (Line.kind lead line).effect marker isOpen number := by
  cases ending with
  | lf =>
    refine ⟨line, rfl, rfl, unbroken, ?_, ?_⟩
    · intro before other
      exact LineEnding.endsAt_lf_iff.mpr rfl
    · intro marker isOpen number
      rfl
  | crlf =>
    refine ⟨line ++ [carriageReturn], by simp [LineEnding.bytes], by simp,
      unbroken.append_carriageReturn, ?_, ?_⟩
    · intro before other
      exact LineEnding.endsAt_crlf_iff.mpr ⟨rfl, by simp⟩
    · intro marker isOpen number
      have blank : isBlank carriageReturn := by decide
      rcases Line.kind_append_blank lead line blank with same | ⟨text, blank⟩
      · rw [same]
      · -- The lead ends in a carriage return: a line of text turns blank, and both are passed over.
        rw [text, blank]
        rfl

/-- **The end of a line** decides what the line does, and the next line begins. -/
theorem resume_end {query : Query} {state : State} {ending : LineEnding}
    (settled : state.ending = some ending) (undecided : state.stop = none)
    (ends : ending.endsAt state.before lineFeed) (rest : Bytes) :
    resume query state (lineFeed :: rest) =
      match state.reader.kind.effect query.marker state.start.isSome state.lineNumber with
      | .error e => .error e
      | .ok .passes =>
        resume query (.atLine query ending (some lineFeed) (state.line + 1) (state.offset + 1)
          state.start) rest
      | .ok .opens =>
        resume query (.atLine query ending (some lineFeed) (state.line + 1) (state.offset + 1)
          (some (state.offset + 1))) rest
      | .ok .closes => .ok (.upTo ending (state.start.getD state.lineStart) state.lineStart) := by
  obtain ⟨offset, before, _, line, lineStart, reader, start, stop⟩ := state
  cases settled
  cases undecided
  have stepped : step query ⟨offset, before, some ending, line, lineStart, reader, start, none⟩
      lineFeed =
        (State.finishLine query (offset + 1) ⟨offset + 1, some lineFeed, some ending, line,
          lineStart, reader, start, none⟩).map (State.nextLine query (offset + 1)) := by
    simp only [step, State.endsLine, ends, if_true]
    rfl
  rw [finishLine_eq] at stepped
  simp only [State.lineNumber] at stepped ⊢
  cases effect : reader.kind.effect query.marker start.isSome (line + 1) with
  | error e =>
    rw [effect] at stepped
    exact resume_cons_of_error rest rfl stepped
  | ok done =>
    rw [effect] at stepped
    cases done with
    | passes => exact resume_cons_of_ok rest rfl stepped
    | opens => exact resume_cons_of_ok rest rfl stepped
    | closes =>
      -- The scan stops here, and concludes without a look at the rest.
      obtain ⟨start, rfl⟩ := Option.isSome_iff_exists.mp (Line.Kind.opened_of_closes effect)
      obtain ⟨stop, trailing, closed, region⟩ := closeRegion_eq
        ⟨offset + 1, some lineFeed, some ending, line, lineStart, reader, some start, none⟩ rfl
      simp only [closed] at stepped
      rw [resume_cons_of_ok rest rfl stepped, resume_of_closed rest rfl, Option.getD_some]
      exact congrArg Except.ok region.symm

/-- **A scan that stands at the start of a line** surveys the lines of the rest of the text. -/
theorem resume_atLine (query : Query) (ending : LineEnding) (text : Bytes)
    {before : Option UInt8} (other : before ≠ some carriageReturn) (count place : Nat)
    (start : Option Nat) :
    resume query (.atLine query ending before count place start) text =
      survey query ending count place start (Line.cut ending text) := by
  induction lines : Line.cut ending text generalizing text before count place start with
  | nil => exact absurd lines (Line.cut_ne_nil ending text)
  | cons line rest ih =>
    rw [survey]
    rcases Line.cut_cases ending text with unbroken | ⟨line', text', rfl, unbroken⟩
    · -- The last line, which the end of the text ends.
      rw [Line.cut_of_unbroken unbroken, List.cons.injEq] at lines
      obtain ⟨rfl, rfl⟩ := lines
      rw [← List.append_nil text, resume_run rfl rfl (unbroken.of_ne_carriageReturn other),
        List.append_nil]
      cases done : (Line.Reader.initial query.lead).read query.lead text with
      | error defect =>
        -- The byte that the automaton refuses is the defect of the line.
        rw [Line.kind_eq_of_refused done]
        simp only [State.atLine, done]
        rfl
      | ok reader =>
        rw [Line.kind_eq_of_read done]
        simp only [State.atLine, done]
        refine (resume_nil rfl).trans ?_
        simp only [State.within, State.lineNumber]
        cases effect : reader.kind.effect query.marker start.isSome (count + 1) with
        | error e => rfl
        | ok what => cases what <;> rfl
    · -- A line with its terminator: the state after it stands at the start of the next.
      rw [Line.cut_unbroken_append unbroken, List.cons.injEq] at lines
      obtain ⟨rfl, lines⟩ := lines
      -- The automaton reads `body`, which may be a carriage return longer than the line.
      obtain ⟨body, same, length, within, ends, harmless⟩ := exists_body unbroken query.lead text'
      have next : place + line'.length + ending.width = place + body.length + 1 := by omega
      rw [same, resume_run rfl rfl (within.of_ne_carriageReturn other), ← harmless, next]
      cases done : (Line.Reader.initial query.lead).read query.lead body with
      | error defect =>
        rw [Line.kind_eq_of_refused done]
        simp only [State.atLine, done]
        rfl
      | ok reader =>
        rw [Line.kind_eq_of_read done]
        simp only [State.atLine, done]
        refine (resume_end rfl rfl (ends before other) text').trans ?_
        simp only [State.within, State.lineNumber]
        have fresh : some lineFeed ≠ some carriageReturn := by decide
        have later (start' : Option Nat) :=
          ih text' fresh (count + 1) (place + body.length + 1) start' lines
        cases effect : reader.kind.effect query.marker start.isSome (count + 1) with
        | error e => rfl
        | ok what =>
          cases what with
          | passes => exact later start
          | opens => exact later _
          | closes => rfl

/-- **The scan of a text is the survey of its lines.** -/
theorem find_eq_survey (query : Query) (text : Bytes) :
    find query text =
      survey query (.ofText text) 0 0 none (Line.cut (.ofText text) text) := by
  have fresh : none ≠ some carriageReturn := nofun
  rw [find_eq_resume, resume_settled text rfl rfl, LineEnding.ofText_eq_settledIn]
  exact resume_atLine query _ text fresh 0 0 none

end Scan

end MarkedRegions
