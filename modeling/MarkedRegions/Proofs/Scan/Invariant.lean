import MarkedRegions.Proofs.Scan.Survey

/-!
# What holds between two bytes of a scan

A scan compares a byte with the lead only where the lead has one, and when it closes a region, it
takes the width of a terminator off the offset of a line. Neither is checked when it happens: the
one holds because a lead that has agreed to its end is left behind, the other because a region
starts where a line starts, and every line after it takes at least its own terminator. That a line
of nothing but a terminator is as long as the terminator needs the byte before the line: a line feed
ends a line in two bytes only after a carriage return, and no line starts after one.

## Main definitions

* `Line.Reader.Takes`: what one byte of a line does to the line automaton
* `Line.Reader.Sound`, `State.Sound`: what holds of the line automaton and of a scan

## Main results

* `step_cases`: what one byte does
* `run_append`: a run passes through the states that the prefixes of its text lead to
* `Sound.step`, `Sound.run`: what holds is preserved by one byte, and by many
-/

namespace MarkedRegions

namespace Line.Reader

/-- **What one byte of a line does** to an automaton that does not refuse it. -/
inductive Takes (lead : Bytes) (byte : UInt8) (reader : Reader) : Reader → Prop
  | compares {matched : Nat} (phase : reader.phase = .lead matched) :
      Takes lead byte reader (reader.advance (matchLead lead matched byte))
  -- Plain text is passed over, and so are blanks before the command, before the name and after it.
  | stays (behind : ∀ matched, reader.phase ≠ .lead matched)
      (passes : reader.phase = .text ∨ isBlank byte) :
      Takes lead byte reader (reader.advance reader.phase)
  | commands {command : Command} (phase : reader.phase = .beforeCommand)
      (given : Command.ofByte? byte = some command) :
      Takes lead byte reader
        { reader.advance (.beforeName command) with commandColumn := reader.column }
  | begins {command : Command} {reader' : Reader} (phase : reader.phase = .beforeName command)
      (solid : ¬ isBlank byte)
      (taken : { reader with nameColumn := reader.column }.extendName command byte = .ok reader') :
      Takes lead byte reader reader'
  | continues {command : Command} {reader' : Reader} (phase : reader.phase = .inName command)
      (solid : ¬ isBlank byte) (taken : reader.extendName command byte = .ok reader') :
      Takes lead byte reader reader'
  | ends {command : Command} (phase : reader.phase = .inName command) (blank : isBlank byte) :
      Takes lead byte reader (reader.advance (.afterName command))

variable {lead : Bytes} {reader reader' : Reader} {byte : UInt8}

theorem takes_of_feed (fed : reader.feed lead byte = .ok reader') :
    Takes lead byte reader reader' := by
  cases phase : reader.phase with
  | lead matched =>
    simp only [Reader.feed, phase, Except.ok.injEq] at fed
    subst fed
    exact .compares phase
  | text =>
    simp only [Reader.feed, phase, Except.ok.injEq] at fed
    subst fed
    rw [← phase]
    exact .stays (by simp [phase]) (.inl phase)
  | beforeCommand =>
    simp only [Reader.feed, phase] at fed
    split at fed
    · next blank =>
      cases fed
      rw [← phase]
      exact .stays (by simp [phase]) (.inr blank)
    · split at fed
      · next given =>
        cases fed
        exact .commands phase given
      · cases fed
  | beforeName command =>
    simp only [Reader.feed, phase] at fed
    split at fed
    · next blank =>
      cases fed
      rw [← phase]
      exact .stays (by simp [phase]) (.inr blank)
    · next solid => exact .begins phase solid fed
  | inName command =>
    simp only [Reader.feed, phase] at fed
    split at fed
    · next blank =>
      cases fed
      exact .ends phase blank
    · next solid => exact .continues phase solid fed
  | afterName command =>
    simp only [Reader.feed, phase] at fed
    split at fed
    · next blank =>
      cases fed
      rw [← phase]
      exact .stays (by simp [phase]) (.inr blank)
    · cases fed

/-- **What holds of the line automaton** between two bytes. -/
structure Sound (lead : Bytes) (reader : Reader) : Prop where
  -- There is a byte of the lead to agree with.
  matched_lt : ∀ matched, reader.phase = .lead matched → matched < lead.length
  matched_le : ∀ matched, reader.phase = .lead matched → matched ≤ reader.column
  nameColumn_le : reader.nameColumn ≤ reader.column
  commandColumn_le : reader.commandColumn ≤ reader.column
  name_le : reader.name.length ≤ maxNameLength

theorem sound_initial (lead : Bytes) : (initial lead).Sound lead := by
  refine ⟨?_, ?_, Nat.le_refl _, Nat.le_refl _, Nat.zero_le _⟩
  · intro matched phase
    rw [initial, initialPhase] at phase
    split at phase
    · cases phase
    · next nonempty =>
      cases phase
      exact List.length_pos_iff.mpr (by simpa using nonempty)
  · intro matched phase
    rw [initial, initialPhase] at phase
    split at phase
    · cases phase
    · cases phase
      exact Nat.le_refl 0

/-- A byte of the lead that agrees is followed by another, or the lead is over. -/
theorem matchLead_eq_lead {matched matched' : Nat}
    (agrees : matchLead lead matched byte = .lead matched') :
    matched' = matched + 1 ∧ matched' < lead.length := by
  rw [matchLead] at agrees
  split at agrees
  · cases agrees
  · next same =>
    split at agrees
    · cases agrees
    · next more =>
      cases agrees
      have inside := (List.getElem?_eq_some_iff.mp (not_not.mp same)).1
      exact ⟨rfl, Nat.lt_of_le_of_ne inside more⟩

/-- Moving on keeps what holds, if the lead has not been left for a place outside it. -/
theorem Sound.advance (sound : reader.Sound lead) (phase : Phase)
    (inside : ∀ matched, phase = .lead matched → matched < lead.length ∧ matched ≤ reader.column + 1) :
    (reader.advance phase).Sound lead where
  matched_lt := fun matched same => (inside matched same).1
  matched_le := fun matched same => (inside matched same).2
  nameColumn_le := Nat.le_succ_of_le sound.nameColumn_le
  commandColumn_le := Nat.le_succ_of_le sound.commandColumn_le
  name_le := sound.name_le

theorem Sound.extendName {command : Command} (sound : reader.Sound lead)
    (taken : reader.extendName command byte = .ok reader') :
    reader'.Sound lead ∧ reader'.column = reader.column + 1 := by
  rw [Reader.extendName] at taken
  split at taken
  · cases taken
  · next room =>
    cases taken
    have advanced := sound.advance (.inName command) (by simp)
    refine ⟨⟨advanced.matched_lt, advanced.matched_le, advanced.nameColumn_le,
      advanced.commandColumn_le, ?_⟩, rfl⟩
    rw [List.length_append]
    exact Nat.lt_of_not_le room

/-- **A byte of a line keeps what holds** of the automaton, and is counted. -/
theorem Sound.feed (sound : reader.Sound lead) (fed : reader.feed lead byte = .ok reader') :
    reader'.Sound lead ∧ reader'.column = reader.column + 1 := by
  cases takes_of_feed fed with
  | compares phase =>
    refine ⟨sound.advance _ ?_, rfl⟩
    intro matched' agrees
    obtain ⟨rfl, inside⟩ := matchLead_eq_lead agrees
    exact ⟨inside, Nat.succ_le_succ (sound.matched_le _ phase)⟩
  | stays behind passes =>
    exact ⟨sound.advance reader.phase fun matched phase => absurd phase (behind matched), rfl⟩
  | @commands command phase given =>
    have advanced := sound.advance (.beforeName command) (by simp)
    exact ⟨⟨advanced.matched_lt, advanced.matched_le, advanced.nameColumn_le, Nat.le_succ _,
      advanced.name_le⟩, rfl⟩
  | begins phase solid taken =>
    -- The name begins at the present column.
    have begun : Sound lead { reader with nameColumn := reader.column } :=
      ⟨sound.matched_lt, sound.matched_le, Nat.le_refl _, sound.commandColumn_le, sound.name_le⟩
    exact begun.extendName taken
  | continues phase solid taken => exact sound.extendName taken
  | @ends command phase blank => exact ⟨sound.advance (.afterName command) (by simp), rfl⟩

end Line.Reader

namespace Scan

variable {query : Query} {state next : State} {byte : UInt8}

/-- The state after a byte, but for what is made of the current line. -/
def State.after (state : State) (byte : UInt8) : State :=
  { state with
    offset := state.offset + 1
    before := some byte
    ending := state.endingAfter byte }

/-- The state after a byte that ends a line, by what the line does. -/
def State.afterLine (query : Query) (state : State) (byte : UInt8) (done : Effect) : State :=
  State.nextLine query (state.offset + 1)
    (match done with
      | .passes => state.after byte
      | .opens => { state.after byte with start := some (state.offset + 1) }
      | .closes => (state.after byte).closeRegion)

/-- **What one byte does.** It ends no line and the automaton takes it, or it ends a line, and the
line does what it does. -/
theorem step_cases (stepped : step query state byte = .ok next) :
    (state.endsLine byte = false ∧ ∃ reader, state.reader.feed query.lead byte = .ok reader ∧
      next = { state.after byte with reader }) ∨
    (state.endsLine byte = true ∧ ∃ done,
      state.reader.kind.effect query.marker state.start.isSome state.lineNumber = .ok done ∧
      next = state.afterLine query byte done) := by
  cases ends : state.endsLine byte with
  | true =>
    have unfolded : step query state byte =
        ((state.after byte).finishLine query (state.offset + 1)).map
          (State.nextLine query (state.offset + 1)) := if_pos ends
    have kept : (state.after byte).reader.kind.effect query.marker (state.after byte).start.isSome
        (state.after byte).lineNumber =
          state.reader.kind.effect query.marker state.start.isSome state.lineNumber := rfl
    rw [unfolded, finishLine_eq, kept] at stepped
    refine .inr ⟨rfl, ?_⟩
    cases effect : state.reader.kind.effect query.marker state.start.isSome state.lineNumber with
    | error e =>
      rw [effect] at stepped
      cases stepped
    | ok done =>
      rw [effect] at stepped
      refine ⟨done, rfl, ?_⟩
      cases done <;> exact (Except.ok.inj stepped).symm
  | false =>
    refine .inl ⟨rfl, ?_⟩
    cases fed : state.reader.feed query.lead byte with
    | error defect =>
      simp only [step, ends, fed, Bool.false_eq_true, if_false] at stepped
      cases stepped
    | ok reader =>
      simp only [step, ends, fed, Bool.false_eq_true, if_false] at stepped
      exact ⟨reader, rfl, (Except.ok.inj stepped).symm⟩

/-- **What holds between two bytes of a scan.** -/
structure State.Sound (lead : Bytes) (state : State) : Prop where
  reader : state.reader.Sound lead
  offset_eq : state.offset = state.lineStart + state.reader.column
  line_le : state.line ≤ state.lineStart
  -- A line that has no byte yet does not start after a carriage return.
  fresh : state.reader.column = 0 → state.before ≠ some carriageReturn
  -- A region starts where a line starts, so a line feed has been read.
  settled : ∀ start, state.start = some start → ∃ ending, state.ending = some ending
  start_le : ∀ start, state.start = some start → start ≤ state.lineStart
  -- Every line behind the start of a region has its terminator.
  room : ∀ start, state.start = some start → start < state.lineStart →
    start + state.endingOrDefault.width ≤ state.lineStart

theorem sound_initial (query : Query) : (State.initial query).Sound query.lead where
  reader := Line.Reader.sound_initial query.lead
  offset_eq := rfl
  line_le := Nat.le_refl 0
  fresh := fun _ => nofun
  settled := nofun
  start_le := nofun
  room := nofun

/-- A byte that ends a line has settled the style. -/
theorem exists_endingAfter (ends : state.endsLine byte = true) :
    ∃ ending, state.endingAfter byte = some ending ∧ ending.endsAt state.before byte = true := by
  rw [State.endsLine] at ends
  rw [State.endingAfter]
  cases known : state.ending with
  | some ending =>
    rw [known] at ends
    exact ⟨ending, rfl, ends⟩
  | none =>
    rw [known] at ends
    obtain ⟨ending, settles⟩ := Option.isSome_iff_exists.mp ends
    exact ⟨ending, settles, endsAt_of_settledBy settles⟩

/-- Every terminator ends in a line feed. -/
theorem eq_lineFeed_of_endsAt {ending : LineEnding} {before : Option UInt8}
    (ends : ending.endsAt before byte = true) : byte = lineFeed := by
  cases ending with
  | lf => exact LineEnding.endsAt_lf_iff.mp ends
  | crlf => exact (LineEnding.endsAt_crlf_iff.mp ends).1

/-- **A line takes at least its terminator**, whose carriage return is a byte of the line. -/
theorem State.Sound.width_le {lead : Bytes} (sound : state.Sound lead) {ending : LineEnding}
    (ends : ending.endsAt state.before byte = true) :
    ending.width ≤ state.reader.column + 1 := by
  cases ending with
  | lf => exact Nat.le_add_left 1 _
  | crlf =>
    have back := (LineEnding.endsAt_crlf_iff.mp ends).2
    have begun : state.reader.column ≠ 0 := fun none_yet => sound.fresh none_yet back
    rw [LineEnding.width_crlf]
    omega

/-- A style that has been settled stays. -/
theorem endingAfter_of_settled {ending : LineEnding} (settled : state.ending = some ending)
    (byte : UInt8) : state.endingAfter byte = some ending := by
  rw [State.endingAfter, settled, Option.some_or]

/-- A byte within a line keeps what holds. -/
theorem State.Sound.after_byte {lead : Bytes} (sound : state.Sound lead) {reader : Line.Reader}
    (fed : state.reader.feed lead byte = .ok reader) :
    ({ state.after byte with reader } : State).Sound lead := by
  obtain ⟨reads, column⟩ := sound.reader.feed fed
  refine ⟨reads, ?_, sound.line_le, ?_, ?_, sound.start_le, ?_⟩
  · show state.offset + 1 = state.lineStart + reader.column
    rw [column, sound.offset_eq, Nat.add_assoc]
  · intro none_yet
    exact absurd (column.symm.trans none_yet) (Nat.succ_ne_zero _)
  · intro start opened
    obtain ⟨ending, settled⟩ := sound.settled start opened
    exact ⟨ending, endingAfter_of_settled settled byte⟩
  · intro start opened behind
    obtain ⟨ending, settled⟩ := sound.settled start opened
    have room := sound.room start opened behind
    rw [State.endingOrDefault, settled] at room
    show start + ((state.endingAfter byte).getD .lf).width ≤ state.lineStart
    rw [endingAfter_of_settled settled]
    exact room

theorem exists_closeRegion (state : State) :
    ∃ stop, state.closeRegion = { state with stop } := by
  rw [State.closeRegion]
  split
  · exact ⟨state.stop, rfl⟩
  · split
    · exact ⟨_, rfl⟩
    · exact ⟨_, rfl⟩

/-- After a line the next one begins, and the region starts where it did or where that line does. -/
theorem exists_afterLine (query : Query) (state : State) (byte : UInt8) (done : Effect) :
    ∃ start stop,
      state.afterLine query byte done =
        ⟨state.offset + 1, some byte, state.endingAfter byte, state.line + 1, state.offset + 1,
          .initial query.lead, start, stop⟩ ∧
      (start = state.start ∨ start = some (state.offset + 1)) := by
  cases done with
  | passes => exact ⟨state.start, state.stop, rfl, .inl rfl⟩
  | opens => exact ⟨some (state.offset + 1), state.stop, rfl, .inr rfl⟩
  | closes =>
    obtain ⟨stop, closed⟩ := exists_closeRegion (state.after byte)
    refine ⟨state.start, stop, ?_, .inl rfl⟩
    rw [State.afterLine, closed]
    rfl

/-- **A byte that ends a line keeps what holds.** -/
theorem State.Sound.after_line (sound : state.Sound query.lead) (ends : state.endsLine byte = true)
    (done : Effect) : (state.afterLine query byte done).Sound query.lead := by
  obtain ⟨ending, settles, terminates⟩ := exists_endingAfter ends
  obtain ⟨start', stop, after, placed⟩ := exists_afterLine query state byte done
  have column := sound.offset_eq
  rw [after]
  refine ⟨Line.Reader.sound_initial _, rfl, ?_, ?_, ?_, ?_, ?_⟩
  · show state.line + 1 ≤ state.offset + 1
    have line_le := sound.line_le
    omega
  · intro _ back
    rw [eq_lineFeed_of_endsAt terminates] at back
    exact carriageReturn_ne_lineFeed (Option.some.inj back).symm
  · intro start _
    exact ⟨ending, settles⟩
  · intro start opened
    show start ≤ state.offset + 1
    rcases placed with same | here
    · have start_le := sound.start_le start (same.symm.trans opened)
      omega
    · exact (Option.some.inj (opened.symm.trans here)).le
  · intro start opened behind
    show start + ((state.endingAfter byte).getD .lf).width ≤ state.offset + 1
    replace behind : start < state.offset + 1 := behind
    rw [settles, Option.getD_some]
    rcases placed with same | here
    · -- The region has been open, and the line that ends is the first in it or a later one.
      have width_le := sound.width_le terminates
      have start_le := sound.start_le start (same.symm.trans opened)
      rcases Nat.lt_or_eq_of_le start_le with earlier | first
      · obtain ⟨ending', settled⟩ := sound.settled start (same.symm.trans opened)
        have room := sound.room start (same.symm.trans opened) earlier
        rw [endingAfter_of_settled settled] at settles
        rw [State.endingOrDefault, settled, settles] at room
        exact Nat.le_trans room (by omega)
      · omega
    · exact absurd (Option.some.inj (opened.symm.trans here)) behind.ne

/-- **One byte keeps what holds**, and is counted. -/
theorem State.Sound.step (sound : state.Sound query.lead)
    (stepped : Scan.step query state byte = .ok next) :
    next.Sound query.lead ∧ next.offset = state.offset + 1 := by
  rcases step_cases stepped with ⟨-, reader, fed, rfl⟩ | ⟨ends, done, -, rfl⟩
  · exact ⟨sound.after_byte fed, rfl⟩
  · refine ⟨sound.after_line ends done, ?_⟩
    obtain ⟨start, stop, after, -⟩ := exists_afterLine query state byte done
    rw [after]

/-- **A run goes on** from the state that it has reached with the first part of a text. -/
theorem run_append {read : Bytes} (ran : run query state read = .ok next) (rest : Bytes) :
    run query state (read ++ rest) = run query next rest := by
  induction read generalizing state with
  | nil =>
    cases ran
    rfl
  | cons byte read ih =>
    rw [run] at ran
    split at ran
    · next closed =>
      cases ran
      rw [run_of_closed _ closed, run_of_closed _ closed]
    · next undecided =>
      split at ran
      · next stepped =>
        rw [List.cons_append, run, if_neg undecided, stepped]
        exact ih ran
      · cases ran

/-- **A run keeps what holds**, and reads no more than its text. -/
theorem State.Sound.run {text : Bytes} (sound : state.Sound query.lead)
    (ran : Scan.run query state text = .ok next) :
    next.Sound query.lead ∧ next.offset ≤ state.offset + text.length := by
  induction text generalizing state with
  | nil =>
    cases ran
    exact ⟨sound, Nat.le_refl _⟩
  | cons byte rest ih =>
    rw [Scan.run] at ran
    split at ran
    · -- The region has been closed, and the rest is not read.
      cases ran
      exact ⟨sound, Nat.le_add_right _ _⟩
    · split at ran
      · next stepped =>
        obtain ⟨sound', counted⟩ := sound.step stepped
        obtain ⟨sound'', offset_le⟩ := ih sound' ran
        refine ⟨sound'', ?_⟩
        rw [List.length_cons]
        omega
      · cases ran

end Scan

end MarkedRegions
