import MarkedRegions.Proofs.Scan.Course
import MarkedRegions.Proofs.Scan.Invariant

/-!
# The name that a scan is reading

The line automaton collects the name of a marker line byte by byte, and nothing but the start of the
next line takes away what it has collected. Lines that are passed over start the next line like all
others do, and a line feed that ends no line is a blank of the line that it stands in. So the bytes
collected are always those of the one name that stands on the current line, as far as the line has
been read, and they are none until that name has begun.

A scan compares the name that it wants with names that lines give, and never looks at it otherwise.
A name that no line can give, because it is empty, too long, or holds a blank, is wanted in vain: its
region is never opened, so it is not found, nor opened twice, nor left without an end. What is left
are the offences of the lines themselves.

## Main definitions

* `Line.Phase.named?`: the command of a line whose name has begun
* `State.Follows`: the state of a scan that has read given bytes
* `State.Spells`: what the name in a state is

## Main results

* `State.Follows.step`, `State.Follows.run`: the automaton has read the current line, and no more
* `spells_of_run`: the name in every state of a scan, and what is found under names that no line gives
-/

namespace MarkedRegions

namespace Line

variable {lead line marker name : Bytes} {command : Command} {column : Nat}

/-- **The command of a line whose name has begun.** -/
def Phase.named? : Phase → Option Command
  | .inName command | .afterName command => some command
  | .lead _ | .text | .beforeCommand | .beforeName _ => none

/-! ## Lines give admissible names -/

theorem isName_of_reads (reads : Reads lead line (.named command name column)) : IsName name := by
  cases reads with
  | named command blank blank' isName blank'' => exact isName

/-- Only regions of admissible names are opened. -/
theorem Opens.isName (opens : Opens lead marker line) : IsName marker := by
  obtain ⟨column, reads⟩ := opens
  exact isName_of_reads reads

/-- **The names that no line gives**: without a byte, with a blank, or too long. -/
theorem not_isName_iff :
    ¬ IsName name ↔ name = [] ∨ (∃ byte ∈ name, isBlank byte) ∨ maxNameLength < name.length := by
  constructor
  · intro inadmissible
    by_contra! admissible
    obtain ⟨nonempty, solid, bounded⟩ := admissible
    exact inadmissible ⟨nonempty, bounded, solid⟩
  · rintro (rfl | ⟨byte, inside, blank⟩ | long) isName
    · exact isName.nonempty rfl
    · exact isName.solid byte inside blank
    · exact Nat.not_lt.mpr isName.bounded long

namespace Reader

variable {reader reader' : Reader} {byte : UInt8}

/-! ## The name in the line automaton -/

/-- **A name is held exactly where one has begun.** -/
def HoldsName (reader : Reader) : Prop :=
  reader.name ≠ [] ↔ reader.phase.named?.isSome

theorem holdsName_initial (lead : Bytes) : (initial lead).HoldsName := by
  cases lead <;> simp [HoldsName, initial, initialPhase, Phase.named?]

/-- Within the lead no name has begun. -/
theorem named?_matchLead (lead : Bytes) (matched : Nat) (byte : UInt8) :
    (matchLead lead matched byte).named? = none := by
  rw [matchLead]
  split
  · rfl
  · split <;> rfl

/-- Moving on keeps the name, and a name that has begun stays begun. -/
theorem HoldsName.advance (holds : reader.HoldsName) (phase : Phase)
    (same : phase.named? = reader.phase.named?) : (reader.advance phase).HoldsName := by
  rw [HoldsName, Reader.advance, same]
  exact holds

/-- A name that is extended has begun. -/
theorem holdsName_of_extendName (taken : reader.extendName command byte = .ok reader') :
    reader'.HoldsName := by
  rw [extendName] at taken
  split at taken
  · cases taken
  · cases taken
    simp [HoldsName, Phase.named?, Reader.advance]

/-- **A byte of a line** begins a name, extends one, or leaves it alone. -/
theorem HoldsName.feed (holds : reader.HoldsName) (fed : reader.feed lead byte = .ok reader') :
    reader'.HoldsName := by
  cases takes_of_feed fed with
  | compares phase => exact holds.advance _ (by rw [phase, named?_matchLead]; rfl)
  | stays behind passes => exact holds.advance _ rfl
  | @commands command phase given =>
    exact holds.advance (.beforeName command) (by rw [phase]; rfl)
  | begins phase solid taken => exact holdsName_of_extendName taken
  | continues phase solid taken => exact holdsName_of_extendName taken
  | ends phase blank => exact holds.advance _ (by rw [phase]; rfl)

theorem HoldsName.read (holds : reader.HoldsName) (done : reader.read lead line = .ok reader') :
    reader'.HoldsName := by
  induction line generalizing reader with
  | nil =>
    cases done
    exact holds
  | cons byte line ih =>
    rw [Reader.read] at done
    split at done
    · next fed => exact ih (holds.feed fed) done
    · cases done

/-- **A name that has begun is the name of the line**, as far as it has been read. -/
theorem reads_of_named? (done : (initial lead).read lead line = .ok reader)
    (begun : reader.phase.named? = some command) :
    Reads lead line (.named command reader.name reader.nameColumn) := by
  have ends : reader.kind = .named command reader.name reader.nameColumn := by
    rw [kind]
    cases phase : reader.phase <;> rw [phase] at begun <;> cases begun <;> rfl
  rw [reads_iff, kind_eq_of_read done, ends]
  refine ⟨rfl, ?_⟩
  intro defect broken
  cases broken

end Reader

end Line

namespace Scan

variable {query : Query} {state next : State} {read text : Bytes} {byte : UInt8}

/-! ## What has been read -/

/-- **The state of a scan that has read given bytes**: the automaton has read those of the current
line and no others. -/
structure State.Follows (lead read : Bytes) (state : State) : Prop where
  offset_eq : state.offset = read.length
  lineStart_le : state.lineStart ≤ read.length
  reader : (Line.Reader.initial lead).read lead (read.drop state.lineStart) = .ok state.reader

theorem follows_initial (query : Query) : (State.initial query).Follows query.lead [] :=
  ⟨rfl, Nat.le_refl 0, rfl⟩

/-- **One byte more** is one of the current line, or it ends the line and the next one is begun. -/
theorem State.Follows.step (follows : state.Follows query.lead read)
    (stepped : Scan.step query state byte = .ok next) :
    next.Follows query.lead (read ++ [byte]) := by
  have longer : (read ++ [byte]).length = state.offset + 1 := by
    rw [List.length_append, List.length_singleton, follows.offset_eq]
  rcases step_cases stepped with ⟨-, reader, fed, rfl⟩ | ⟨-, done, -, rfl⟩
  · refine ⟨longer.symm, ?_, ?_⟩
    · rw [longer, follows.offset_eq]
      exact Nat.le_succ_of_le follows.lineStart_le
    · show (Line.Reader.initial query.lead).read query.lead
        ((read ++ [byte]).drop state.lineStart) = .ok reader
      rw [List.drop_append_of_le_length follows.lineStart_le,
        Line.Reader.read_append_singleton follows.reader]
      exact fed
  · obtain ⟨start, stop, after, -⟩ := exists_afterLine query state byte done
    rw [after]
    refine ⟨longer.symm, longer.ge, ?_⟩
    show (Line.Reader.initial query.lead).read query.lead
      ((read ++ [byte]).drop (state.offset + 1)) = .ok (.initial query.lead)
    rw [List.drop_of_length_le longer.le]
    rfl

/-- **A run has read** the first bytes of its text: all of them, or those up to the end of the line
that has closed the region. -/
theorem State.Follows.run (follows : state.Follows query.lead read)
    (ran : Scan.run query state text = .ok next) :
    ∃ taken, taken <+: text ∧ next.Follows query.lead (read ++ taken) := by
  induction text generalizing state read with
  | nil =>
    cases ran
    exact ⟨[], List.prefix_rfl, by rwa [List.append_nil]⟩
  | cons byte text ih =>
    rw [Scan.run] at ran
    split at ran
    · cases ran
      exact ⟨[], List.nil_prefix, by rwa [List.append_nil]⟩
    · split at ran
      · next stepped =>
        obtain ⟨taken, front, follows'⟩ := ih (follows.step stepped) ran
        refine ⟨byte :: taken, List.cons_prefix_cons.mpr ⟨rfl, front⟩, ?_⟩
        rwa [List.append_assoc, List.singleton_append] at follows'
      · cases ran

/-! ## The name in a state -/

/-- **The current line** of a text, as far as it has been read. -/
def State.currentLine (state : State) (text : Bytes) : Bytes :=
  (text.take state.offset).drop state.lineStart

/-- **What the name in a state is.** -/
structure State.Spells (lead text : Bytes) (state : State) : Prop where
  bounded : state.reader.name.length ≤ maxNameLength
  solid : Line.AreSolid state.reader.name
  begun_iff : state.reader.name ≠ [] ↔ state.reader.phase.named?.isSome
  -- The line is one of the name that has begun, which stands where the automaton has noted it.
  reads : ∀ command, state.reader.phase.named? = some command →
    Line.Reads lead (state.currentLine text)
      (.named command state.reader.name state.reader.nameColumn)
  fresh : state.offset = state.lineStart → state.reader.name = []

theorem State.Follows.currentLine_eq (follows : state.Follows query.lead read)
    (front : read <+: text) : state.currentLine text = read.drop state.lineStart := by
  rw [currentLine, follows.offset_eq, ← List.prefix_iff_eq_take.mp front]

/-- The name follows from what has been read. -/
theorem State.Follows.spells (follows : state.Follows query.lead read) (front : read <+: text) :
    state.Spells query.lead text := by
  have begun_iff : state.reader.name ≠ [] ↔ state.reader.phase.named?.isSome :=
    (Line.Reader.holdsName_initial query.lead).read follows.reader
  have reads : ∀ command, state.reader.phase.named? = some command →
      Line.Reads query.lead (state.currentLine text)
        (.named command state.reader.name state.reader.nameColumn) := by
    intro command begun
    rw [follows.currentLine_eq front]
    exact Line.Reader.reads_of_named? follows.reader begun
  -- A name is held only where a line gives it, and then it is admissible.
  have admissible : state.reader.name = [] ∨ Line.IsName state.reader.name := by
    by_cases none_yet : state.reader.name = []
    · exact .inl none_yet
    · obtain ⟨command, begun⟩ := Option.isSome_iff_exists.mp (begun_iff.mp none_yet)
      exact .inr (Line.isName_of_reads (reads command begun))
  refine ⟨?_, ?_, begun_iff, reads, ?_⟩
  · rcases admissible with none_yet | isName
    · rw [none_yet]
      exact Nat.zero_le _
    · exact isName.bounded
  · rcases admissible with none_yet | isName
    · rw [none_yet]
      exact List.forall_mem_nil _
    · exact isName.solid
  · intro begins
    have initial := follows.reader
    rw [List.drop_of_length_le (by rw [← begins, follows.offset_eq])] at initial
    rw [← Except.ok.inj initial]
    rfl

/-- **The end of a text** ends its last line and leaves the name as it is. -/
theorem State.Spells.finished {lead : Bytes} {last : State} (spells : state.Spells lead text)
    (finished : finishText query state = .ok last) : last.Spells lead text := by
  -- What the line does changes at most where the region starts or stops.
  suffices ∃ start stop, last = { state with start, stop } by
    obtain ⟨start, stop, rfl⟩ := this
    exact ⟨spells.bounded, spells.solid, spells.begun_iff, spells.reads, spells.fresh⟩
  rw [finishText] at finished
  split at finished
  · cases finished
    exact ⟨_, _, rfl⟩
  · rw [finishLine_eq] at finished
    split at finished
    · cases finished
    · cases finished
      exact ⟨_, _, rfl⟩
    · cases finished
      exact ⟨_, _, rfl⟩
    · obtain ⟨stop, closed⟩ := exists_closeRegion state
      rw [closed] at finished
      cases finished
      exact ⟨_, _, rfl⟩

/-! ## Names that no line gives -/

/-- A scan opens only the region of an admissible name. -/
theorem Underway.isName {lead marker : Bytes} {lines : List Bytes} {index : Nat}
    (behind : Underway lead marker lines (some index)) : Line.IsName marker := by
  obtain ⟨before, opening, inner, -, -, -, opens, -⟩ := underway_some_iff.mp behind
  exact opens.isName

/-- **Faults of a line by itself**, whichever region is wanted: each has its place in the text. -/
def LineFault : ScanError → Prop
  | .unexpected .. | .nameTooLong .. | .namelessEnd .. => True
  | .nested .. | .notFound _ | .unterminated .. => False

/-- A line offends by itself, unless it opens the wanted region once more. -/
theorem lineFault_of_offends {lead marker line : Bytes} {isOpen : Prop} {number : Nat}
    {e : ScanError} (offends : Line.Offends lead marker isOpen number line e)
    (inadmissible : ¬ Line.IsName marker) : LineFault e := by
  cases offends with
  | @malformed defect breaks => cases defect <;> trivial
  | namelessEnd reads => trivial
  | nested already reads => exact absurd (Line.isName_of_reads reads) inadmissible

/-- **Under a name that no line gives** nothing is found. -/
theorem find_of_not_isName (inadmissible : ¬ Line.IsName query.marker) (text : Bytes) :
    ∃ e, find query text = .error e ∧ (e = .notFound query.marker ∨ LineFault e) := by
  obtain ⟨verdict, found⟩ : ∃ verdict, find query text = verdict := ⟨_, rfl⟩
  rw [found]
  cases find_eq_iff_course.mp found with
  | closes parts behind closes => exact absurd behind.isName inadmissible
  | offends parts behind offends =>
    exact ⟨_, rfl, .inr (lineFault_of_offends offends inadmissible)⟩
  | @ends opened behind =>
    cases opened with
    | none => exact ⟨_, rfl, .inl rfl⟩
    | some index => exact absurd behind.isName inadmissible

/-- **The name that a scan is reading.** In every state that a scan comes to, after any first part of
a text or at its end, the name is at most `maxNameLength` bytes long and none of them is blank. It
has a byte exactly where the automaton is in a name or after it; then the current line, as far as it
has been read, is one that gives this name, in the column that has been noted. Where a line starts,
the name is empty. So a name that is empty, holds a blank or is too long is wanted in vain: no scan
for it finds a region, nor finds it opened twice or left without an end. -/
theorem spells_of_run (query : Query) :
    (∀ text read state, read <+: text → run query (.initial query) read = .ok state →
      state.Spells query.lead text ∧
        ∀ last, finishText query state = .ok last → last.Spells query.lead text) ∧
    (query.marker = [] ∨ (∃ byte ∈ query.marker, isBlank byte) ∨
        maxNameLength < query.marker.length →
      ∀ text, ∃ e, find query text = .error e ∧ (e = .notFound query.marker ∨ LineFault e)) := by
  constructor
  · intro text read state front ran
    obtain ⟨taken, front', follows⟩ := (follows_initial query).run ran
    rw [List.nil_append] at follows
    have spells := follows.spells (front'.trans front)
    exact ⟨spells, fun last finished => spells.finished finished⟩
  · intro unusable text
    exact find_of_not_isName (Line.not_isName_iff.mpr unusable) text

/-- A line that is passed over gives the name `x`, and the closing line behind it is read up to the
blank after `ab`; the scan for the name without a byte finds nothing in the whole text. -/
theorem spells_of_run_behind_other_name :
    (∃ state, run ⟨[0x23], []⟩ (.initial ⟨[0x23], []⟩)
        [0x23, 0x7b, 0x78, 0x0a, 0x23, 0x7d, 0x61, 0x62, 0x20] = .ok state ∧
      state.reader.name = [0x61, 0x62] ∧
      Line.Reads [0x23] [0x23, 0x7d, 0x61, 0x62, 0x20] (.named .closing [0x61, 0x62] 2)) ∧
    ∃ e, find ⟨[0x23], []⟩ [0x23, 0x7b, 0x78, 0x0a, 0x23, 0x7d, 0x61, 0x62, 0x20, 0x0a] = .error e ∧
      (e = .notFound [] ∨ LineFault e) := by
  obtain ⟨spells, vain⟩ := spells_of_run ⟨[0x23], []⟩
  have ran : run ⟨[0x23], []⟩ (.initial ⟨[0x23], []⟩)
      [0x23, 0x7b, 0x78, 0x0a, 0x23, 0x7d, 0x61, 0x62, 0x20] =
        .ok ⟨9, some 0x20, some .lf, 1, 4, ⟨.afterName .closing, 5, [0x61, 0x62], 2, 1⟩, none, none⟩ :=
    rfl
  exact ⟨⟨_, ran, rfl, (spells _ _ _ List.prefix_rfl ran).1.reads .closing rfl⟩,
    vain (.inl rfl) _⟩

end Scan

end MarkedRegions
