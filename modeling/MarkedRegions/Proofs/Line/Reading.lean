import MarkedRegions.Line.Grammar

/-!
# The line automaton reads kinds

The automaton looks at one byte at a time and never ahead, while the kind of a line is taken from
the line as a whole. They agree: started on a line, the automaton refuses a byte exactly where the
line is malformed, and otherwise stops in a state from which the kind can be read off. The proof
follows the phases backwards, from the blanks after a name to the lead, each phase giving in closed
form what the rest of the line makes of it.

## Main definitions

* `Reader.read`: the automaton on several bytes
* `Reader.kind`: what a line is that ends in a state of the automaton
* `Reader.verdict`: what a line is that goes on from a state with given bytes

## Main results

* `verdict_initial`: from its initial state the automaton finds the kind of the line
* `kind_append_blank`: a blank after a line changes nothing that matters
-/

namespace MarkedRegions.Line

namespace Reader

/-- **Several bytes of a line**, up to the first that is refused. -/
def read (lead : Bytes) (reader : Reader) : Bytes → Except Defect Reader
  | [] => .ok reader
  | byte :: rest =>
    match reader.feed lead byte with
    | .ok next => next.read lead rest
    | .error defect => .error defect

/-- **What a line is that ends here.** -/
def kind (reader : Reader) : Kind :=
  match reader.phase with
  | .lead _ | .text => .text
  | .beforeCommand => .blank
  | .beforeName command => .bare command reader.commandColumn
  | .inName command | .afterName command => .named command reader.name reader.nameColumn

/-- **What a line is that goes on** from a state with the given bytes and then ends. -/
def verdict (lead : Bytes) (reader : Reader) (line : Bytes) : Kind :=
  match reader.read lead line with
  | .ok last => last.kind
  | .error defect => .malformed defect

@[simp] theorem verdict_nil (lead : Bytes) (reader : Reader) :
    reader.verdict lead [] = reader.kind := rfl

theorem verdict_cons_of_ok {lead : Bytes} {reader next : Reader} {byte : UInt8} (rest : Bytes)
    (fed : reader.feed lead byte = .ok next) :
    reader.verdict lead (byte :: rest) = next.verdict lead rest := by
  simp only [verdict, read, fed]

theorem verdict_cons_of_error {lead : Bytes} {reader : Reader} {byte : UInt8} {defect : Defect}
    (rest : Bytes) (fed : reader.feed lead byte = .error defect) :
    reader.verdict lead (byte :: rest) = .malformed defect := by
  simp only [verdict, read, fed]

theorem read_append_singleton {lead : Bytes} {reader last : Reader} {line : Bytes}
    (done : reader.read lead line = .ok last) (byte : UInt8) :
    reader.read lead (line ++ [byte]) = last.feed lead byte := by
  induction line generalizing reader with
  | nil =>
    obtain rfl : reader = last := Except.ok.inj done
    simp only [List.nil_append, read]
    cases reader.feed lead byte <;> rfl
  | cons first rest ih =>
    simp only [List.cons_append, read] at done ⊢
    cases fed : reader.feed lead first with
    | error defect => simp [fed] at done
    | ok next =>
      rw [fed] at done
      exact ih done

theorem read_append_of_error {lead : Bytes} {reader : Reader} {line : Bytes} {defect : Defect}
    (refused : reader.read lead line = .error defect) (more : Bytes) :
    reader.read lead (line ++ more) = .error defect := by
  induction line generalizing reader with
  | nil => simp [read] at refused
  | cons first rest ih =>
    simp only [List.cons_append, read] at refused ⊢
    cases fed : reader.feed lead first with
    | error defect' => simpa [fed] using refused
    | ok next =>
      rw [fed] at refused
      exact ih refused

end Reader

/-! ## The parts of a line -/

@[simp] theorem afterBlanks_nil : afterBlanks [] = [] := rfl

theorem blanks_cons_of_blank {byte : UInt8} (blank : isBlank byte) (rest : Bytes) :
    blanks (byte :: rest) = byte :: blanks rest :=
  List.takeWhile_cons_of_pos blank

theorem blanks_cons_of_not_blank {byte : UInt8} (solid : ¬ isBlank byte) (rest : Bytes) :
    blanks (byte :: rest) = [] :=
  List.takeWhile_cons_of_neg solid

theorem afterBlanks_cons_of_blank {byte : UInt8} (blank : isBlank byte) (rest : Bytes) :
    afterBlanks (byte :: rest) = afterBlanks rest :=
  List.dropWhile_cons_of_pos blank

theorem afterBlanks_cons_of_not_blank {byte : UInt8} (solid : ¬ isBlank byte) (rest : Bytes) :
    afterBlanks (byte :: rest) = byte :: rest :=
  List.dropWhile_cons_of_neg solid

theorem token_cons_of_blank {byte : UInt8} (blank : isBlank byte) (rest : Bytes) :
    token (byte :: rest) = [] :=
  List.takeWhile_cons_of_neg (by simp [blank])

theorem token_cons_of_not_blank {byte : UInt8} (solid : ¬ isBlank byte) (rest : Bytes) :
    token (byte :: rest) = byte :: token rest :=
  List.takeWhile_cons_of_pos (by simp [solid])

theorem afterToken_cons_of_blank {byte : UInt8} (blank : isBlank byte) (rest : Bytes) :
    afterToken (byte :: rest) = byte :: rest :=
  List.dropWhile_cons_of_neg (by simp [blank])

theorem afterToken_cons_of_not_blank {byte : UInt8} (solid : ¬ isBlank byte) (rest : Bytes) :
    afterToken (byte :: rest) = afterToken rest :=
  List.dropWhile_cons_of_pos (by simp [solid])

/-! ## The phases, backwards -/

section Phases

variable {lead : Bytes} {command : Command}

theorem verdict_text (name : Bytes) (column nameColumn commandColumn : Nat) (rest : Bytes) :
    (Reader.mk .text column name nameColumn commandColumn).verdict lead rest = .text := by
  induction rest generalizing column with
  | nil => rfl
  | cons byte rest ih =>
    rw [Reader.verdict_cons_of_ok rest rfl]
    exact ih (column + 1)

theorem verdict_afterName (name : Bytes) (column nameColumn commandColumn : Nat)
    (rest : Bytes) :
    (Reader.mk (.afterName command) column name nameColumn commandColumn).verdict lead rest =
      match afterBlanks rest with
      | [] => .named command name nameColumn
      | byte :: _ => .malformed (.unexpected (column + (blanks rest).length) .endOfLine byte) := by
  induction rest generalizing column with
  | nil => rfl
  | cons byte rest ih =>
    by_cases blank : isBlank byte
    · rw [Reader.verdict_cons_of_ok rest (by simp only [Reader.feed, if_pos blank]; rfl)]
      refine (ih (column + 1)).trans ?_
      rw [afterBlanks_cons_of_blank blank, blanks_cons_of_blank blank, List.length_cons,
        Nat.add_right_comm column 1, Nat.add_assoc column]
    · -- A second token.
      rw [Reader.verdict_cons_of_error rest (by simp only [Reader.feed, if_neg blank]; rfl),
        afterBlanks_cons_of_not_blank blank, blanks_cons_of_not_blank blank]
      rfl

/-- Inside the name the automaton is behind the name read so far, so its column needs no mention
of its own. -/
theorem verdict_inName (name : Bytes) (nameColumn commandColumn : Nat) (rest : Bytes)
    (admissible : name.length ≤ maxNameLength) :
    (Reader.mk (.inName command) (nameColumn + name.length) name nameColumn
        commandColumn).verdict lead rest =
      if maxNameLength < (name ++ token rest).length then
        .malformed (.nameTooLong (nameColumn + maxNameLength))
      else kindAfterName command (name ++ token rest) nameColumn (afterToken rest) := by
  induction rest generalizing name with
  | nil =>
    -- The line ends with the name.
    have short : ¬ maxNameLength < (name ++ token []).length := by
      simpa [token] using admissible
    rw [if_neg short]
    simp [Reader.kind, kindAfterName, afterToken, token]
  | cons byte rest ih =>
    by_cases blank : isBlank byte
    · -- The name ends, and only blanks may follow.
      rw [Reader.verdict_cons_of_ok rest (by simp only [Reader.feed, if_pos blank]; rfl),
        token_cons_of_blank blank, afterToken_cons_of_blank blank, List.append_nil,
        if_neg (Nat.not_lt.mpr admissible), kindAfterName, afterBlanks_cons_of_blank blank,
        blanks_cons_of_blank blank, List.length_cons]
      have columns : nameColumn + name.length + 1 + (blanks rest).length =
          nameColumn + name.length + ((blanks rest).length + 1) := by omega
      rw [← columns]
      exact verdict_afterName name _ _ _ rest
    · rw [token_cons_of_not_blank blank, afterToken_cons_of_not_blank blank]
      by_cases full : maxNameLength ≤ name.length
      · -- The byte is refused in the column behind a name of the full length.
        have exact_length : name.length = maxNameLength := Nat.le_antisymm admissible full
        rw [Reader.verdict_cons_of_error rest (by
            simp only [Reader.feed, if_neg blank, Reader.extendName, if_pos full]; rfl),
          if_pos (by simp only [List.length_append, List.length_cons]; omega), exact_length]
      · -- The byte joins the name, which is still admissible.
        rw [Reader.verdict_cons_of_ok rest (by
          simp only [Reader.feed, if_neg blank, Reader.extendName, if_neg full]; rfl)]
        have longer : (name ++ [byte]).length ≤ maxNameLength := by
          rw [List.length_append, List.length_singleton]; omega
        have next := ih (name ++ [byte]) longer
        rw [List.append_assoc, List.singleton_append, List.length_append, List.length_singleton,
          ← Nat.add_assoc] at next
        exact next

theorem verdict_beforeName (column nameColumn commandColumn : Nat) (rest : Bytes) :
    (Reader.mk (.beforeName command) column [] nameColumn commandColumn).verdict lead rest =
      let start := column + (blanks rest).length
      let name := token (afterBlanks rest)
      if name.isEmpty then .bare command commandColumn
      else if maxNameLength < name.length then .malformed (.nameTooLong (start + maxNameLength))
      else kindAfterName command name start (afterToken (afterBlanks rest)) := by
  induction rest generalizing column with
  | nil => rfl
  | cons byte rest ih =>
    by_cases blank : isBlank byte
    · rw [Reader.verdict_cons_of_ok rest (by simp only [Reader.feed, if_pos blank]; rfl)]
      refine (ih (column + 1)).trans ?_
      rw [afterBlanks_cons_of_blank blank, blanks_cons_of_blank blank, List.length_cons,
        Nat.add_right_comm column 1, Nat.add_assoc column]
    · -- The byte is the first of the name.
      rw [Reader.verdict_cons_of_ok rest (by
        simp only [Reader.feed, if_neg blank, Reader.extendName]; rfl)]
      refine (verdict_inName [byte] column commandColumn rest (Nat.le_add_left 1 254)).trans ?_
      rw [afterBlanks_cons_of_not_blank blank, blanks_cons_of_not_blank blank,
        token_cons_of_not_blank blank, afterToken_cons_of_not_blank blank]
      rfl

theorem verdict_beforeCommand (column nameColumn commandColumn : Nat) (rest : Bytes) :
    (Reader.mk .beforeCommand column [] nameColumn commandColumn).verdict lead rest =
      kindAfterLead column rest := by
  induction rest generalizing column with
  | nil => rfl
  | cons byte rest ih =>
    by_cases blank : isBlank byte
    · rw [Reader.verdict_cons_of_ok rest (by simp only [Reader.feed, if_pos blank]; rfl)]
      refine (ih (column + 1)).trans ?_
      rw [kindAfterLead, kindAfterLead, afterBlanks_cons_of_blank blank,
        blanks_cons_of_blank blank, List.length_cons, Nat.add_right_comm column 1,
        Nat.add_assoc column]
    · rw [kindAfterLead, afterBlanks_cons_of_not_blank blank, blanks_cons_of_not_blank blank]
      cases written : Command.ofByte? byte with
      | none =>
        rw [Reader.verdict_cons_of_error rest (by
          simp only [Reader.feed, if_neg blank, written]; rfl)]
        simp [written]
      | some command =>
        rw [Reader.verdict_cons_of_ok rest (by
          simp only [Reader.feed, if_neg blank, written]; rfl)]
        refine (verdict_beforeName _ _ _ rest).trans ?_
        simp [written, kindAfterBrace, Reader.advance]

/-- In the lead the column is the number of bytes that have agreed. -/
theorem verdict_lead {agreed : Nat} (inside : agreed < lead.length) (rest : Bytes) :
    (Reader.mk (.lead agreed) agreed [] 0 0).verdict lead rest =
      if (lead.drop agreed).isPrefixOf rest then
        kindAfterLead lead.length (rest.drop (lead.length - agreed))
      else .text := by
  induction rest generalizing agreed with
  | nil =>
    rw [List.drop_eq_getElem_cons inside]
    rfl
  | cons byte rest ih =>
    rw [Reader.verdict_cons_of_ok rest rfl, List.drop_eq_getElem_cons inside,
      List.isPrefixOf_cons_cons]
    by_cases agrees : lead[agreed] = byte
    · -- One byte more has agreed: the last of the lead, or not yet.
      have found : ¬ lead[agreed]? ≠ some byte := by simp [inside, agrees]
      simp only [Reader.advance, Reader.matchLead, if_neg found]
      by_cases complete : agreed + 1 = lead.length
      · rw [if_pos complete, verdict_beforeCommand, complete, List.drop_length,
          show lead.length - agreed = 1 by omega]
        simp [agrees]
      · rw [if_neg complete, ih (by omega),
          show lead.length - agreed = lead.length - (agreed + 1) + 1 by omega]
        simp [agrees]
    · -- Whatever follows, the line is text.
      have missed : lead[agreed]? ≠ some byte := by simpa [inside] using agrees
      simp only [Reader.advance, Reader.matchLead, if_pos missed]
      rw [verdict_text]
      simp [agrees]

end Phases

/-! ## The whole line -/

/-- **The automaton finds the kind of a line.** -/
theorem verdict_initial (lead line : Bytes) :
    (Reader.initial lead).verdict lead line = kind lead line := by
  rw [Reader.initial, Reader.initialPhase, kind]
  cases lead with
  | nil =>
    -- An empty lead is behind every line that has not begun.
    rw [List.isEmpty_nil, if_pos rfl, verdict_beforeCommand]
    simp
  | cons first lead =>
    rw [List.isEmpty_cons, if_neg Bool.false_ne_true, verdict_lead (by simp)]
    simp

theorem kind_eq_of_read {lead line : Bytes} {last : Reader}
    (done : (Reader.initial lead).read lead line = .ok last) : kind lead line = last.kind := by
  rw [← verdict_initial, Reader.verdict, done]

theorem kind_eq_of_refused {lead line : Bytes} {defect : Defect}
    (refused : (Reader.initial lead).read lead line = .error defect) :
    kind lead line = .malformed defect := by
  rw [← verdict_initial, Reader.verdict, refused]

/-- A blank is never refused, and only the lead takes notice of it. -/
theorem Reader.feed_blank (lead : Bytes) (reader : Reader) {byte : UInt8} (blank : isBlank byte) :
    ∃ next, reader.feed lead byte = .ok next ∧
      (next.kind = reader.kind ∨ reader.kind = .text ∧ next.kind = .blank) := by
  obtain ⟨phase, column, name, nameColumn, commandColumn⟩ := reader
  cases phase with
  | lead agreed =>
    -- The blank may be the last byte of the lead; otherwise the line stays text.
    refine ⟨_, rfl, ?_⟩
    simp only [kind, advance, matchLead]
    by_cases missed : lead[agreed]? ≠ some byte
    · simp [missed]
    · by_cases complete : agreed + 1 = lead.length <;> simp [missed, complete]
  | text => exact ⟨_, rfl, .inl rfl⟩
  | beforeCommand | beforeName command | inName command | afterName command =>
    exact ⟨_, if_pos blank, .inl rfl⟩

/-- **A blank after a line changes nothing that matters**: at most it completes a lead that ends
in a blank, and a text line becomes a blank one. -/
theorem kind_append_blank (lead line : Bytes) {byte : UInt8} (blank : isBlank byte) :
    kind lead (line ++ [byte]) = kind lead line ∨
      kind lead line = .text ∧ kind lead (line ++ [byte]) = .blank := by
  cases done : (Reader.initial lead).read lead line with
  | error defect =>
    left
    rw [kind_eq_of_refused done, kind_eq_of_refused (Reader.read_append_of_error done [byte])]
  | ok last =>
    obtain ⟨next, fed, same⟩ := last.feed_blank lead blank
    rw [kind_eq_of_read done, kind_eq_of_read ((Reader.read_append_singleton done byte).trans fed)]
    exact same

end MarkedRegions.Line
