import Mathlib.Data.List.TakeWhile
import MarkedRegions.Proofs.Line.Reading

/-!
# The forms of a marker line

The grammar of marker lines as productions: a line that starts with the lead must go on with blanks
alone, with a brace, or with a brace and one admissible name, blanks standing wherever parts meet.
A line with the lead and none of these forms has exactly one defect, and the defect has one place:
the first byte that no form admits after what stands before it. The productions say nothing about
how a line is read; that `Line.kind` finds the production is the subject of this module.

## Main definitions

* `AreBlank`, `IsName`: runs of blanks, and admissible names
* `Reads lead line kind`: the well-formed lines, by their kind
* `Breaks lead line defect`: the malformed lines, by their defect
* `Malformed`, `Opens`, `Closes`, `ClosesNothing`: what a line is, without columns

## Main results

* `reads_iff`, `breaks_iff`: the productions and `Line.kind` agree
* `malformed_iff`: a line with the lead and without a form is one with a defect
-/

namespace MarkedRegions.Line

/-- A run of blanks, possibly empty. -/
def AreBlank (run : Bytes) : Prop :=
  ∀ byte ∈ run, isBlank byte

/-- A run of bytes that are not blank, possibly empty. -/
def AreSolid (run : Bytes) : Prop :=
  ∀ byte ∈ run, ¬ isBlank byte

/-- **An admissible name**: from one byte to `maxNameLength`, none of them blank. -/
structure IsName (name : Bytes) : Prop where
  nonempty : name ≠ []
  bounded : name.length ≤ maxNameLength
  solid : AreSolid name

/-- **The productions of a line.** A column counts the bytes in front of what it locates. -/
inductive Reads (lead : Bytes) : Bytes → Kind → Prop
  -- A line without the lead.
  | text {line : Bytes} (other : ¬ lead <+: line) : Reads lead line .text
  -- `lead ws*`
  | blank {ws : Bytes} (blank : AreBlank ws) : Reads lead (lead ++ ws) .blank
  -- `lead ws* brace ws*`
  | bare {ws ws' : Bytes} (command : Command) (blank : AreBlank ws) (blank' : AreBlank ws') :
    Reads lead (lead ++ (ws ++ command.toByte :: ws')) (.bare command (lead.length + ws.length))
  -- `lead ws* brace ws* name ws*`
  | named {ws ws' ws'' name : Bytes} (command : Command) (blank : AreBlank ws)
    (blank' : AreBlank ws') (isName : IsName name) (blank'' : AreBlank ws'') :
    Reads lead (lead ++ (ws ++ command.toByte :: (ws' ++ (name ++ ws''))))
      (.named command name (lead.length + ws.length + 1 + ws'.length))

/-- **The defects of a line**: what stands before the offending byte could still have become a
marker line. -/
inductive Breaks (lead : Bytes) : Bytes → Defect → Prop
  -- The first byte after the lead that is not blank is no brace.
  | command {ws rest : Bytes} {byte : UInt8} (blank : AreBlank ws) (solid : ¬ isBlank byte)
    (noBrace : byte ≠ openBrace ∧ byte ≠ closeBrace) :
    Breaks lead (lead ++ (ws ++ byte :: rest))
      (.unexpected (lead.length + ws.length) .command byte)
  -- The first token after the brace goes on beyond `maxNameLength` bytes.
  | name {ws ws' name rest : Bytes} {byte : UInt8} (command : Command) (blank : AreBlank ws)
    (blank' : AreBlank ws') (full : name.length = maxNameLength) (solid : AreSolid name)
    (more : ¬ isBlank byte) :
    Breaks lead (lead ++ (ws ++ command.toByte :: (ws' ++ (name ++ byte :: rest))))
      (.nameTooLong (lead.length + ws.length + 1 + ws'.length + name.length))
  -- A second token follows an admissible name.
  | endOfLine {ws ws' ws'' name rest : Bytes} {byte : UInt8} (command : Command)
    (blank : AreBlank ws) (blank' : AreBlank ws') (isName : IsName name) (apart : ws'' ≠ [])
    (blank'' : AreBlank ws'') (solid : ¬ isBlank byte) :
    Breaks lead (lead ++ (ws ++ command.toByte :: (ws' ++ (name ++ (ws'' ++ byte :: rest)))))
      (.unexpected (lead.length + ws.length + 1 + ws'.length + name.length + ws''.length)
        .endOfLine byte)

/-! ## What a line is, without columns -/

/-- **Malformed**: the line starts with the lead and has none of the forms. -/
def Malformed (lead line : Bytes) : Prop :=
  lead <+: line ∧ ∀ kind, ¬ Reads lead line kind

/-- The line opens the region of a name. -/
def Opens (lead marker line : Bytes) : Prop :=
  ∃ column, Reads lead line (.named .opening marker column)

/-- The line closes a region: whatever name it gives. -/
def Closes (lead line : Bytes) : Prop :=
  ∃ name column, Reads lead line (.named .closing name column)

/-- The line is a closing line that gives no name. -/
def ClosesNothing (lead line : Bytes) : Prop :=
  ∃ column, Reads lead line (.bare .closing column)

/-! ## Taking a line apart -/

theorem blanks_append {ws : Bytes} (blank : AreBlank ws) (rest : Bytes) :
    blanks (ws ++ rest) = ws ++ blanks rest :=
  List.takeWhile_append_of_pos blank

theorem afterBlanks_append {ws : Bytes} (blank : AreBlank ws) (rest : Bytes) :
    afterBlanks (ws ++ rest) = afterBlanks rest :=
  List.dropWhile_append_of_pos blank

theorem afterBlanks_of_areBlank {ws : Bytes} (blank : AreBlank ws) : afterBlanks ws = [] := by
  simpa using afterBlanks_append blank []

theorem token_append {name : Bytes} (solid : AreSolid name) (rest : Bytes) :
    token (name ++ rest) = name ++ token rest := by
  apply List.takeWhile_append_of_pos
  intro byte inside
  simp [solid byte inside]

theorem afterToken_append {name : Bytes} (solid : AreSolid name) (rest : Bytes) :
    afterToken (name ++ rest) = afterToken rest := by
  apply List.dropWhile_append_of_pos
  intro byte inside
  simp [solid byte inside]

theorem token_of_areBlank {ws : Bytes} (blank : AreBlank ws) : token ws = [] := by
  cases ws with
  | nil => rfl
  | cons byte ws => exact token_cons_of_blank (blank byte List.mem_cons_self) ws

theorem afterToken_of_areBlank {ws : Bytes} (blank : AreBlank ws) : afterToken ws = ws := by
  cases ws with
  | nil => rfl
  | cons byte ws => exact afterToken_cons_of_blank (blank byte List.mem_cons_self) ws

theorem areBlank_blanks (line : Bytes) : AreBlank (blanks line) := by
  intro byte inside
  exact List.mem_takeWhile_imp inside

theorem areSolid_token (line : Bytes) : AreSolid (token line) := by
  intro byte inside
  have solid := List.mem_takeWhile_imp inside
  simpa using solid

theorem not_isBlank_of_afterBlanks {line rest : Bytes} {byte : UInt8}
    (after : afterBlanks line = byte :: rest) : ¬ isBlank byte := by
  have head := List.head?_dropWhile_not isBlank line
  rw [← afterBlanks, after] at head
  simpa using head

theorem isBlank_of_afterToken {line rest : Bytes} {byte : UInt8}
    (after : afterToken line = byte :: rest) : isBlank byte := by
  have head := List.head?_dropWhile_not (!isBlank ·) line
  rw [← afterToken, after] at head
  simpa using head

theorem not_isBlank_toByte (command : Command) : ¬ isBlank command.toByte := by
  cases command <;> decide

theorem ofByte?_eq_some_iff {byte : UInt8} {command : Command} :
    Command.ofByte? byte = some command ↔ command.toByte = byte := by
  constructor
  · intro written
    simp only [Command.ofByte?] at written
    split at written
    · next opens => cases written; exact opens.symm
    · split at written
      · next closes => cases written; exact closes.symm
      · cases written
  · rintro rfl
    exact Command.ofByte?_toByte command

theorem ofByte?_eq_none_iff {byte : UInt8} :
    Command.ofByte? byte = none ↔ byte ≠ openBrace ∧ byte ≠ closeBrace := by
  rw [Command.ofByte?]
  split
  · next opens => simp [opens]
  · next other =>
    split
    · next closes => simp [closes]
    · next neither => simp [other, neither]

/-! ## The productions and the kind of a line -/

section Productions

variable {lead line : Bytes}

theorem kind_lead_append (lead rest : Bytes) :
    kind lead (lead ++ rest) = kindAfterLead lead.length rest := by
  rw [kind, if_pos (List.isPrefixOf_iff_prefix.mpr (List.prefix_append lead rest)),
    List.drop_left]

theorem kindAfterLead_brace {ws : Bytes} (blank : AreBlank ws) (column : Nat) (command : Command)
    (rest : Bytes) :
    kindAfterLead column (ws ++ command.toByte :: rest) =
      kindAfterBrace command (column + ws.length) rest := by
  rw [kindAfterLead, blanks_append blank, afterBlanks_append blank,
    blanks_cons_of_not_blank (not_isBlank_toByte command),
    afterBlanks_cons_of_not_blank (not_isBlank_toByte command), List.append_nil]
  simp only [Command.ofByte?_toByte]

/-- What follows the brace, where a token of at least one byte is found behind its blanks. -/
theorem kindAfterBrace_token {ws name rest : Bytes} (blank : AreBlank ws) (nonempty : name ≠ [])
    (solid : AreSolid name) (column : Nat) (command : Command) :
    kindAfterBrace command column (ws ++ (name ++ rest)) =
      if maxNameLength < (name ++ token rest).length then
        .malformed (.nameTooLong (column + 1 + ws.length + maxNameLength))
      else kindAfterName command (name ++ token rest) (column + 1 + ws.length)
        (afterToken rest) := by
  obtain ⟨first, name, rfl⟩ := List.exists_cons_of_ne_nil nonempty
  have first_solid : ¬ isBlank first := solid first List.mem_cons_self
  rw [kindAfterBrace, blanks_append blank, afterBlanks_append blank, List.cons_append,
    blanks_cons_of_not_blank first_solid, afterBlanks_cons_of_not_blank first_solid,
    ← List.cons_append, token_append solid, afterToken_append solid, List.append_nil]
  rfl

/-- **Every production is found.** -/
theorem kind_eq_of_reads {kind' : Kind} (reads : Reads lead line kind') :
    kind lead line = kind' := by
  cases reads with
  | text other =>
    rw [kind, if_neg (by rwa [List.isPrefixOf_iff_prefix])]
  | blank blank =>
    rw [kind_lead_append, kindAfterLead, afterBlanks_of_areBlank blank]
  | bare command blank blank' =>
    rw [kind_lead_append, kindAfterLead_brace blank, kindAfterBrace,
      afterBlanks_of_areBlank blank']
    rfl
  | @named ws ws' ws'' name command blank blank' isName blank'' =>
    -- The token behind the brace is the name, since blanks or nothing follow it.
    have short : ¬ maxNameLength < (name ++ token ws'').length := by
      rw [token_of_areBlank blank'', List.append_nil]
      exact Nat.not_lt.mpr isName.bounded
    rw [kind_lead_append, kindAfterLead_brace blank,
      kindAfterBrace_token blank' isName.nonempty isName.solid, if_neg short,
      token_of_areBlank blank'', afterToken_of_areBlank blank'', kindAfterName,
      afterBlanks_of_areBlank blank'', List.append_nil]

/-- **Every defect is found**, at its place. -/
theorem kind_eq_of_breaks {defect : Defect} (breaks : Breaks lead line defect) :
    kind lead line = .malformed defect := by
  cases breaks with
  | command blank solid noBrace =>
    rw [kind_lead_append, kindAfterLead, blanks_append blank, afterBlanks_append blank,
      blanks_cons_of_not_blank solid, afterBlanks_cons_of_not_blank solid, List.append_nil]
    simp only [ofByte?_eq_none_iff.mpr noBrace]
  | @name ws ws' name rest byte command blank blank' full solid more =>
    have nonempty : name ≠ [] := by
      rintro rfl
      exact absurd full (by decide)
    -- The token is longer than the name by the byte that follows, if not by more.
    have long : maxNameLength < (name ++ token (byte :: rest)).length := by
      rw [token_cons_of_not_blank more, List.length_append, List.length_cons]
      omega
    rw [kind_lead_append, kindAfterLead_brace blank, kindAfterBrace_token blank' nonempty solid,
      if_pos long, full]
  | @endOfLine ws ws' ws'' name rest byte command blank blank' isName apart blank'' solid =>
    -- The token ends with the first of the blanks, and the next one is found behind all of them.
    obtain ⟨space, ws'', rfl⟩ := List.exists_cons_of_ne_nil apart
    have space_blank : isBlank space := blank'' space List.mem_cons_self
    have ends : token (space :: ws'' ++ byte :: rest) = [] := token_cons_of_blank space_blank _
    have goes_on : afterToken (space :: ws'' ++ byte :: rest) = space :: ws'' ++ byte :: rest :=
      afterToken_cons_of_blank space_blank _
    rw [kind_lead_append, kindAfterLead_brace blank,
      kindAfterBrace_token blank' isName.nonempty isName.solid, ends, goes_on, List.append_nil,
      if_neg (Nat.not_lt.mpr isName.bounded), kindAfterName, blanks_append blank'',
      afterBlanks_append blank'', blanks_cons_of_not_blank solid,
      afterBlanks_cons_of_not_blank solid, List.append_nil]

/-- The forms and defects of a line with a name: the token that follows the brace is admissible
and ends the line but for blanks, or it is too long, or it is followed by another. -/
theorem form_of_token {ws ws' after : Bytes} {byte : UInt8} (blank : AreBlank ws)
    (blank' : AreBlank ws') (solid : ¬ isBlank byte) (command : Command) :
    (∃ kind', Reads lead (lead ++ (ws ++ command.toByte :: (ws' ++ byte :: after))) kind') ∨
      ∃ defect, Breaks lead (lead ++ (ws ++ command.toByte :: (ws' ++ byte :: after))) defect := by
  -- The name is all that is known of the token from here on.
  have name_solid := areSolid_token (byte :: after)
  have nonempty : token (byte :: after) ≠ [] := by
    rw [token_cons_of_not_blank solid]
    exact List.cons_ne_nil _ _
  rw [← token_append_afterToken (byte :: after)]
  generalize token (byte :: after) = name at name_solid nonempty
  by_cases bounded : name.length ≤ maxNameLength
  case neg =>
    -- The name is cut where it stops being admissible.
    have cut := List.take_append_drop maxNameLength name
    cases beyond : name.drop maxNameLength with
    | nil => exact absurd (List.drop_eq_nil_iff.mp beyond) bounded
    | cons first more =>
      rw [beyond] at cut
      have first_solid : ¬ isBlank first := name_solid first (by rw [← cut]; simp)
      have full : (name.take maxNameLength).length = maxNameLength := by
        rw [List.length_take]
        omega
      rw [← cut, List.append_assoc, List.cons_append]
      exact .inr ⟨_, .name command blank blank' full
        (fun byte inside => name_solid byte (List.mem_of_mem_take inside)) first_solid⟩
  case pos =>
    have isName : IsName name := ⟨nonempty, bounded, name_solid⟩
    cases behind : afterToken (byte :: after) with
    | nil =>
      -- The name ends the line.
      exact .inl ⟨_, .named command blank blank' isName (by simp [AreBlank])⟩
    | cons space rest =>
      have space_blank := isBlank_of_afterToken behind
      rw [← blanks_append_afterBlanks (space :: rest)]
      have blank'' := areBlank_blanks (space :: rest)
      have apart : blanks (space :: rest) ≠ [] := by
        rw [blanks_cons_of_blank space_blank]
        exact List.cons_ne_nil _ _
      generalize blanks (space :: rest) = ws'' at blank'' apart
      cases last : afterBlanks (space :: rest) with
      | nil =>
        -- Blanks end the line.
        rw [List.append_nil]
        exact .inl ⟨_, .named command blank blank' isName blank''⟩
      | cons other rest =>
        -- A second token follows.
        exact .inr ⟨_, .endOfLine command blank blank' isName apart blank''
          (not_isBlank_of_afterBlanks last)⟩

/-- **A line has the form, or the defect, that its kind gives.** The cases are those of
`Line.kind`, and each hands the parts it has found to one production. -/
theorem reads_or_breaks (lead line : Bytes) :
    Reads lead line (kind lead line) ∨
      ∃ defect, kind lead line = .malformed defect ∧ Breaks lead line defect := by
  by_cases leads : lead <+: line
  case neg =>
    -- Text, whatever it holds.
    have reads := Reads.text leads
    exact .inl ((kind_eq_of_reads reads).symm ▸ reads)
  obtain ⟨rest, rfl⟩ := leads
  -- The forms are built first; each of the productions then settles the kind by itself.
  suffices (∃ kind', Reads lead (lead ++ rest) kind') ∨
      ∃ defect, Breaks lead (lead ++ rest) defect by
    rcases this with ⟨kind', reads⟩ | ⟨defect, breaks⟩
    · exact .inl ((kind_eq_of_reads reads).symm ▸ reads)
    · exact .inr ⟨defect, kind_eq_of_breaks breaks, breaks⟩
  rw [← blanks_append_afterBlanks rest]
  have blank := areBlank_blanks rest
  generalize blanks rest = ws at blank
  cases after : afterBlanks rest with
  | nil =>
    -- Nothing but blanks.
    have reads : Reads lead (lead ++ (ws ++ [])) .blank := by simpa using Reads.blank blank
    exact .inl ⟨_, reads⟩
  | cons byte rest' =>
    have solid := not_isBlank_of_afterBlanks after
    cases written : Command.ofByte? byte with
    | none =>
      -- Something else than a brace.
      exact .inr ⟨_, .command blank solid (ofByte?_eq_none_iff.mp written)⟩
    | some command =>
      obtain rfl := ofByte?_eq_some_iff.mp written
      rw [← blanks_append_afterBlanks rest']
      have blank' := areBlank_blanks rest'
      generalize blanks rest' = ws' at blank'
      cases after' : afterBlanks rest' with
      | nil =>
        -- A brace and no name.
        rw [List.append_nil]
        exact .inl ⟨_, .bare command blank blank'⟩
      | cons first name =>
        -- A brace and at least one token.
        exact form_of_token blank blank' (not_isBlank_of_afterBlanks after') command

/-- A well-formed line is not malformed. -/
theorem not_breaks_of_reads {kind' : Kind} {defect : Defect} (reads : Reads lead line kind') :
    kind' ≠ .malformed defect := by
  cases reads <;> simp

/-- **The kind of a line is its production.** -/
theorem reads_iff {kind' : Kind} :
    Reads lead line kind' ↔ kind lead line = kind' ∧ ∀ defect, kind' ≠ .malformed defect := by
  constructor
  · intro reads
    refine ⟨kind_eq_of_reads reads, ?_⟩
    intro defect
    exact not_breaks_of_reads reads
  · rintro ⟨rfl, formed⟩
    rcases reads_or_breaks lead line with reads | ⟨defect, malformed, -⟩
    · exact reads
    · exact absurd malformed (formed defect)

/-- **A defect is what the kind of a malformed line gives.** -/
theorem breaks_iff {defect : Defect} :
    Breaks lead line defect ↔ kind lead line = .malformed defect := by
  constructor
  · exact kind_eq_of_breaks
  · intro malformed
    rcases reads_or_breaks lead line with reads | ⟨defect', malformed', breaks⟩
    · exact absurd malformed (not_breaks_of_reads reads)
    · rw [malformed] at malformed'
      cases malformed'
      exact breaks

/-- **A line with the lead and without a form has a defect**, and conversely. -/
theorem malformed_iff : Malformed lead line ↔ ∃ defect, kind lead line = .malformed defect := by
  constructor
  · rintro ⟨-, formless⟩
    rcases reads_or_breaks lead line with reads | ⟨defect, malformed, -⟩
    · exact absurd reads (formless _)
    · exact ⟨defect, malformed⟩
  · rintro ⟨defect, malformed⟩
    refine ⟨?_, ?_⟩
    · by_contra other
      rw [kind_eq_of_reads (.text other)] at malformed
      cases malformed
    · intro kind' reads
      exact not_breaks_of_reads reads ((kind_eq_of_reads reads).symm.trans malformed)

theorem opens_iff {marker : Bytes} :
    Opens lead marker line ↔ ∃ column, kind lead line = .named .opening marker column := by
  simp [Opens, reads_iff]

theorem closes_iff :
    Closes lead line ↔ ∃ name column, kind lead line = .named .closing name column := by
  simp [Closes, reads_iff]

theorem closesNothing_iff :
    ClosesNothing lead line ↔ ∃ column, kind lead line = .bare .closing column := by
  simp [ClosesNothing, reads_iff]

end Productions

end MarkedRegions.Line
