import MarkedRegions.Line.Cut
import MarkedRegions.Line.Reader

/-!
# What a line is

A line is taken apart as a whole: the lead, blanks, a brace, blanks, a name, blanks. A line without
the lead is text, one that breaks off after the lead's blanks is blank, and a line that goes on in
any other way is malformed at the first byte that can not stand where it stands. Columns count from
zero. The automaton that reads lines byte by byte comes to the same verdicts without looking ahead.

## Main definitions

* `Line.Kind`: what a line is
* `Line.kind`: the kind of a line, for a lead
* `Line.Kind.isHarmless`, `Line.IsInert`: the lines, and the contents, that can stand in an open
  region without closing or spoiling it
-/

namespace MarkedRegions.Line

/-- **What a line is.** -/
inductive Kind
  -- It does not start with the lead.
  | text
  -- Nothing but blanks follows the lead.
  | blank
  -- A brace without a name, at a column.
  | bare (command : Command) (column : Nat)
  -- A brace with a name, which begins at a column.
  | named (command : Command) (name : Bytes) (column : Nat)
  -- It starts with the lead and has no other form.
  | malformed (defect : Defect)
deriving DecidableEq, Repr

/-- What stands in front of the first byte that is not blank. -/
def blanks (line : Bytes) : Bytes :=
  line.takeWhile isBlank

def afterBlanks (line : Bytes) : Bytes :=
  line.dropWhile isBlank

/-- The bytes in front of the first blank. -/
def token (line : Bytes) : Bytes :=
  line.takeWhile (!isBlank ·)

def afterToken (line : Bytes) : Bytes :=
  line.dropWhile (!isBlank ·)

/-- The kind of a line after its name, with what follows the name. -/
def kindAfterName (command : Command) (name : Bytes) (column : Nat) (rest : Bytes) : Kind :=
  match afterBlanks rest with
  | [] => .named command name column
  | byte :: _ =>
    .malformed (.unexpected (column + name.length + (blanks rest).length) .endOfLine byte)

/-- The kind of a line after its brace, which stands at a column, with what follows the brace. -/
def kindAfterBrace (command : Command) (column : Nat) (rest : Bytes) : Kind :=
  let start := column + 1 + (blanks rest).length
  let name := token (afterBlanks rest)
  -- Too long a name is a defect at the first byte too many, whatever follows the name.
  if name.isEmpty then .bare command column
  else if maxNameLength < name.length then .malformed (.nameTooLong (start + maxNameLength))
  else kindAfterName command name start (afterToken (afterBlanks rest))

/-- The kind of a line after its lead, which ends at a column, with what follows the lead. -/
def kindAfterLead (column : Nat) (rest : Bytes) : Kind :=
  let start := column + (blanks rest).length
  match afterBlanks rest with
  | [] => .blank
  | byte :: rest =>
    match Command.ofByte? byte with
    | some command => kindAfterBrace command start rest
    | none => .malformed (.unexpected start .command byte)

/-- **The kind of a line.** -/
def kind (lead line : Bytes) : Kind :=
  if lead.isPrefixOf line then kindAfterLead lead.length (line.drop lead.length) else .text

/-- Whether a line of this kind can stand in an open region and leave it open: it closes nothing,
has no defect, and does not open the region once more. -/
def Kind.isHarmless (marker : Bytes) : Kind → Bool
  | .text | .blank | .bare .opening _ => true
  | .named .opening name _ => name ≠ marker
  | .bare .closing _ | .named .closing _ _ | .malformed _ => false

/-- **Contents that keep their region open**: all their lines do. -/
def IsInert (lead marker : Bytes) (ending : LineEnding) (contents : Bytes) : Prop :=
  ∀ line ∈ cut ending contents, (kind lead line).isHarmless marker

instance (lead marker : Bytes) (ending : LineEnding) (contents : Bytes) :
    Decidable (IsInert lead marker ending contents) :=
  inferInstanceAs (Decidable (∀ _ ∈ _, _))

theorem blanks_append_afterBlanks (line : Bytes) : blanks line ++ afterBlanks line = line :=
  List.takeWhile_append_dropWhile

theorem token_append_afterToken (line : Bytes) : token line ++ afterToken line = line :=
  List.takeWhile_append_dropWhile

end MarkedRegions.Line
