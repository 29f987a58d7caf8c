/-!
# Text without terminal commands

What a user typed is repeated in messages without the characters that a terminal would obey: escape
sequences are left out whole, and control characters that are not spaces are left out one by one.

## Main definitions

* `Plain.text`: a text without terminal commands
-/

namespace MarkedRegions.Plain

/-- **Where in an escape sequence** a character stands. -/
inductive Phase
  | outside
  | escape
  -- After an opening bracket: up to a letter or another final character.
  | control
  -- In a string for the terminal: up to a bell or an escape sequence.
  | string
deriving DecidableEq

/-- Control characters that are spaces. -/
def isSpace (c : Char) : Bool :=
  c = '\t' || c = '\n' || c = '\x0c' || c = '\r'

/-- Whether a character is left in outside of sequences. -/
def isShown (c : Char) : Bool :=
  isSpace c || (0x20 ≤ c.toNat && c.toNat ≠ 0x7f)

/-- The phase after a character. -/
def Phase.next (phase : Phase) (c : Char) : Phase :=
  if c = '\x1b' then .escape
  else match phase with
    | .outside => .outside
    | .escape =>
      if c = '[' then .control
      else if c = ']' ∨ c = 'P' ∨ c = 'X' ∨ c = '^' ∨ c = '_' then .string
      else if 0x20 ≤ c.toNat ∧ c.toNat < 0x30 then .escape
      else .outside
    | .control => if 0x40 ≤ c.toNat ∧ c.toNat ≤ 0x7e then .outside else .control
    | .string => if c = '\x07' then .outside else .string

/-- The characters left in, from a phase on. -/
def chars (phase : Phase) : List Char → List Char
  | [] => []
  | c :: rest =>
    if phase = .outside && isShown c then c :: chars (phase.next c) rest
    else chars (phase.next c) rest

/-- **A text without terminal commands.** -/
def text (s : String) : String :=
  String.ofList (chars .outside s.toList)

end MarkedRegions.Plain
