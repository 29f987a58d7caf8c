/-!
# Characters of YAML and places among them

YAML asks of every character on which line and in which column it stands. A cursor is a place in a
text: the characters that follow, and the line and column of the first of them.

## Main definitions

* `Yaml.isBlank`, `Yaml.isBreak`: the characters between words and between lines
* `Yaml.Cursor`: a place
* `Yaml.Blanks`: the blanks and line breaks between words, and what they fold to
-/

namespace MarkedRegions.Yaml

/-- Characters that a text may hold at all. -/
def isAllowed (c : Char) : Bool :=
  let n := c.toNat
  n = 0x09 || n = 0x0a || n = 0x0d || (0x20 ≤ n && n ≤ 0x7e) || n = 0x85
    || (0xa0 ≤ n && n ≤ 0xd7ff) || (0xe000 ≤ n && n ≤ 0xfffd && n ≠ 0xfeff) || 0x10000 ≤ n

/-- Blanks between words. -/
def isBlank (c : Char) : Bool :=
  c = ' ' || c = '\t'

/-- Characters that end a line. -/
def isBreak (c : Char) : Bool :=
  c = '\n' || c = '\r' || c = '\u0085' || c = '\u2028' || c = '\u2029'

/-- Whether a text is over, or goes on with a blank or a line break. -/
def isSpaceNext : List Char → Bool
  | [] => true
  | c :: _ => isBlank c || isBreak c

/-- The line break at the front of a text: what it reads as, how many characters it takes, and what
follows. -/
def lineBreak? : List Char → Option (Char × Nat × List Char)
  | '\r' :: '\n' :: rest => some ('\n', 2, rest)
  | '\r' :: rest | '\n' :: rest | '\u0085' :: rest => some ('\n', 1, rest)
  | '\u2028' :: rest => some ('\u2028', 1, rest)
  | '\u2029' :: rest => some ('\u2029', 1, rest)
  | _ => none

/-- **A place in a text.** -/
structure Cursor where
  -- The characters from here on.
  rest : List Char
  -- How many characters come before.
  index : Nat
  line : Nat
  column : Nat

namespace Cursor

def start (text : List Char) : Cursor := ⟨text, 0, 0, 0⟩

def next? (cursor : Cursor) : Option Char := cursor.rest.head?

def startsWith (cursor : Cursor) (c : Char) : Bool := cursor.next? = some c

/-- The place after some characters of the same line. -/
def skip (cursor : Cursor) (count : Nat := 1) : Cursor :=
  { cursor with
    rest := cursor.rest.drop count
    index := cursor.index + count
    column := cursor.column + count }

/-- The place after some characters of the same line that are all of one kind. -/
def skipWhile (cursor : Cursor) (kind : Char → Bool) : Cursor :=
  cursor.skip (cursor.rest.takeWhile kind).length

/-- The line break here, and the place after it. -/
def break? (cursor : Cursor) : Option (Char × Cursor) :=
  (lineBreak? cursor.rest).map fun (c, width, rest) =>
    (c, ⟨rest, cursor.index + width, cursor.line + 1, 0⟩)

/-- The place after the line break, if there is one here. -/
def skipBreak (cursor : Cursor) : Cursor :=
  (cursor.break?.map (·.2)).getD cursor

/-- Whether the line starts here with the mark of a document's start or end. -/
def atDocumentMark (cursor : Cursor) : Bool :=
  cursor.column = 0 &&
    match cursor.rest with
    | '-' :: '-' :: '-' :: rest | '.' :: '.' :: '.' :: rest => isSpaceNext rest
    | _ => false

end Cursor

/-! ## Blanks between words -/

/-- **The blanks and line breaks between two words** of a scalar. -/
structure Blanks where
  blanks : List Char
  first : List Char
  -- The line breaks after the first.
  further : List Char
  -- Whether a line break has been met.
  broken : Bool

namespace Blanks

def none : Blanks := ⟨[], [], [], false⟩

/-- What a line break and those after it read as: a single line break is a space, and of several the
first is left out. -/
def fold (first further : List Char) : List Char :=
  if first = ['\n'] then (if further.isEmpty then [' '] else further) else first ++ further

/-- **What blanks between words read as.** -/
def text (blanks : Blanks) : List Char :=
  if blanks.broken then fold blanks.first blanks.further else blanks.blanks

def addBreak (blanks : Blanks) (c : Char) : Blanks :=
  if blanks.broken then { blanks with further := blanks.further ++ [c] }
  else { blanks with blanks := [], first := [c], broken := true }

/-- Takes in a blank: on later lines blanks do not count. -/
def addBlank (blanks : Blanks) (c : Char) : Blanks :=
  if blanks.broken then blanks else { blanks with blanks := blanks.blanks ++ [c] }

/-- Reads blanks and line breaks. A tab on a later line may not stand before the given column. -/
def read? (minimum : Nat) : Nat → Blanks → Cursor → Option (Blanks × Cursor)
  | 0, blanks, cursor => some (blanks, cursor)
  | fuel + 1, blanks, cursor =>
    match cursor.break? with
    | some (c, cursor) => read? minimum fuel (blanks.addBreak c) cursor
    | Option.none =>
      match cursor.next? with
      | some c =>
        if isBlank c then
          if blanks.broken && c = '\t' && cursor.column < minimum then Option.none
          else read? minimum fuel (blanks.addBlank c) cursor.skip
        else some (blanks, cursor)
      | Option.none => some (blanks, cursor)

end Blanks

end MarkedRegions.Yaml
