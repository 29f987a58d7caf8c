import MarkedRegions.Text.Lowercase.Table

/-!
# Text in lower case

A text is put into lower case character by character, with two exceptions: the capital I with a dot
keeps its dot as a mark of its own, and a capital sigma at the end of a word has a form of its own.
A sigma ends a word if the nearest letter before it has a case and the nearest one after it has
none; marks are passed over in both directions.

## Main definitions

* `Lowercase.char`: the lower-case form of a character
* `Lowercase.text`: a text in lower case
-/

namespace MarkedRegions.Lowercase

/-- Whether a run holds a character. -/
def Run.holds (run : Run) (n : Nat) : Bool :=
  run.first ≤ n && n ≤ run.last && (n - run.first) % run.step = 0

/-- **The lower-case form** of a character by itself. -/
def char (c : Char) : Char :=
  match runs.find? (·.holds c.toNat) with
  | some run => Char.ofNat (c.toNat + run.shift).toNat
  | none => c

/-- Whether a character lies in one of some ranges. -/
def inRanges (ranges : List (Nat × Nat)) (c : Char) : Bool :=
  ranges.any fun (first, last) => first ≤ c.toNat && c.toNat ≤ last

/-- Whether the nearest character that is not passed over has a case. -/
def meetsLetter (chars : List Char) : Bool :=
  ((chars.dropWhile (inRanges marks)).head?).any (inRanges letters)

/-- A capital sigma between the characters before it, the nearest first, and those after it. -/
def sigma (before after : List Char) : Char :=
  if meetsLetter before && !meetsLetter after then 'ς' else 'σ'

/-- **A text in lower case**, after the characters in `before`, the nearest first. -/
def charsAfter (before : List Char) : List Char → List Char
  | [] => []
  | c :: rest =>
    let lower :=
      if c = 'Σ' then [sigma before rest]
      else if c = '\u0130' then ['i', '\u0307']
      else [char c]
    lower ++ charsAfter (c :: before) rest

def text (s : String) : String :=
  String.ofList (charsAfter [] s.toList)

end MarkedRegions.Lowercase
