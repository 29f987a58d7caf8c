import MarkedRegions.Settings.Toml.Ledger
import MarkedRegions.Settings.Toml.Scalar

/-!
# Reading TOML

A TOML text is read line by line: headers open tables, and keys with values are added to the table
that is open. Everything that is written must be well formed, also where it is never asked for.

## Main definitions

* `Toml.value`: a value
* `Toml.document?`: a whole text
-/

namespace MarkedRegions.Toml

/-- The rest of a line without a comment at its front. -/
def skipComment? (text : List Char) : Option (List Char) :=
  match text with
  | '#' :: rest =>
    match rest.dropWhile isPlain with
    | [] => some []
    | rest => (newline? rest).map fun _ => rest
  | rest => some rest

/-- What follows the end of a line, with blanks and a comment before it. -/
def endOfLine? (text : List Char) : Option (List Char) := do
  match ← skipComment? (skipBlanks text) with
  | [] => some []
  | rest => newline? rest

/-- Skips blanks, comments and ends of lines between the items of an array. -/
def skipLines? : Nat → List Char → Option (List Char)
  | 0, _ => none
  | fuel + 1, text => do
    match ← skipComment? (skipBlanks text) with
    | [] => some []
    | rest =>
      match newline? rest with
      | some rest => skipLines? fuel rest
      | none => some rest

/-- Whether a value starts as numbers, dates and times do. -/
def startsNumber (c : Char) : Bool :=
  Json.isDigit c || c = '+' || c = '-' || c = 'i' || c = 'n'

/-- Brackets and braces are open at most this deep, and no key has more parts. -/
def maxDepth : Nat := 79

/-- A key with its dots, of no more parts than there may be. -/
def boundedKey : Reader (List (List Char)) := fun text => do
  let (key, rest) ← key text
  if maxDepth < key.length then none else some (key, rest)

/-- **A value**, in which brackets and braces may be open `depth` deep. The fuel bounds the number
of its parts. -/
def value (depth : Nat) : Nat → Reader Setting
  | 0, _ => none
  | fuel + 1, text =>
    match text with
    | '"' :: _ | '\'' :: _ => (string text).map fun (chars, rest) => (.text chars, rest)
    | '[' :: rest =>
      match depth with
      | 0 => none
      | depth + 1 => (items depth fuel rest).map (.other, ·)
    | '\x7b' :: rest =>
      match depth with
      | 0 => none
      | depth + 1 =>
        match skipBlanks rest with
        | '\x7d' :: rest => some (.other, rest)
        | rest => (members depth fuel .empty rest).map (.other, ·)
    | 't' :: _ => (Json.word? "true".toList text).map (.other, ·)
    | 'f' :: _ => (Json.word? "false".toList text).map (.other, ·)
    | c :: _ =>
      -- Dates and times are tried first, as they start like numbers.
      if startsNumber c then ((moment? text).or (number? text)).map (.other, ·) else none
    | [] => none
where
  -- What follows the items of an array and its closing bracket.
  items (depth : Nat) : Nat → List Char → Option (List Char)
    | 0, _ => none
    | fuel + 1, text => do
      match ← skipLines? (text.length + 1) text with
      | ']' :: rest => some rest
      | rest =>
        let (_, rest) ← value depth fuel rest
        match ← skipLines? (rest.length + 1) rest with
        | ',' :: rest => items depth fuel rest
        | ']' :: rest => some rest
        | _ => none
  -- What follows the members of an inline table and its closing brace.
  members (depth : Nat) : Nat → Ledger → List Char → Option (List Char)
    | 0, _, _ => none
    | fuel + 1, ledger, text => do
      let (key, rest) ← boundedKey text
      match rest with
      | '=' :: rest =>
        let (setting, rest) ← value depth fuel (skipBlanks rest)
        let ledger ← ledger.addValue? [] key setting
        match skipBlanks rest with
        | ',' :: rest => members depth fuel ledger rest
        | '\x7d' :: rest => some rest
        | _ => none
      | _ => none

/-- **What has been read**: all definitions, and the table that is open. -/
structure Progress where
  ledger : Ledger
  table : List Part

/-- A line that holds a header or a key with its value, and what follows it. -/
def expression (progress : Progress) : Reader Progress
  | '[' :: '[' :: rest => do
    let (key, rest) ← boundedKey rest
    let rest ← endOfLine? (← Json.word? [']', ']'] rest)
    let (ledger, table) ← progress.ledger.openItem? key
    return (⟨ledger, table⟩, rest)
  | '[' :: rest => do
    let (key, rest) ← boundedKey rest
    let rest ← endOfLine? (← Json.word? [']'] rest)
    let (ledger, table) ← progress.ledger.openTable? key
    return (⟨ledger, table⟩, rest)
  | text => do
    let (key, rest) ← boundedKey text
    let (setting, rest) ←
      value maxDepth (2 * text.length + 2) (skipBlanks (← Json.word? ['='] rest))
    let rest ← endOfLine? rest
    return (⟨← progress.ledger.addValue? progress.table key setting, progress.table⟩, rest)

def lines : Nat → Progress → List Char → Option Ledger
  | 0, _, _ => none
  | fuel + 1, progress, text =>
    match skipBlanks text with
    | [] => some progress.ledger
    | rest =>
      -- An empty line, or a comment.
      match endOfLine? rest with
      | some rest => lines fuel progress rest
      | none => do
        let (progress, rest) ← expression progress rest
        lines fuel progress rest

/-- **A whole text.** A byte order mark may stand at its front. -/
def document? (text : List Char) : Option Setting :=
  let text := if text.head? = some '\ufeff' then text.drop 1 else text
  (lines (text.length + 1) ⟨.empty, []⟩ text).map fun ledger => .table ledger.members

/-- **The style that a TOML text describes.** -/
def style? (text : List Char) : Option MarkerStyle :=
  (document? text).bind MarkerStyle.ofSetting?

end MarkedRegions.Toml
