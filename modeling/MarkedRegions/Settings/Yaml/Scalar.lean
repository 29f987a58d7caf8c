import MarkedRegions.Settings.Json
import MarkedRegions.Settings.Yaml.Cursor

/-!
# Scalars of YAML

A scalar is written plainly, between quotes, or as a block of lines. Line breaks within the first
two, and within folded blocks, are folded: a single one reads as a space.

## Main definitions

* `Yaml.plain?`, `Yaml.quoted?`, `Yaml.block?`: the three ways to write a scalar
-/

namespace MarkedRegions.Yaml

open Json (hexNumber?)

/-! ## Plain scalars -/

/-- Characters that end a plain scalar within brackets or braces. -/
def isFlowMark (c : Char) : Bool :=
  c = ',' || c = '[' || c = ']' || c = '\x7b' || c = '\x7d'

/-- A word of a plain scalar. A colon before a space ends it; within brackets, commas and brackets
do so too, and a colon right before one of them is an error. -/
def word? (flow : Bool) : List Char → Option (List Char)
  | [] => some []
  | c :: rest =>
    if isBlank c || isBreak c then some []
    else if flow && c = ':' && rest.head?.any (fun d => isFlowMark d || d = '?') then none
    else if (c = ':' && isSpaceNext rest) || (flow && isFlowMark c) then some []
    else (word? flow rest).map (c :: ·)

/-- The words of a plain scalar after `text`, with what stands between them. Reading goes on over
lines that are indented far enough. -/
def plainWords? (flow : Bool) (minimum : Nat) :
    Nat → List Char → Blanks → Cursor → Option (List Char × Bool × Cursor)
  | 0, text, blanks, cursor => some (text, blanks.broken, cursor)
  | fuel + 1, text, blanks, cursor =>
    if cursor.atDocumentMark || cursor.startsWith '#' then
      some (text, blanks.broken, cursor)
    else do
      let word ← word? flow cursor.rest
      if word.isEmpty then
        return (text, blanks.broken, cursor)
      let text := text ++ blanks.text ++ word
      let cursor := cursor.skip word.length
      let (blanks, after) ← Blanks.read? minimum cursor.rest.length .none cursor
      -- Without a blank after the word, a mark has ended the scalar.
      if after.index = cursor.index then
        return (text, false, cursor)
      if !flow && after.column < minimum then
        return (text, blanks.broken, after)
      plainWords? flow minimum fuel text blanks after

/-- **A plain scalar**: its text, whether a line break followed it, and the place after it. -/
def plain? (flow : Bool) (minimum : Nat) (cursor : Cursor) :
    Option (List Char × Bool × Cursor) :=
  plainWords? flow minimum (cursor.rest.length + 1) [] .none cursor

/-! ## Quoted scalars -/

/-- The character that a short escape stands for. -/
def shortEscape? (c : Char) : Option Char :=
  match c with
  | '0' => some '\x00'
  | 'a' => some '\x07'
  | 'b' => some '\x08'
  | 't' | '\t' => some '\t'
  | 'n' => some '\n'
  | 'v' => some '\x0b'
  | 'f' => some '\x0c'
  | 'r' => some '\r'
  | 'e' => some '\x1b'
  | ' ' => some ' '
  | '"' => some '"'
  | '/' => some '/'
  | '\\' => some '\\'
  | 'N' => some '\u0085'
  | '_' => some '\u00a0'
  | 'L' => some '\u2028'
  | 'P' => some '\u2029'
  | _ => none

/-- How many digits an escape by number has. -/
def escapeWidth? (c : Char) : Option Nat :=
  match c with
  | 'x' => some 2
  | 'u' => some 4
  | 'U' => some 8
  | _ => none

/-- The character of an escape, after the backslash, and how many characters write it. -/
def escape? : List Char → Option (Char × Nat)
  | [] => none
  | c :: rest =>
    match shortEscape? c with
    | some c => some (c, 1)
    | none => do
      let width ← escapeWidth? c
      let digits := rest.take width
      if digits.length < width then none
      let code ← hexNumber? digits
      -- Surrogates are no characters.
      if (0xd800 ≤ code ∧ code < 0xe000) ∨ 0x110000 ≤ code then none
      return (Char.ofNat code, width + 1)

/-- A word of a quoted scalar, up to the closing quote, a blank or a line break: the word, whether
an escaped line break ended it, and the place after it. -/
def quotedWord? (double : Bool) : Nat → List Char → Cursor → Option (List Char × Bool × Cursor)
  | 0, _, _ => none
  | fuel + 1, text, cursor =>
    match cursor.rest with
    | [] => some (text, false, cursor)
    | c :: rest =>
      if isBlank c || isBreak c then some (text, false, cursor)
      else if !double && c = '\'' then
        if rest.head? = some '\'' then quotedWord? double fuel (text ++ ['\'']) (cursor.skip 2)
        else some (text, false, cursor)
      else if double && c = '"' then some (text, false, cursor)
      else if double && c = '\\' then
        -- A line break that is escaped reads as nothing.
        if rest.head?.any isBreak then some (text, true, cursor.skip.skipBreak)
        else do
          let (escaped, width) ← escape? rest
          quotedWord? double fuel (text ++ [escaped]) (cursor.skip (width + 1))
      else quotedWord? double fuel (text ++ [c]) cursor.skip

/-- The words of a quoted scalar after `text`, up to its closing quote. -/
def quotedWords? (double : Bool) : Nat → List Char → Cursor → Option (List Char × Cursor)
  | 0, _, _ => none
  | fuel + 1, text, cursor =>
    if cursor.atDocumentMark || cursor.rest.isEmpty then none
    else do
      let (text, escaped, cursor) ← quotedWord? double (cursor.rest.length + 1) text cursor
      if cursor.startsWith (if double then '"' else '\'') then
        return (text, cursor.skip)
      let (blanks, cursor) ←
        Blanks.read? 0 cursor.rest.length { Blanks.none with broken := escaped } cursor
      quotedWords? double fuel (text ++ blanks.text) cursor

/-- **A quoted scalar**, from its opening quote on. -/
def quoted? (double : Bool) (cursor : Cursor) : Option (List Char × Cursor) :=
  quotedWords? double (cursor.rest.length + 1) [] cursor.skip

/-! ## Blocks of lines -/

/-- **What happens to the line breaks at the end of a block.** -/
inductive Chomping
  | strip
  | clip
  | keep

/-- The chomping that a sign asks for. -/
def chomping? (c : Char) : Option Chomping :=
  if c = '+' then some .keep else if c = '-' then some .strip else none

/-- The indentation that a digit asks for, unless there is another digit or none. -/
def indentDigit? (c : Char) : Option Nat :=
  if '1' ≤ c ∧ c ≤ '9' then some (c.toNat - 0x30) else none

/-- The head of a block, after its mark: a sign and a digit in any order. A zero is an error. -/
def blockHead? (cursor : Cursor) : Option (Chomping × Option Nat × Cursor) :=
  match cursor.rest with
  | c :: rest =>
    match chomping? c with
    | some chomping =>
      match rest with
      | d :: _ =>
        if d = '0' then none
        else match indentDigit? d with
          | some indent => some (chomping, some indent, cursor.skip 2)
          | none => some (chomping, none, cursor.skip)
      | [] => some (chomping, none, cursor.skip)
    | none =>
      if c = '0' then none
      else match indentDigit? c with
        | some indent =>
          match rest.head?.bind chomping? with
          | some chomping => some (chomping, some indent, cursor.skip 2)
          | none => some (.clip, some indent, cursor.skip)
        | none => some (.clip, none, cursor)
  | [] => some (.clip, none, cursor)

/-- The empty lines before a line of a block: their breaks, the deepest column reached, and the
place after the indentation. Without a known indentation any number of spaces is read. -/
def emptyLines? (indent : Option Nat) :
    Nat → List Char → Nat → Cursor → Option (List Char × Nat × Cursor)
  | 0, breaks, deepest, cursor => some (breaks, deepest, cursor)
  | fuel + 1, breaks, deepest, cursor =>
    let spaces := (cursor.rest.takeWhile (· = ' ')).length
    let cursor := cursor.skip
      (match indent with | some indent => min spaces (indent - cursor.column) | none => spaces)
    let deepest := max deepest cursor.column
    let shallow := match indent with | some indent => decide (cursor.column < indent) | none => true
    if shallow && cursor.startsWith '\t' then none
    else match cursor.break? with
      | some (c, cursor) => emptyLines? indent fuel (breaks ++ [c]) deepest cursor
      | none => some (breaks, deepest, cursor)

/-- **The lines of a block.** `first` is the break of the line before, `further` those of the empty
lines after it, and `indented` says whether the line before started with a blank: next to such
lines nothing is folded. -/
def blockLines? (literal : Bool) (indent : Nat) :
    Nat → List Char → List Char → List Char → Bool → Cursor →
      Option (List Char × List Char × List Char × Cursor)
  | 0, text, first, further, _, cursor => some (text, first, further, cursor)
  | fuel + 1, text, first, further, indented, cursor =>
    -- A line that starts further out is not one of the block.
    if cursor.column = indent && !cursor.rest.isEmpty then do
      let blank := cursor.next?.any isBlank
      let between :=
        if !literal && first = ['\n'] && !indented && !blank then Blanks.fold first further
        else first ++ further
      let line := cursor.rest.takeWhile (fun c => !isBreak c)
      let cursor := cursor.skip line.length
      let (first, cursor) := match cursor.break? with
        | some (c, cursor) => ([c], cursor)
        | none => ([], cursor)
      let (further, _, cursor) ← emptyLines? (some indent) (cursor.rest.length + 1) [] 0 cursor
      blockLines? literal indent fuel (text ++ between ++ line) first further blank cursor
    else
      some (text, first, further, cursor)

/-- **A block of lines**, from its mark on, within lines indented by `parent`. -/
def block? (literal : Bool) (parent : Int) (cursor : Cursor) : Option (List Char × Cursor) := do
  let (chomping, increment, cursor) ← blockHead? cursor.skip
  let cursor := cursor.skipWhile isBlank
  let cursor := if cursor.startsWith '#' then cursor.skipWhile (fun c => !isBreak c) else cursor
  if !cursor.rest.isEmpty && cursor.break?.isNone then none
  let cursor := cursor.skipBreak
  -- An indentation that is not given is that of the deepest line up to the first that holds anything.
  let known := increment.map fun increment => (max parent 0).toNat + increment
  let (breaks, deepest, cursor) ← emptyLines? known (cursor.rest.length + 1) [] 0 cursor
  let indent := known.getD (max (max deepest (parent + 1).toNat) 1)
  let (text, first, further, cursor) ←
    blockLines? literal indent (cursor.rest.length + 1) [] [] breaks false cursor
  let ending := match chomping with
    | .strip => []
    | .clip => first
    | .keep => first ++ further
  return (text ++ ending, cursor)

end MarkedRegions.Yaml
