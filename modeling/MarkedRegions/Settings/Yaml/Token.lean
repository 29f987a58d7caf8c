import MarkedRegions.Settings.Yaml.Scalar

/-!
# Tokens of YAML

A YAML text is cut into tokens. Most of them are marks; some stand for what indentation says:
where a collection of lines starts and where it ends. Whether something is a key is known only when
the colon after it is met, so places where a key may have started are remembered, and the mark of
the key is put in front of them afterwards.

## Main definitions

* `Yaml.Token`: the tokens
* `Yaml.Lexer`: what is remembered while a text is cut
* `Yaml.tokens?`: the tokens of a text
-/

namespace MarkedRegions.Yaml

/-- **The tokens of a text.** -/
inductive Token
  | version (major minor : Nat)
  | handle (name : List Char)
  | documentStart
  | documentEnd
  | streamEnd
  | blockSequence
  | blockMapping
  | blockEnd
  | flowSequence
  | flowSequenceEnd
  | flowMapping
  | flowMappingEnd
  | entry
  | comma
  | key
  | value
  | alias (name : List Char)
  | anchor (name : List Char)
  | tag (handle : List Char)
  | scalar (text : List Char) (plain : Bool)
deriving DecidableEq, Repr

/-- **A place where a key may have started.** -/
structure KeyPlace where
  -- Whether a key must have started here: nothing else could stand at this column.
  required : Bool
  before : Nat
  index : Nat
  line : Nat
  column : Nat

/-- **What is remembered while a text is cut.** -/
structure Lexer where
  cursor : Cursor
  tokens : Array Token
  -- The column of the innermost collection of lines, or -1.
  indent : Int
  -- The columns around it.
  outer : List Int
  -- For every open bracket, the innermost first, and for the text itself: where a key may have
  -- started.
  places : List (Option KeyPlace)
  -- Whether a key may start here.
  keyAllowed : Bool

namespace Lexer

def start (text : List Char) : Lexer :=
  ⟨.start text, #[], -1, [], [none], true⟩

/-- Whether a bracket is open. -/
def inFlow (lexer : Lexer) : Bool :=
  1 < lexer.places.length

def push (lexer : Lexer) (token : Token) : Lexer :=
  { lexer with tokens := lexer.tokens.push token }

/-- Puts a token before some of those taken in. -/
def insert (lexer : Lexer) (position : Nat) (token : Token) : Lexer :=
  { lexer with
    tokens := lexer.tokens.extract 0 position ++ #[token]
      ++ lexer.tokens.extract position lexer.tokens.size }

def moveTo (lexer : Lexer) (cursor : Cursor) : Lexer :=
  { lexer with cursor }

/-- Takes in a token and passes over its characters. -/
def pushMark (lexer : Lexer) (token : Token) (width : Nat := 1) : Lexer :=
  (lexer.push token).moveTo (lexer.cursor.skip width)

def allowKey (lexer : Lexer) (keyAllowed : Bool) : Lexer :=
  { lexer with keyAllowed }

/-! ## Places of keys -/

def setPlace (lexer : Lexer) (place : Option KeyPlace) : Lexer :=
  { lexer with places := place :: lexer.places.drop 1 }

/-- **Gives up the innermost place**, unless a key must have started there. -/
def forgetPlace? (lexer : Lexer) : Option Lexer :=
  match lexer.places.head?.join with
  | some place => if place.required then none else some (lexer.setPlace none)
  | none => some lexer

/-- Remembers that a key may start here. -/
def markPlace? (lexer : Lexer) : Option Lexer :=
  if lexer.keyAllowed then do
    let cursor := lexer.cursor
    -- At the column of the innermost collection a line can only be a member or an entry of it.
    let required := !lexer.inFlow && lexer.indent = cursor.column
    let lexer ← lexer.forgetPlace?
    return lexer.setPlace (some
      ⟨required, lexer.tokens.size, cursor.index, cursor.line, cursor.column⟩)
  else
    some lexer

/-- **Gives up places that are too far back**: a key stands on one line, and within a thousand
characters or so of its colon. -/
def forgetStale? (lexer : Lexer) : Option Lexer := do
  let cursor := lexer.cursor
  let places ← lexer.places.mapM fun place =>
    match place with
    | some place =>
      if place.line < cursor.line ∨ place.index + 1024 < cursor.index then
        if place.required then none else some none
      else some (some place)
    | none => some none
  return { lexer with places }

/-! ## Indentation -/

/-- **Opens a collection of lines** at a column further in, with its token at the given position. -/
def openBlock (lexer : Lexer) (column : Nat) (position : Nat) (token : Token) : Lexer :=
  if !lexer.inFlow && lexer.indent < column then
    { lexer.insert position token with
      indent := column
      outer := lexer.indent :: lexer.outer }
  else
    lexer

/-- **Closes the collections of lines** that are further in than a column. -/
def closeBlocks (lexer : Lexer) (column : Int) : Lexer :=
  if lexer.inFlow then lexer
  else go lexer.outer { lexer with outer := [] }
where
  go : List Int → Lexer → Lexer
    | [], lexer => lexer
    | outer :: more, lexer =>
      if column < lexer.indent then go more { lexer.push .blockEnd with indent := outer }
      else { lexer with outer := outer :: more }

/-! ## Spaces between tokens -/

/-- Passes over blanks, comments and line breaks. Outside of brackets a key may start on a new line,
and a tab may not stand where a key may start. -/
def skipSpaces : Nat → Lexer → Lexer
  | 0, lexer => lexer
  | fuel + 1, lexer =>
    -- Where a key may start its column counts, so no tab may stand before it.
    let tabs := lexer.inFlow || !lexer.keyAllowed
    let cursor := lexer.cursor
    let cursor := cursor.skipWhile (fun c => c = ' ' || (tabs && c = '\t'))
    let cursor := if cursor.startsWith '#' then cursor.skipWhile (fun c => !isBreak c) else cursor
    match cursor.break? with
    | some (_, cursor) =>
      skipSpaces fuel ((lexer.moveTo cursor).allowKey (lexer.keyAllowed || !lexer.inFlow))
    | none => lexer.moveTo cursor

/-! ## Names, tags and directives -/

/-- Characters of names. -/
def isNameChar (c : Char) : Bool :=
  c.isAlphanum || c = '_' || c = '-'

/-- The name after the mark of an anchor or alias. -/
def name? (cursor : Cursor) : Option (List Char × Cursor) :=
  let name := cursor.rest.takeWhile isNameChar
  let after := cursor.skip name.length
  let ends := isSpaceNext after.rest
    || after.next?.any (fun c => ['?', ':', ',', ']', '\x7d', '%', '@', '\x60'].contains c)
  if name.isEmpty || !ends then none else some (name, after)

/-- Characters of tags. Commas and brackets may stand only between angle brackets. -/
def isTagChar (verbatim : Bool) (c : Char) : Bool :=
  isNameChar c || [';', '/', '?', ':', '@', '&', '=', '+', '$', '.', '!', '~', '*', '\'', '(', ')',
    '%'].contains c || (verbatim && [',', '[', ']'].contains c)

/-- Whether every per cent sign starts an escape: two hexadecimal digits follow it. -/
def escapesHold : List Char → Bool
  | '%' :: rest =>
    match rest with
    | a :: b :: rest => (Json.hexValue? a).isSome && (Json.hexValue? b).isSome && escapesHold rest
    | _ => false
  | _ :: rest => escapesHold rest
  | [] => true

/-- The characters of a tag, of which there must be some unless some have been read before. -/
def tagChars? (verbatim mayBeEmpty : Bool) (cursor : Cursor) : Option Cursor :=
  let chars := cursor.rest.takeWhile (isTagChar verbatim)
  if (chars.isEmpty && !mayBeEmpty) || !escapesHold chars then none
  else some (cursor.skip chars.length)

/-- The handle of a tag and the place after the tag, from its mark on. Without a handle of its own a
tag has the short one, and a tag between angle brackets, or the mark alone, has none. -/
def tagHead? (cursor : Cursor) : Option (List Char × Cursor) :=
  match cursor.rest with
  | '!' :: '<' :: _ => do
    -- A tag written out, between angle brackets.
    let after ← tagChars? true false (cursor.skip 2)
    if !after.startsWith '>' then none
    return ([], after.skip)
  | '!' :: rest =>
    let name := rest.takeWhile isNameChar
    let after := cursor.skip (name.length + 1)
    if after.startsWith '!' then
      -- A handle with a name of its own, which a directive must have announced.
      (tagChars? false false after.skip).map fun after => ('!' :: (name ++ ['!']), after)
    else
      (tagChars? false true after).map fun stop =>
        (if name.isEmpty && stop.index = after.index then [] else ['!'], stop)
  | _ => none

/-- A tag: its handle, and the place after it. -/
def tag? (flow : Bool) (cursor : Cursor) : Option (List Char × Cursor) := do
  let (handle, after) ← tagHead? cursor
  if !isSpaceNext after.rest && !(flow && after.startsWith ',') then none
  return (handle, after)

/-- A number of at most nine digits. -/
def versionNumber? (cursor : Cursor) : Option (Nat × Cursor) :=
  let digits := cursor.rest.takeWhile Char.isDigit
  if digits.isEmpty || 9 < digits.length then none
  else some (digits.foldl (fun n c => n * 10 + (c.toNat - 0x30)) 0, cursor.skip digits.length)

/-- A directive after its mark: its token, and the place after it. -/
def directiveBody? (cursor : Cursor) : Option (Token × Cursor) :=
  let name := cursor.rest.takeWhile isNameChar
  let after := cursor.skip name.length
  if !isSpaceNext after.rest then none
  else if name = "YAML".toList then do
    let (major, after) ← versionNumber? (after.skipWhile isBlank)
    if !after.startsWith '.' then none
    let (minor, after) ← versionNumber? after.skip
    return (.version major minor, after)
  else if name = "TAG".toList then do
    let start := after.skipWhile isBlank
    match start.rest with
    | '!' :: rest =>
      let name := rest.takeWhile isNameChar
      let after := start.skip (name.length + 1)
      -- Only the short handle does without a second mark.
      let closed := after.startsWith '!'
      if !closed && !name.isEmpty then none
      let after := if closed then after.skip else after
      if !after.next?.any isBlank then none
      let after ← tagChars? true false (after.skipWhile isBlank)
      if !isSpaceNext after.rest then none
      return (.handle ('!' :: name ++ (if closed then ['!'] else [])), after)
    | _ => none
  else none

/-- A directive: its token, and the place at the end of its line. -/
def directive? (cursor : Cursor) : Option (Token × Cursor) := do
  let (token, after) ← directiveBody? cursor.skip
  let after := after.skipWhile isBlank
  let after := if after.startsWith '#' then after.skipWhile (fun c => !isBreak c) else after
  if after.rest.isEmpty || after.break?.isSome then some (token, after.skipBreak) else none

/-! ## Tokens -/

/-- Something of which the document or a collection consists, and which is no key itself. -/
def closeAll? (lexer : Lexer) : Option Lexer :=
  ((lexer.closeBlocks (-1)).forgetPlace?).map (·.allowKey false)

/-- The mark of an entry. -/
def item? (lexer : Lexer) : Option Lexer := do
  if !lexer.inFlow && !lexer.keyAllowed then none
  let lexer := lexer.openBlock lexer.cursor.column lexer.tokens.size .blockSequence
  let lexer ← lexer.forgetPlace?
  return (lexer.allowKey true).pushMark .entry

def key? (lexer : Lexer) : Option Lexer := do
  if !lexer.inFlow && !lexer.keyAllowed then none
  let lexer := lexer.openBlock lexer.cursor.column lexer.tokens.size .blockMapping
  let lexer ← lexer.forgetPlace?
  return (lexer.allowKey (!lexer.inFlow)).pushMark .key

/-- **The mark of a value**: what started at the remembered place was a key. -/
def value? (lexer : Lexer) : Option Lexer :=
  match lexer.places.head?.join with
  | some place =>
    -- The mark of the mapping, if this is its first key, goes in front of the mark of the key.
    let lexer := (lexer.setPlace none).insert place.before .key
    let lexer := lexer.openBlock place.column place.before .blockMapping
    some ((lexer.allowKey false).pushMark .value)
  | none =>
    -- A value without a key before it.
    if !lexer.inFlow && !lexer.keyAllowed then none
    else
      let lexer := lexer.openBlock lexer.cursor.column lexer.tokens.size .blockMapping
      some ((lexer.allowKey (!lexer.inFlow)).pushMark .value)

def openFlow? (lexer : Lexer) (token : Token) : Option Lexer := do
  let lexer ← lexer.markPlace?
  return (({ lexer with places := none :: lexer.places }).allowKey true).pushMark token

def closeFlow? (lexer : Lexer) (token : Token) : Option Lexer := do
  let lexer ← lexer.forgetPlace?
  -- A bracket too many is left to the grammar.
  let places := if lexer.inFlow then lexer.places.drop 1 else lexer.places
  return (({ lexer with places }).allowKey false).pushMark token

/-- An anchor or alias. -/
def named? (lexer : Lexer) (token : List Char → Token) : Option Lexer := do
  let lexer ← lexer.markPlace?
  let (name, cursor) ← name? lexer.cursor.skip
  return ((lexer.allowKey false).push (token name)).moveTo cursor

/-- A scalar that may be a key. -/
def scalar? (lexer : Lexer) (read : Cursor → Option (List Char × Bool × Cursor)) (plain : Bool) :
    Option Lexer := do
  let lexer ← lexer.markPlace?
  let (text, broken, cursor) ← read lexer.cursor
  return ((lexer.allowKey broken).push (.scalar text plain)).moveTo cursor

/-- A block of lines. -/
def blockScalar? (lexer : Lexer) (literal : Bool) : Option Lexer := do
  let lexer ← lexer.forgetPlace?
  let (text, cursor) ← block? literal lexer.indent lexer.cursor
  return ((lexer.allowKey true).push (.scalar text false)).moveTo cursor

/-- Characters that no plain scalar starts with, or only before a character that is no space. -/
def isIndicator (c : Char) : Bool :=
  ['-', '?', ':', ',', '[', ']', '\x7b', '\x7d', '#', '&', '*', '!', '|', '>', '\'', '"', '%', '@',
    '\x60'].contains c

/-- Whether a plain scalar starts with a character before some text. -/
def startsPlain (flow : Bool) (c : Char) (rest : List Char) : Bool :=
  !(isBlank c || isBreak c || isIndicator c)
    || (c = '-' && !rest.head?.any isBlank)
    || (!flow && (c = '?' || c = ':') && !isSpaceNext rest)

/-- **The next token** that starts with a character at the present place. -/
def token? (lexer : Lexer) (c : Char) (rest : List Char) : Option Lexer :=
  let cursor := lexer.cursor
  let flow := lexer.inFlow
  -- Directives and document marks stand at the start of a line, even within brackets.
  if cursor.column = 0 && c = '%' then do
    let (token, cursor) ← directive? cursor
    return ((← lexer.closeAll?).push token).moveTo cursor
  else if cursor.atDocumentMark then
    lexer.closeAll?.map (·.pushMark (if c = '-' then .documentStart else .documentEnd) 3)
  else if c = '[' then lexer.openFlow? .flowSequence
  else if c = '\x7b' then lexer.openFlow? .flowMapping
  else if c = ']' then lexer.closeFlow? .flowSequenceEnd
  else if c = '\x7d' then lexer.closeFlow? .flowMappingEnd
  else if c = ',' then lexer.forgetPlace?.map fun lexer => (lexer.allowKey true).pushMark .comma
  else if c = '-' && isSpaceNext rest then lexer.item?
  else if c = '?' && (flow || isSpaceNext rest) then lexer.key?
  else if c = ':' && (flow || isSpaceNext rest) then lexer.value?
  else if c = '*' then lexer.named? .alias
  else if c = '&' then lexer.named? .anchor
  else if c = '!' then do
    let lexer ← lexer.markPlace?
    let (handle, cursor) ← tag? flow lexer.cursor
    return ((lexer.allowKey false).push (.tag handle)).moveTo cursor
  else if c = '|' && !flow then lexer.blockScalar? true
  else if c = '>' && !flow then lexer.blockScalar? false
  else if c = '\'' || c = '"' then
    lexer.scalar? (fun cursor => (quoted? (c = '"') cursor).map fun (text, after) =>
      (text, false, after)) false
  else if startsPlain flow c rest then
    lexer.scalar? (plain? flow (lexer.indent + 1).toNat) true
  else none

/-- **All tokens from here on.** -/
def all? : Nat → Lexer → Option (Array Token)
  | 0, _ => none
  | fuel + 1, lexer => do
    let lexer := skipSpaces (lexer.cursor.rest.length + 1) lexer
    -- Only now it is known on which line and at which column the next token stands.
    let lexer ← lexer.forgetStale?
    let lexer := lexer.closeBlocks lexer.cursor.column
    match lexer.cursor.rest with
    | [] =>
      let lexer ← lexer.closeAll?
      return (lexer.push .streamEnd).tokens
    | c :: rest => all? fuel (← lexer.token? c rest)

end Lexer

/-- **The tokens of a text.** -/
def tokens? (text : List Char) : Option (List Token) :=
  let text := if text.head? = some '\ufeff' then text.drop 1 else text
  if text.all isAllowed then
    (Lexer.all? (text.length + 1) (.start text)).map Array.toList
  else
    none

end MarkedRegions.Yaml
