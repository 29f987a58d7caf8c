import MarkedRegions.Settings.Document

/-!
# Reading JSON

A JSON text is a single value with blanks around it. Numbers and the three named values are checked
and forgotten. A string keeps its characters unless it escapes half of a surrogate pair, in which
case it has none; such a string is an error as a key or as a setting, and passes elsewhere.

## Main definitions

* `Json.string`: a quoted string
* `Json.value`: a value
* `Json.document?`: a whole text
-/

namespace MarkedRegions.Json

/-- The blanks between the parts of a document. -/
def isBlank (c : Char) : Bool :=
  c = ' ' || c = '\t' || c = '\n' || c = '\r'

def skipBlanks (text : List Char) : List Char :=
  text.dropWhile isBlank

/-! ## Strings -/

def hexValue? (c : Char) : Option Nat :=
  if '0' ≤ c ∧ c ≤ '9' then some (c.toNat - 0x30)
  else if 'a' ≤ c ∧ c ≤ 'f' then some (c.toNat - 0x57)
  else if 'A' ≤ c ∧ c ≤ 'F' then some (c.toNat - 0x37)
  else none

/-- The number that hexadecimal digits write. -/
def hexNumber? (digits : List Char) : Option Nat :=
  digits.foldl (fun n? c => do return (← n?) * 16 + (← hexValue? c)) (some 0)

/-- The character that a short escape stands for. -/
def shortEscape? (c : Char) : Option Char :=
  match c with
  | '"' => some '"'
  | '\\' => some '\\'
  | '/' => some '/'
  | 'b' => some '\x08'
  | 'f' => some '\x0c'
  | 'n' => some '\n'
  | 'r' => some '\r'
  | 't' => some '\t'
  | _ => none

/-- **A unit of a string**: a character, or a number written by its four digits. -/
inductive Item
  | char (c : Char)
  | escaped (code : Nat)

/-- The units of a string, after its opening quote. Control characters must be escaped. -/
def items : Reader (List Item)
  | [] => none
  | '"' :: rest => some ([], rest)
  | '\\' :: 'u' :: a :: b :: c :: d :: rest => do
    let code ← hexNumber? [a, b, c, d]
    let (items, rest) ← items rest
    return (.escaped code :: items, rest)
  | '\\' :: c :: rest => do
    let c ← shortEscape? c
    let (items, rest) ← items rest
    return (.char c :: items, rest)
  | c :: rest => do
    if c.toNat < 0x20 then none
    let (items, rest) ← items rest
    return (.char c :: items, rest)

/-- The characters of units: two numbers of a surrogate pair are one character, and half a pair is
none. -/
def chars? : List Item → Option (List Char)
  | [] => some []
  | .char c :: rest => (chars? rest).map (c :: ·)
  | .escaped high :: .escaped low :: rest =>
    if 0xd800 ≤ high ∧ high < 0xdc00 then
      if 0xdc00 ≤ low ∧ low < 0xe000 then
        (chars? rest).map (Char.ofNat (0x10000 + (high - 0xd800) * 0x400 + (low - 0xdc00)) :: ·)
      else none
    else if 0xdc00 ≤ high ∧ high < 0xe000 then none
    else (chars? (.escaped low :: rest)).map (Char.ofNat high :: ·)
  | .escaped code :: rest =>
    if 0xd800 ≤ code ∧ code < 0xe000 then none
    else (chars? rest).map (Char.ofNat code :: ·)

/-- **A quoted string**: its characters, if it has them. -/
def string : Reader (Option (List Char))
  | '"' :: rest => do
    let (items, rest) ← items rest
    return (chars? items, rest)
  | _ => none

/-! ## Numbers and names -/

def isDigit (c : Char) : Bool :=
  '0' ≤ c && c ≤ '9'

/-- What follows at least one digit. -/
def digits? (text : List Char) : Option (List Char) :=
  match text with
  | c :: rest => if isDigit c then some (rest.dropWhile isDigit) else none
  | [] => none

/-- What follows the exponent of a number, if one is written. -/
def exponent? : List Char → Option (List Char)
  | 'e' :: rest | 'E' :: rest =>
    match rest with
    | '+' :: rest | '-' :: rest => digits? rest
    | rest => digits? rest
  | rest => some rest

/-- What follows the fraction and the exponent of a number, as far as they are written. -/
def fraction? : List Char → Option (List Char)
  | '.' :: rest => (digits? rest).bind exponent?
  | rest => exponent? rest

/-- What follows a number without its sign. A zero stands alone before the fraction. -/
def magnitude? : List Char → Option (List Char)
  | '0' :: c :: rest => if isDigit c then none else fraction? (c :: rest)
  | rest => (digits? rest).bind fraction?

/-- What follows a number. -/
def number? : List Char → Option (List Char)
  | '-' :: rest => magnitude? rest
  | rest => magnitude? rest

/-- What follows a word. -/
def word? (word text : List Char) : Option (List Char) :=
  if word.isPrefixOf text then some (text.drop word.length) else none

/-! ## Values -/

/-- **A value**, its items and its members. The fuel bounds their number and depth. -/
def value : Nat → Reader Setting
  | 0, _ => none
  | fuel + 1, text =>
    match text with
    | '"' :: _ => (string text).map fun (chars?, rest) => (chars?.elim .other .text, rest)
    | '[' :: rest =>
      match skipBlanks rest with
      | ']' :: rest => some (.list [], rest)
      | rest => (itemsFrom fuel rest).map fun (items, rest) => (.list items, rest)
    | '\x7b' :: rest =>
      match skipBlanks rest with
      | '\x7d' :: rest => some (.table [], rest)
      | rest => (membersFrom fuel rest).map fun (members, rest) => (.table members, rest)
    | 'n' :: _ => (word? "null".toList text).map (.other, ·)
    | 't' :: _ => (word? "true".toList text).map (.other, ·)
    | 'f' :: _ => (word? "false".toList text).map (.other, ·)
    | _ => (number? text).map (.other, ·)
where
  -- At least one item, up to the closing bracket.
  itemsFrom : Nat → Reader (List Setting)
    | 0, _ => none
    | fuel + 1, text => do
      let (item, rest) ← value fuel (skipBlanks text)
      match skipBlanks rest with
      | ',' :: rest =>
        let (items, rest) ← itemsFrom fuel rest
        return (item :: items, rest)
      | ']' :: rest => return ([item], rest)
      | _ => none
  -- At least one member, up to the closing brace.
  membersFrom : Nat → Reader (List (Option (List Char) × Setting))
    | 0, _ => none
    | fuel + 1, text => do
      let (key, rest) ← string (skipBlanks text)
      match skipBlanks rest with
      | ':' :: rest =>
        let (item, rest) ← value fuel (skipBlanks rest)
        match skipBlanks rest with
        | ',' :: rest =>
          let (members, rest) ← membersFrom fuel rest
          return ((key, item) :: members, rest)
        | '\x7d' :: rest => return ([(key, item)], rest)
        | _ => none
      | _ => none

/-- **A whole text**: one value, and blanks around it. -/
def document? (text : List Char) : Option Setting := do
  let (setting, rest) ← value (2 * text.length + 2) (skipBlanks text)
  if (skipBlanks rest).isEmpty then some setting else none

/-- **The style that a JSON text describes.** A list stands for a table: its items are the settings
in their order. -/
def style? (text : List Char) : Option MarkerStyle := do
  match ← document? text with
  | .list items => MarkerStyle.ofList? items
  | setting => MarkerStyle.ofSetting? setting

end MarkedRegions.Json
