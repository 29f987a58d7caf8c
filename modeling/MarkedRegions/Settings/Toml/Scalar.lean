import MarkedRegions.Settings.Json

/-!
# Scalars of TOML

Keys and values that hold no other values: strings in their four quotations, booleans, whole
numbers, fractions, and dates and times. Of a string the characters are kept. Of the others it is
only checked that they are written as they must be and lie within their ranges.

## Main definitions

* `Toml.string`, `Toml.key`: strings and keys
* `Toml.number?`, `Toml.moment?`: what follows a number, or a date or time
-/

namespace MarkedRegions.Toml

open Json (isDigit hexValue? hexNumber? word?)

/-- The blanks within a line. -/
def isBlank (c : Char) : Bool :=
  c = ' ' || c = '\t'

def skipBlanks (text : List Char) : List Char :=
  text.dropWhile isBlank

/-- What follows the end of a line. -/
def newline? : List Char → Option (List Char)
  | '\n' :: rest => some rest
  | '\r' :: '\n' :: rest => some rest
  | _ => none

/-- Characters that may stand as they are where a line must not end: no control characters but the
tab. -/
def isPlain (c : Char) : Bool :=
  c = '\t' || (0x20 ≤ c.toNat && c.toNat ≠ 0x7f)

/-! ## Strings -/

/-- The character of a given number, unless there is none. -/
def scalar? (code : Nat) : Option Char :=
  if code < 0xd800 ∨ (0xe000 ≤ code ∧ code < 0x110000) then some (Char.ofNat code) else none

/-- The character that a short escape stands for. -/
def shortEscape? (c : Char) : Option Char :=
  match c with
  | '"' => some '"'
  | '\\' => some '\\'
  | 'b' => some '\x08'
  | 'f' => some '\x0c'
  | 'n' => some '\n'
  | 'r' => some '\r'
  | 't' => some '\t'
  | _ => none

/-- The character that an escape stands for, after the backslash. -/
def escape : Reader Char
  | 'u' :: a :: b :: c :: d :: rest => do
    return (← scalar? (← hexNumber? [a, b, c, d]), rest)
  | 'U' :: a :: b :: c :: d :: e :: f :: g :: h :: rest => do
    return (← scalar? (← hexNumber? [a, b, c, d, e, f, g, h]), rest)
  | c :: rest => (shortEscape? c).map (·, rest)
  | [] => none

/-- The rest of a string with escapes that ends on its line. -/
def basicRest : Nat → Reader (List Char)
  | 0, _ => none
  | fuel + 1, text =>
    match text with
    | '"' :: rest => some ([], rest)
    | '\\' :: rest => do
      let (c, rest) ← escape rest
      let (chars, rest) ← basicRest fuel rest
      return (c :: chars, rest)
    | c :: rest => do
      if !isPlain c then none
      let (chars, rest) ← basicRest fuel rest
      return (c :: chars, rest)
    | [] => none

/-- The rest of a string without escapes that ends on its line. -/
def literalRest (text : List Char) : Option (List Char × List Char) :=
  let inside := fun c => isPlain c && c ≠ '\''
  match text.dropWhile inside with
  | '\'' :: rest => some (text.takeWhile inside, rest)
  | _ => none

/-- What follows a backslash at the end of a line: the next character that is neither a blank nor
the end of a line. -/
def joinLines? (text : List Char) : Option (List Char) := do
  let rest ← newline? (skipBlanks text)
  skipLines rest
where
  -- Skips blanks and ends of lines. A carriage return must belong to the end of a line.
  skipLines : List Char → Option (List Char)
    | '\r' :: '\n' :: rest => skipLines rest
    | '\r' :: _ => none
    | c :: rest => if isBlank c || c = '\n' then skipLines rest else some (c :: rest)
    | [] => some []

/-- The quotes that stand before the text, and the text after them. -/
def quotes (quote : Char) (text : List Char) : Nat × List Char :=
  ((text.takeWhile (· = quote)).length, text.dropWhile (· = quote))

/-- The rest of a string that may go on over several lines. Three quotes end it; one or two quotes
may stand anywhere, also before the three that end it. -/
def longRest (quote : Char) (escapes : Bool) : Nat → Reader (List Char)
  | 0, _ => none
  | fuel + 1, text =>
    match text with
    | [] => none
    | c :: rest =>
      if c = quote then
        let (count, after) := quotes quote (c :: rest)
        -- Of up to five quotes the last three end the string; a sixth stands outside of it.
        if count < 3 then do
          let (chars, rest) ← longRest quote escapes fuel after
          return (List.replicate count quote ++ chars, rest)
        else if count ≤ 5 then
          some (List.replicate (count - 3) quote, after)
        else
          some ([quote, quote], List.replicate (count - 5) quote ++ after)
      else if escapes && c = '\\' then
        match joinLines? rest with
        | some rest => longRest quote escapes fuel rest
        | none => do
          let (c, rest) ← escape rest
          let (chars, rest) ← longRest quote escapes fuel rest
          return (c :: chars, rest)
      else
        match newline? (c :: rest) with
        | some rest => do
          let (chars, rest) ← longRest quote escapes fuel rest
          return ('\n' :: chars, rest)
        | none => do
          if !isPlain c then none
          let (chars, rest) ← longRest quote escapes fuel rest
          return (c :: chars, rest)

/-- A string over several lines, after its opening quotes: an end of line right there does not
count. -/
def long (quote : Char) (escapes : Bool) (text : List Char) : Option (List Char × List Char) :=
  let body := (newline? text).getD text
  longRest quote escapes (body.length + 1) body

/-- **A string** in any of its quotations. -/
def string : Reader (List Char)
  | '"' :: '"' :: '"' :: rest => long '"' true rest
  | '\'' :: '\'' :: '\'' :: rest => long '\'' false rest
  | '"' :: rest => basicRest (rest.length + 1) rest
  | '\'' :: rest => literalRest rest
  | _ => none

/-! ## Keys -/

/-- Characters of a key without quotes. -/
def isBare (c : Char) : Bool :=
  c.isAlphanum || c = '_' || c = '-'

/-- One part of a key. -/
def simpleKey : Reader (List Char)
  | '"' :: rest => basicRest (rest.length + 1) rest
  | '\'' :: rest => literalRest rest
  | text =>
    let bare := text.takeWhile isBare
    if bare.isEmpty then none else some (bare, text.dropWhile isBare)

/-- **A key**: parts with dots between them, and blanks around each part. -/
def key : Reader (List (List Char)) := fun text => parts (text.length + 1) text
where
  parts : Nat → Reader (List (List Char))
    | 0, _ => none
    | fuel + 1, text => do
      let (part, rest) ← simpleKey (skipBlanks text)
      match skipBlanks rest with
      | '.' :: rest =>
        let (more, rest) ← parts fuel rest
        return (part :: more, rest)
      | rest => return ([part], rest)

/-! ## Numbers -/

/-- **Digits with single underscores between them**: the digits, and what follows. -/
def digits (isDigit : Char → Bool) (text : List Char) : Option (List Char × List Char) :=
  match text with
  | c :: rest => if isDigit c then some (go c rest) else none
  | [] => none
where
  go (c : Char) : List Char → List Char × List Char
    | '_' :: d :: rest =>
      if isDigit d then let (ds, rest) := go d rest; (c :: ds, rest) else ([c], '_' :: d :: rest)
    | d :: rest =>
      if isDigit d then let (ds, rest) := go d rest; (c :: ds, rest) else ([c], d :: rest)
    | [] => ([c], [])

/-- The number that digits write in a base. -/
def number (base : Nat) (digits : List Char) : Nat :=
  digits.foldl (fun n c => n * base + (hexValue? c).getD 0) 0

/-- Digits of a base below ten, or of base sixteen. -/
def isDigitOf (base : Nat) (c : Char) : Bool :=
  (hexValue? c).any (· < base)

/-- Whole numbers lie below this limit, and on the negative side they may reach it. -/
def integerLimit : Nat := 0x8000000000000000

/-- What follows a whole number in a base other than ten. It fits into 63 bits. -/
def based? (base : Nat) (text : List Char) : Option (List Char) := do
  let (ds, rest) ← digits (isDigitOf base) text
  if number base ds < integerLimit then some rest else none

def sign : List Char → Bool × List Char
  | '-' :: rest => (true, rest)
  | '+' :: rest => (false, rest)
  | text => (false, text)

/-- The fraction and the exponent of a number: their digits, and the exponent's value. -/
def tail (text : List Char) : Option ((Bool × List Char × Int) × List Char) := do
  let (fraction, rest) ← match text with
    | '.' :: rest => digits isDigit rest
    | _ => some ([], text)
  match rest with
  | 'e' :: rest | 'E' :: rest =>
    let (negative, rest) := sign rest
    let (ds, rest) ← digits isDigit rest
    let value : Int := number 10 ds
    return ((true, fraction, if negative then -value else value), rest)
  | rest => return ((!fraction.isEmpty, fraction, 0), rest)

/-- Whether `digits · 10 ^ exponent` is too large for a double: it would round to infinity. -/
def overflows (digits : Nat) (exponent : Int) : Bool :=
  -- Between these bounds the numbers are compared exactly, with the least that rounds to infinity.
  let size : Int := (toString digits).length + exponent
  if digits = 0 || size < 300 then false
  else if size > 320 then true
  else
    let limit := Nat.pow 2 1024 - Nat.pow 2 970
    if exponent < 0 then limit * Nat.pow 10 (-exponent).toNat ≤ digits
    else limit ≤ digits * Nat.pow 10 exponent.toNat

/-- What follows a number in base ten. Whole numbers fit into 64 bits with their sign, fractions
are not too large, and a zero at the front stands alone. -/
def decimal? (text : List Char) : Option (List Char) := do
  let (negative, rest) := sign text
  let (ds, rest) ← digits isDigit rest
  if ds.length > 1 ∧ ds.head? = some '0' then none
  let ((isFraction, fraction, exponent), rest) ← tail rest
  if isFraction then
    -- Only the upper end is checked.
    if !negative && overflows (number 10 (ds ++ fraction)) (exponent - fraction.length) then none
    else some rest
  else if number 10 ds < integerLimit + (if negative then 1 else 0) then some rest
  else none

/-- What follows an infinity or what is not a number. -/
def special? (text : List Char) : Option (List Char) :=
  let rest := (sign text).2
  (word? "inf".toList rest).or (word? "nan".toList rest)

/-- **What follows a number.** -/
def number? : List Char → Option (List Char)
  | '0' :: 'x' :: rest => based? 16 rest
  | '0' :: 'o' :: rest => based? 8 rest
  | '0' :: 'b' :: rest => based? 2 rest
  | text => (decimal? text).or (special? text)

/-! ## Dates and times -/

/-- A number of exactly so many digits within a range, and what follows. -/
def field (width low high : Nat) (text : List Char) : Option (Nat × List Char) :=
  let ds := text.take width
  let value := number 10 ds
  if ds.length = width ∧ ds.all isDigit ∧ low ≤ value ∧ value ≤ high then
    some (value, text.drop width)
  else none

/-- How many days a month has. -/
def daysOf (year month : Nat) : Nat :=
  if month = 2 then
    if year % 4 = 0 ∧ (year % 100 ≠ 0 ∨ year % 400 = 0) then 29 else 28
  else if month = 4 ∨ month = 6 ∨ month = 9 ∨ month = 11 then 30
  else 31

def date? (text : List Char) : Option (List Char) := do
  let (year, rest) ← field 4 0 9999 text
  let (month, rest) ← field 2 1 12 (← word? ['-'] rest)
  let (_, rest) ← field 2 1 (daysOf year month) (← word? ['-'] rest)
  return rest

def time? (text : List Char) : Option (List Char) := do
  let (_, rest) ← field 2 0 23 text
  let (_, rest) ← field 2 0 59 (← word? [':'] rest)
  let (_, rest) ← field 2 0 60 (← word? [':'] rest)
  match rest with
  | '.' :: rest => Json.digits? rest
  | rest => some rest

/-- What follows the distance from universal time, if it is written. -/
def zone? : List Char → Option (List Char)
  | 'Z' :: rest | 'z' :: rest => some rest
  | '+' :: rest | '-' :: rest => do
    let (_, rest) ← field 2 0 23 rest
    let (_, rest) ← field 2 0 59 (← word? [':'] rest)
    return rest
  | rest => some rest

/-- **What follows a date, a time, or both.** -/
def moment? (text : List Char) : Option (List Char) :=
  match date? text with
  | none => time? text
  | some rest =>
    match rest with
    | c :: after =>
      -- What follows a date and is no time belongs to the rest of the line.
      if c = 'T' ∨ c = 't' ∨ c = ' ' then (((time? after).bind zone?).or (some rest)) else some rest
    | [] => some []

end MarkedRegions.Toml
