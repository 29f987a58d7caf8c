import MarkedRegions.Journal.Event

/-!
# Selecting reports

A filter is a list of directives. A directive raises or lowers the level for the sources whose path
starts with a given target; the directive with the longest target that fits a report decides, and
between equals the last one. A directive may also ask for a named value that the report must carry.
A report that no directive fits is dropped, so the empty filter drops everything.

Directives are written `level`, `target`, `target=level`, `[part]=level` or
`target[part{value}]=level`, separated by commas. Reports here belong to no named part of a run, so
a directive for such a part, or for a particular value, fits none.

## Main definitions

* `Directive`, `Filter`: what is selected
* `Directive.parse?`, `Filter.parse?`: their written form
* `Filter.allows`: the selection
-/

namespace MarkedRegions

/-- **A directive** for some of the reports. -/
structure Directive where
  -- The lowest rank of importance that passes; zero lets nothing pass.
  rank : Nat
  -- What the path of the source starts with.
  target : Option (List Char)
  -- A value that the report must carry.
  field : Option (List Char)
  -- Whether reports of a named part, or with a particular value, are meant.
  ofPart : Bool
deriving DecidableEq, Repr

/-- **A filter**: its directives in the order in which they are written. -/
structure Filter where
  directives : List Directive
deriving Repr

/-- The rank written by a decimal number, with or without a plus sign. -/
def rankOfDigits? (word : List Char) : Option Nat :=
  let digits := if word.head? = some '+' then word.drop 1 else word
  if digits.isEmpty ∨ digits.any (fun c => c < '0' ∨ '9' < c) then
    none
  else
    let value := digits.foldl (fun n c => n * 10 + (c.toNat - 0x30)) 0
    if value ≤ 5 then some value else none

/-- The rank written by a word: a level's name in any case, or its number. -/
def rankOfWord? (word : List Char) : Option Nat :=
  match rankOfDigits? word with
  | some rank => some rank
  | none =>
    match String.ofList (word.map Char.toLower) with
    -- A level left empty is the most important one.
    | "" => some 1
    | "off" => some 0
    | "error" => some 1
    | "warn" => some 2
    | "info" => some 3
    | "debug" => some 4
    | "trace" => some 5
    | _ => none

namespace Directive

/-- A character that may begin a directive which names no part. -/
def isStart (char : Char) : Bool :=
  char.isAlphanum || char = '-' || char = ':' || char = '_' || 0x7f < char.toNat

/-- The rank after an equals sign: everything if nothing follows. -/
def rankAfter? (word : List Char) : Option Nat :=
  if word.isEmpty then some 5 else rankOfWord? word

/-- What follows the closing bracket of a part: nothing, or a level. -/
def tailRank? : List Char → Option Nat
  | [] => some 5
  | '=' :: word => rankAfter? word
  | _ => none

/-- A directive that names a part: `inner` begins after the opening bracket. -/
def parsePart? (target : Option (List Char)) (inner : List Char) : Option Directive :=
  let stop := fun c => c = ']' ∨ c = '\x7b'
  let name := inner.takeWhile (fun c => !stop c)
  match inner.dropWhile (fun c => !stop c) with
  | ']' :: rest => (tailRank? rest).map fun rank => ⟨rank, target, none, true⟩
  | '\x7b' :: rest =>
    let value := rest.takeWhile (· ≠ '\x7d')
    if value.isEmpty then none
    else match rest.dropWhile (· ≠ '\x7d') with
      | '\x7d' :: ']' :: rest =>
        (tailRank? rest).map fun rank =>
          ⟨rank, target, some (value.takeWhile (· ≠ '=')), !name.isEmpty || value.contains '='⟩
      | _ => none
  | _ => none

/-- **The directive that a text writes**, if it writes one. A word that is no level is a target,
all of whose reports pass. -/
def parse? (text : List Char) : Option Directive :=
  match text with
  | [] => some ⟨5, none, none, false⟩
  | '[' :: inner => parsePart? none inner
  | first :: _ =>
    if !isStart first then none
    else
      let word := text.takeWhile (fun c => c ≠ '=' ∧ c ≠ '[')
      match text.dropWhile (fun c => c ≠ '=' ∧ c ≠ '[') with
      | '=' :: level => (rankAfter? level).map fun rank => ⟨rank, some word, none, false⟩
      | '[' :: inner => parsePart? (some word) inner
      | _ =>
        -- A word alone: a level for all sources, or a source at all levels.
        match rankOfWord? word with
        | some rank => some ⟨rank, none, none, false⟩
        | none => some ⟨5, some word, none, false⟩

/-- Whether a directive is about a report. -/
def fits (directive : Directive) (event : Event) : Bool :=
  !directive.ofPart
    && directive.target.all (fun target => target.isPrefixOf event.source.path.toList)
    && directive.field.all fun field =>
      field = "message".toList || event.fields.any (fun (name, _) => name.toList = field)

/-- How specific a directive is: by the length of its target, then by the value it asks for. -/
def weight (directive : Directive) : Nat × Nat :=
  (match directive.target with | some target => target.length + 1 | none => 0,
    if directive.field.isSome then 1 else 0)

/-- Whether a directive gives way to a later one. -/
def givesWayTo (earlier later : Directive) : Bool :=
  earlier.weight.1 < later.weight.1
    || (earlier.weight.1 = later.weight.1 && earlier.weight.2 ≤ later.weight.2)

end Directive

namespace Filter

def trim (text : List Char) : List Char :=
  ((text.dropWhile Char.isWhitespace).reverse.dropWhile Char.isWhitespace).reverse

/-- **The filter that a text writes**, between commas. One directive that can not be read spoils it. -/
def parse? (text : List Char) : Option Filter :=
  let parts := (text.splitOn ',').filter (!·.isEmpty)
  (parts.mapM fun part => Directive.parse? (trim part)).map Filter.mk

/-- The filter that lets everything down to a level pass. -/
def ofLevel (level : Level) : Filter :=
  ⟨[⟨level.rank, none, none, false⟩]⟩

/-- The directive that decides about a report. -/
def decisive? (filter : Filter) (event : Event) : Option Directive :=
  (filter.directives.filter (·.fits event)).foldl
    (fun best directive => match best with
      | some earlier => if earlier.givesWayTo directive then some directive else best
      | none => some directive)
    none

/-- **Whether a report passes.** -/
def allows (filter : Filter) (event : Event) : Bool :=
  (filter.decisive? event).any fun directive => event.level.rank ≤ directive.rank

end Filter

end MarkedRegions
