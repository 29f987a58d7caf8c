import MarkedRegions.Bytes

/-!
# Line endings

A text ends its lines either by a line feed or by a carriage return and a line feed. The first
line feed of a text settles which, once and for all: mixed texts are read consistently with
whichever style appears first. Both questions asked of a byte (does it settle the style, does it
end a line of a settled style) look back one byte and never ahead.

## Main definitions

* `LineEnding`: the two styles, with their bytes and width
* `LineEnding.settledBy`: the style that a byte settles, given the byte before it
* `LineEnding.endsAt`: whether a byte ends a line of a settled style
* `LineEnding.detectAt`, `LineEnding.terminatesAt`: the same two questions by offset
-/

namespace MarkedRegions

/-- **The two terminators**: a line feed alone, or preceded by a carriage return. -/
inductive LineEnding
  | lf
  | crlf
deriving DecidableEq, Repr

namespace LineEnding

instance : Inhabited LineEnding := ⟨.lf⟩

def name : LineEnding → String
  | .lf => "LF"
  | .crlf => "CRLF"

def bytes : LineEnding → Bytes
  | .lf => [lineFeed]
  | .crlf => [carriageReturn, lineFeed]

def width (ending : LineEnding) : Nat :=
  ending.bytes.length

@[simp] theorem width_lf : width .lf = 1 := rfl

@[simp] theorem width_crlf : width .crlf = 2 := rfl

/-- **Settling the style**: a line feed settles it, and the byte before decides which it is. -/
def settledBy (before : Option UInt8) (byte : UInt8) : Option LineEnding :=
  if byte = lineFeed then
    if before = some carriageReturn then some .crlf else some .lf
  else
    none

/-- **Ending a line** of a settled style: a line feed that stands alone does not end a line
where carriage returns are the rule. -/
def endsAt (ending : LineEnding) (before : Option UInt8) (byte : UInt8) : Bool :=
  match ending with
  | .lf => byte = lineFeed
  | .crlf => settledBy before byte = some .crlf

def byteBefore (text : Bytes) (index : Nat) : Option UInt8 :=
  if index = 0 then none else text[index - 1]?

/-- The style settled by the byte at an offset, if there is one. -/
def detectAt (text : Bytes) (index : Nat) : Option LineEnding :=
  text[index]?.bind (settledBy (byteBefore text index))

/-- Whether the byte at an offset exists and ends a line of the style. -/
def terminatesAt (ending : LineEnding) (text : Bytes) (index : Nat) : Bool :=
  text[index]?.any (ending.endsAt (byteBefore text index))

end LineEnding

end MarkedRegions
