/-!
# Byte strings

Texts, names, paths and arguments are finite sequences of bytes with no assumed encoding. The
library reads them as lists, so that every law about a text is an induction over it.

## Main definitions

* `Bytes`: a finite byte string
* `Bytes.ofString`: the bytes that encode a text
* `lineFeed`, `carriageReturn`, `openBrace`, `closeBrace`: the bytes that mean something in a line
-/

namespace MarkedRegions

/-- **Byte strings**, in reading order. -/
abbrev Bytes := List UInt8

/-- The bytes of a text in its standard encoding. -/
def Bytes.ofString (text : String) : Bytes :=
  text.toUTF8.toList

def lineFeed : UInt8 := 0x0a

/-- The byte that precedes a line feed in two-byte terminators. -/
def carriageReturn : UInt8 := 0x0d

def openBrace : UInt8 := 0x7b

def closeBrace : UInt8 := 0x7d

end MarkedRegions
