/-!
# Characters quoted in messages

A message shows an offending byte as the character of the same number, between single quotes.
Characters that would not print, or would end the quotation, are escaped; a double quote stands
for itself.

## Main definitions

* `Quoted.escape`: how a single character is written between the quotes
* `Quoted.byte`: the quotation of a byte
-/

namespace MarkedRegions.Quoted

def hexDigit (n : Nat) : Char :=
  if n < 10 then Char.ofNat (0x30 + n) else Char.ofNat (0x57 + n)

/-- A number below 256 in hexadecimal, without a leading zero. -/
def hex (n : Nat) : List Char :=
  if n < 16 then [hexDigit n] else [hexDigit (n / 16), hexDigit (n % 16)]

/-- **Characters below 256 that are written by number**: the control characters, the no-break
space and the soft hyphen. -/
def isHidden (n : Nat) : Bool :=
  n < 0x20 || (0x7f ≤ n && n ≤ 0xa0) || n = 0xad

/-- **One character between quotes.** The null character, the tab, the two line-ending characters,
the single quote and the backslash have names of their own. -/
def escape (n : Nat) : List Char :=
  if n = 0x00 then ['\\', '0']
  else if n = 0x09 then ['\\', 't']
  else if n = 0x0a then ['\\', 'n']
  else if n = 0x0d then ['\\', 'r']
  else if n = 0x27 then ['\\', '\'']
  else if n = 0x5c then ['\\', '\\']
  else if isHidden n then ['\\', 'u', '\x7b'] ++ hex n ++ ['\x7d']
  else [Char.ofNat n]

/-- The quotation of a byte. -/
def byte (b : UInt8) : String :=
  String.ofList (['\''] ++ escape b.toNat ++ ['\''])

end MarkedRegions.Quoted
