import MarkedRegions.Bytes

/-!
# Reading bytes as text

A byte string is cut into scalars and **maximal invalid parts**: where no scalar can be read, the
part that goes is the longest start of some scalar's encoding, or a single byte if there is none.
Lossy text shows every such part as one replacement character; strict text exists only when there
are no such parts.

## Main definitions

* `Utf8.Piece`: a scalar or an invalid part
* `Utf8.pieces`: the cut of a byte string
* `Utf8.text?`, `Utf8.lossy`: strict and lossy text
-/

namespace MarkedRegions.Utf8

/-- **A piece of a byte string** read as text. -/
inductive Piece
  | scalar (char : Char)
  | invalid
deriving DecidableEq, Repr

/-- **The shape of a scalar's encoding**, fixed by its first byte: the range of the second byte,
how many bytes come after that one, and the bits that the first byte contributes. -/
structure Shape where
  lowest : UInt8
  highest : UInt8
  further : Nat
  bits : Nat
deriving Repr

/-- The shape announced by a first byte of a longer encoding. The second byte's range leaves out
the overlong forms, the surrogates and what lies beyond the last scalar. -/
def Shape.ofFirst? (byte : UInt8) : Option Shape :=
  if 0xc2 ≤ byte ∧ byte ≤ 0xdf then some ⟨0x80, 0xbf, 0, byte.toNat - 0xc0⟩
  else if byte = 0xe0 then some ⟨0xa0, 0xbf, 1, 0⟩
  else if byte = 0xed then some ⟨0x80, 0x9f, 1, 0xd⟩
  else if 0xe1 ≤ byte ∧ byte ≤ 0xef then some ⟨0x80, 0xbf, 1, byte.toNat - 0xe0⟩
  else if byte = 0xf0 then some ⟨0x90, 0xbf, 2, 0⟩
  else if byte = 0xf4 then some ⟨0x80, 0x8f, 2, 4⟩
  else if 0xf1 ≤ byte ∧ byte ≤ 0xf3 then some ⟨0x80, 0xbf, 2, byte.toNat - 0xf0⟩
  else none

/-- Reads the rest of an encoding whose next byte lies between `lowest` and `highest`, with
`further` plain continuation bytes after it; `value` is what has been read so far. The unread
bytes come back with the piece, so an invalid part keeps the byte that broke it. -/
def continueScalar (lowest highest : UInt8) (further value : Nat) : Bytes → Piece × Bytes
  | [] => (.invalid, [])
  | byte :: rest =>
    if lowest ≤ byte ∧ byte ≤ highest then
      let value := value * 64 + (byte.toNat - 0x80)
      match further with
      | 0 => (.scalar (Char.ofNat value), rest)
      | further + 1 => continueScalar 0x80 0xbf further value rest
    else
      (.invalid, byte :: rest)

/-- The piece that starts with a given byte, and the bytes after it. -/
def piece (first : UInt8) (rest : Bytes) : Piece × Bytes :=
  if first < 0x80 then
    (.scalar (Char.ofNat first.toNat), rest)
  else
    match Shape.ofFirst? first with
    | none => (.invalid, rest)
    | some shape => continueScalar shape.lowest shape.highest shape.further shape.bits rest

theorem length_continueScalar_le (lowest highest : UInt8) (further value : Nat) (rest : Bytes) :
    (continueScalar lowest highest further value rest).2.length ≤ rest.length := by
  induction rest generalizing lowest highest further value with
  | nil => simp [continueScalar]
  | cons byte rest ih =>
    unfold continueScalar
    split
    · split
      · simp
      · exact Nat.le_succ_of_le (ih ..)
    · simp

theorem length_piece_le (first : UInt8) (rest : Bytes) :
    (piece first rest).2.length ≤ rest.length := by
  unfold piece
  split
  · simp
  · split
    · simp
    · exact length_continueScalar_le ..

/-- **The pieces of a byte string**, in order. -/
def pieces : Bytes → List Piece
  | [] => []
  | first :: rest => (piece first rest).1 :: pieces (piece first rest).2
termination_by text => text.length
decreasing_by exact Nat.lt_succ_of_le (length_piece_le first rest)

/-- The character shown for a piece: an invalid part shows as the replacement character. -/
def Piece.shown : Piece → Char
  | .scalar char => char
  | .invalid => Char.ofNat 0xfffd

/-- The scalar of a piece, if it has one. -/
def Piece.scalar? : Piece → Option Char
  | .scalar char => some char
  | .invalid => none

/-- **Lossy text**: every byte string can be shown. -/
def lossy (text : Bytes) : String :=
  String.ofList ((pieces text).map Piece.shown)

/-- **Strict text**: the characters of a byte string without invalid parts. -/
def chars? (text : Bytes) : Option (List Char) :=
  (pieces text).mapM Piece.scalar?

/-- Whether a byte string has no invalid parts. -/
def isText (text : Bytes) : Bool :=
  (chars? text).isSome

/-- Strict text as a string. -/
def text? (text : Bytes) : Option String :=
  (chars? text).map String.ofList

end MarkedRegions.Utf8
