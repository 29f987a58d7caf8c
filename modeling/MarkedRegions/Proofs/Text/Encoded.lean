import MarkedRegions.Proofs.Text.Lossy
import Mathlib.Tactic.IntervalCases

/-!
# What is text is shown as it is

A text is written as the bytes of its characters, and lossy text is read from bytes. On the bytes of
a text the reading meets no invalid part, and it gives back the characters: the first byte of each
announces as many further bytes as were written, and leaves no digit of six bits out of its range.
So whatever quotes a text by its bytes quotes the text.

## Main results

* `Shape.ofFirst?_two`, `Shape.ofFirst?_three`, `Shape.ofFirst?_four`: what first bytes announce
* `exists_piece_of_char`: a character is read from its bytes
* `lossy_ofString`: a text is shown as it is
-/

namespace MarkedRegions.Utf8

variable {first byte lowest highest : UInt8} {digit value : Nat} {rest : Bytes}

/-! ## First bytes -/

theorem toNat_ofNat_add {base : Nat} (small : digit + base < 0x100) :
    (UInt8.ofNat (digit + base)).toNat = base + digit := by
  rw [UInt8.toNat_ofNat_of_lt' small, Nat.add_comm]

theorem Shape.ofFirst?_two (eq : first.toNat = 0xc0 + digit) (least : 2 ≤ digit)
    (most : digit < 32) : ofFirst? first = some ⟨0x80, 0xbf, 0, digit⟩ := by
  rw [ofFirst?, if_pos, eq, Nat.add_sub_cancel_left]
  simp [UInt8.le_iff_toNat_le, eq]
  omega

theorem Shape.ofFirst?_three (eq : first.toNat = 0xe0 + digit) (most : digit < 16) :
    ofFirst? first = some
      ⟨if digit = 0 then 0xa0 else 0x80, if digit = 13 then 0x9f else 0xbf, 1, digit⟩ := by
  simp only [ofFirst?, UInt8.le_iff_toNat_le, ← UInt8.toNat_inj, eq]
  interval_cases digit <;> rfl

theorem Shape.ofFirst?_four (eq : first.toNat = 0xf0 + digit) (most : digit < 5) :
    ofFirst? first = some
      ⟨if digit = 0 then 0x90 else 0x80, if digit = 4 then 0x8f else 0xbf, 2, digit⟩ := by
  simp only [ofFirst?, UInt8.le_iff_toNat_le, ← UInt8.toNat_inj, eq]
  interval_cases digit <;> rfl

/-! ## Further bytes -/

theorem piece_of_shape {shape : Shape} (long : 0x80 ≤ first.toNat)
    (announced : Shape.ofFirst? first = some shape) (rest : Bytes) :
    piece first rest =
      continueScalar shape.lowest shape.highest shape.further shape.bits rest := by
  have other : ¬ first < 0x80 := Nat.not_lt.mpr long
  rw [piece, if_neg other, announced]

/-- A byte in its range adds six bits. -/
theorem continueScalar_cons (eq : byte.toNat = 0x80 + digit) (least : lowest.toNat ≤ 0x80 + digit)
    (most : 0x80 + digit ≤ highest.toNat) (further : Nat) :
    continueScalar lowest highest further value (byte :: rest) =
      match further with
      | 0 => (.scalar (Char.ofNat (value * 64 + digit)), rest)
      | further + 1 => continueScalar 0x80 0xbf further (value * 64 + digit) rest := by
  have inside : lowest ≤ byte ∧ byte ≤ highest := by
    rw [UInt8.le_iff_toNat_le, UInt8.le_iff_toNat_le, eq]
    exact ⟨least, most⟩
  cases further <;> simp only [continueScalar, if_pos inside, eq, Nat.add_sub_cancel_left]

/-- A byte after the second one may have any six bits. -/
theorem continueScalar_plain (further : Nat) (small : digit < 64) :
    continueScalar 0x80 0xbf further value (UInt8.ofNat (digit + 0x80) :: rest) =
      match further with
      | 0 => (.scalar (Char.ofNat (value * 64 + digit)), rest)
      | further + 1 => continueScalar 0x80 0xbf further (value * 64 + digit) rest :=
  continueScalar_cons (toNat_ofNat_add (by omega)) (by simp) (by simp; omega) further

/-! ## Characters -/

theorem piece_two (least : 0x80 ≤ value) (most : value < 0x800) :
    piece (UInt8.ofNat (value / 64 % 0x20 + 0xc0)) (UInt8.ofNat (value % 64 + 0x80) :: rest) =
      (.scalar (Char.ofNat value), rest) := by
  have first := toNat_ofNat_add (show value / 64 % 0x20 + 0xc0 < 0x100 by omega)
  have total : value / 64 % 0x20 * 64 + value % 64 = value := by omega
  rw [piece_of_shape (by omega) (Shape.ofFirst?_two first (by omega) (by omega)),
    continueScalar_plain _ (by omega)]
  simp only [total]

theorem piece_three (valid : value.isValidChar) (least : 0x800 ≤ value) (most : value < 0x10000) :
    piece (UInt8.ofNat (value / 4096 % 0x10 + 0xe0))
        (UInt8.ofNat (value / 64 % 64 + 0x80) :: UInt8.ofNat (value % 64 + 0x80) :: rest) =
      (.scalar (Char.ofNat value), rest) := by
  have first := toNat_ofNat_add (show value / 4096 % 0x10 + 0xe0 < 0x100 by omega)
  have second := toNat_ofNat_add (show value / 64 % 64 + 0x80 < 0x100 by omega)
  have total : (value / 4096 % 0x10 * 64 + value / 64 % 64) * 64 + value % 64 = value := by omega
  unfold Nat.isValidChar at valid
  rw [piece_of_shape (by omega) (Shape.ofFirst?_three first (by omega)),
    continueScalar_cons second (by split_ifs <;> simp <;> omega) (by split_ifs <;> simp <;> omega)]
  simp only [continueScalar_plain _ (show value % 64 < 64 by omega), total]

theorem piece_four (valid : value.isValidChar) (least : 0x10000 ≤ value) :
    piece (UInt8.ofNat (value / 262144 % 0x08 + 0xf0))
        (UInt8.ofNat (value / 4096 % 64 + 0x80) :: UInt8.ofNat (value / 64 % 64 + 0x80) ::
          UInt8.ofNat (value % 64 + 0x80) :: rest) =
      (.scalar (Char.ofNat value), rest) := by
  unfold Nat.isValidChar at valid
  have first := toNat_ofNat_add (show value / 262144 % 0x08 + 0xf0 < 0x100 by omega)
  have second := toNat_ofNat_add (show value / 4096 % 64 + 0x80 < 0x100 by omega)
  have total : ((value / 262144 % 0x08 * 64 + value / 4096 % 64) * 64 + value / 64 % 64) * 64 +
      value % 64 = value := by omega
  rw [piece_of_shape (by omega) (Shape.ofFirst?_four first (by omega)),
    continueScalar_cons second (by split_ifs <;> simp <;> omega) (by split_ifs <;> simp <;> omega)]
  simp only [continueScalar_plain _ (show value / 64 % 64 < 64 by omega),
    continueScalar_plain _ (show value % 64 < 64 by omega), total]

/-- **A character is read from its bytes.** -/
theorem exists_piece_of_char (c : Char) (rest : Bytes) :
    ∃ first more, String.utf8EncodeChar c = first :: more ∧
      piece first (more ++ rest) = (.scalar c, rest) := by
  have valid : c.val.toNat.isValidChar := c.valid
  have same : Char.ofNat c.val.toNat = c := Char.ofNat_toNat c
  unfold String.utf8EncodeChar
  generalize c.val.toNat = value at *
  subst same
  dsimp only
  split_ifs with one two three
  · have first : (UInt8.ofNat value).toNat = value :=
      UInt8.toNat_ofNat_of_lt' (Nat.lt_of_le_of_lt one (by decide))
    have plain : UInt8.ofNat value < 0x80 := by
      rw [UInt8.lt_iff_toNat_lt, first]
      exact Nat.lt_succ_of_le one
    refine ⟨_, _, rfl, ?_⟩
    rw [piece, if_pos plain, first]
    rfl
  · exact ⟨_, _, rfl, piece_two (by omega) (by omega)⟩
  · exact ⟨_, _, rfl, piece_three valid (by omega) (by omega)⟩
  · exact ⟨_, _, rfl, piece_four valid (by omega)⟩

/-- **What is text is shown as it is.** -/
theorem lossy_ofString (text : String) : lossy (Bytes.ofString text) = text := by
  have read : pieces (Bytes.ofString text) = text.toList.map .scalar := by
    rw [Bytes.ofString_eq_flatMap]
    induction text.toList with
    | nil => simp [pieces]
    | cons c rest ih =>
      obtain ⟨first, more, encoded, read⟩ :=
        exists_piece_of_char c (rest.flatMap String.utf8EncodeChar)
      rw [List.flatMap_cons, encoded, List.cons_append, pieces, read, ih]
      rfl
  have shown : Piece.shown ∘ Piece.scalar = id := rfl
  rw [lossy, read, List.map_map, shown, List.map_id, String.ofList_toList]

end MarkedRegions.Utf8
