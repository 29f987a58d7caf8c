import MarkedRegions.Text.Utf8
import Mathlib.Algebra.Group.Nat.Defs
import Mathlib.Tactic.Common

/-!
# Lossy text keeps plain bytes and loses no length

Lossy text is written down again where a name is built from another one. The bytes that come out are
not those that went in: an invalid part comes out as a replacement character. Two things are kept
all the same. A byte below 128 comes out only where it went in, for every piece that is not a single
such byte shows as a character from 128 on, and so do all its bytes. And no piece comes out shorter
than it went in: an invalid part has at most the three bytes of the replacement character, and a
scalar is read only from its shortest form.

## Main results

* `Bytes.ofString_eq_flatMap`, `Bytes.mem_ofString_iff`: the bytes of a text
* `Utf8.exists_piece`: what is read, and what it shows as
* `Utf8.mem_of_mem_ofString_lossy`: bytes below 128 come from the bytes that are shown
* `Utf8.length_le_length_ofString_lossy`: lossy text is no shorter
-/

namespace MarkedRegions

/-! ## Texts as bytes -/

namespace Bytes

theorem toList_loop (bytes : ByteArray) (i : Nat) (seen : List UInt8) :
    ByteArray.toList.loop bytes i seen = seen.reverse ++ bytes.data.toList.drop i := by
  induction i, seen using ByteArray.toList.loop.induct bytes with
  | case1 i seen within ih =>
    have within' : i < bytes.data.size := within
    have next : bytes.data.toList.drop i = bytes.data[i] :: bytes.data.toList.drop (i + 1) :=
      List.drop_eq_getElem_cons within'
    rw [ByteArray.toList.loop, if_pos within, ih, next]
    simp [ByteArray.get!, getElem!_pos bytes.data i within']
  | case2 i seen beyond =>
    rw [ByteArray.toList.loop, if_neg beyond]
    simpa using Nat.le_of_not_lt beyond

/-- **The bytes of a text** are those of its characters, one after the other. -/
theorem ofString_eq_flatMap (text : String) :
    ofString text = text.toList.flatMap String.utf8EncodeChar := by
  have encoded : text.toByteArray = text.toList.utf8Encode := by
    rw [← String.toByteArray_ofList, String.ofList_toList]
  rw [ofString, ByteArray.toList, toList_loop, String.toUTF8, encoded, List.utf8Encode]
  simp

theorem ofString_append (front back : String) :
    ofString (front ++ back) = ofString front ++ ofString back := by
  simp [ofString_eq_flatMap]

theorem mem_utf8EncodeChar_iff {byte : UInt8} {c : Char} (plain : byte < 0x80) :
    byte ∈ String.utf8EncodeChar c ↔ c.toNat = byte.toNat := by
  have small : byte.toNat < 0x80 := plain
  have toNat : c.toNat = c.val.toNat := rfl
  simp only [String.utf8EncodeChar, toNat]
  generalize c.val.toNat = value at *
  split_ifs <;> simp [← UInt8.toNat_inj] <;> omega

/-- **A byte below 128** stands in a text for the character of its number, and for no other. -/
theorem mem_ofString_iff {byte : UInt8} {text : String} (plain : byte < 0x80) :
    byte ∈ ofString text ↔ ∃ c ∈ text.toList, c.toNat = byte.toNat := by
  simp only [ofString_eq_flatMap, List.mem_flatMap, mem_utf8EncodeChar_iff plain]

end Bytes

namespace Utf8

/-! ## What is read -/

theorem toNat_charOfNat {value : Nat} (valid : value.isValidChar) :
    (Char.ofNat value).toNat = value := by
  rw [Char.ofNat, dif_pos valid]
  rfl

/-- **The rest of an encoding** is read to its end, and then its value lies between those of its
first and its last possible second byte; or it breaks off before its end. -/
theorem continueScalar_cases (lowest highest : UInt8) (further value : Nat) (rest : Bytes)
    (low : 0x80 ≤ lowest.toNat) (high : highest.toNat ≤ 0xbf) :
    (∃ read unread total, rest = read ++ unread ∧ read.length = further + 1 ∧
      continueScalar lowest highest further value rest = (.scalar (Char.ofNat total), unread) ∧
      (value * 64 + (lowest.toNat - 0x80)) * 64 ^ further ≤ total ∧
      total < (value * 64 + (highest.toNat - 0x80) + 1) * 64 ^ further) ∨
    ∃ read unread, rest = read ++ unread ∧ read.length ≤ further ∧
      continueScalar lowest highest further value rest = (.invalid, unread) := by
  induction rest generalizing lowest highest further value with
  | nil => exact .inr ⟨[], [], rfl, Nat.zero_le _, by rw [continueScalar]⟩
  | cons byte rest ih =>
    rw [continueScalar]
    by_cases fits : lowest ≤ byte ∧ byte ≤ highest
    · rw [if_pos fits]
      have low' : lowest.toNat ≤ byte.toNat := fits.1
      have high' : byte.toNat ≤ highest.toNat := fits.2
      cases further with
      | zero => refine .inl ⟨[byte], rest, _, rfl, rfl, rfl, ?_, ?_⟩ <;> omega
      | succ further =>
        -- The bytes after the second one add less than one unit of what has been read before.
        rcases ih 0x80 0xbf further (value * 64 + (byte.toNat - 0x80)) (by decide) (by decide) with
          ⟨read, unread, total, rfl, length, eq, least, most⟩ | ⟨read, unread, rfl, length, eq⟩
        · refine .inl ⟨byte :: read, unread, total, rfl, by simp [length], eq, ?_, ?_⟩
          · refine Nat.le_trans ?_ least
            rw [Nat.pow_succ', ← Nat.mul_assoc]
            exact Nat.mul_le_mul_right _ (by omega)
          · refine Nat.lt_of_lt_of_le most ?_
            rw [Nat.pow_succ', ← Nat.mul_assoc]
            have last : (0xbf : UInt8).toNat = 0xbf := rfl
            exact Nat.mul_le_mul_right _ (by omega)
        · exact .inr ⟨byte :: read, unread, rfl, by simpa using length, eq⟩
    · rw [if_neg fits]
      exact .inr ⟨[], byte :: rest, rfl, Nat.zero_le _, rfl⟩

/-- **What a first byte announces** are scalars, and none that has a shorter form. -/
theorem Shape.ofFirst?_bounds {first : UInt8} {shape : Shape}
    (announced : ofFirst? first = some shape) :
    0x80 ≤ shape.lowest.toNat ∧ shape.highest.toNat ≤ 0xbf ∧ shape.further ≤ 2 ∧
    ∀ total, (shape.bits * 64 + (shape.lowest.toNat - 0x80)) * 64 ^ shape.further ≤ total →
      total < (shape.bits * 64 + (shape.highest.toNat - 0x80) + 1) * 64 ^ shape.further →
      total.isValidChar ∧ 0x80 ≤ total ∧ (1 ≤ shape.further → 0x800 ≤ total) ∧
        (2 ≤ shape.further → 0x10000 ≤ total) := by
  rw [ofFirst?] at announced
  simp only [UInt8.le_iff_toNat_le, ← UInt8.toNat_inj, UInt8.reduceToNat] at announced
  unfold Nat.isValidChar
  -- Each case has numbers for all but the first byte's own bits, and a range for these.
  split_ifs at announced
  all_goals cases announced
  all_goals
    simp only [UInt8.reduceToNat]
    refine ⟨by omega, by omega, by omega, ?_⟩
    intro total least most
    omega

theorem add_two_le_utf8Size {total further : Nat} (valid : total.isValidChar) (few : further ≤ 2)
    (two : 0x80 ≤ total) (three : 1 ≤ further → 0x800 ≤ total)
    (four : 2 ≤ further → 0x10000 ≤ total) : further + 2 ≤ (Char.ofNat total).utf8Size := by
  have value : (Char.ofNat total).val.toNat = total := toNat_charOfNat valid
  rw [Char.utf8Size]
  simp only [UInt32.le_iff_toNat_le, value, UInt32.toNat_ofNatLT]
  split_ifs <;> omega

/-- **A piece** is read from a first byte and some bytes after it. It shows as a character with at
least as many bytes, and unless it is the first byte alone, as one from 128 on. -/
theorem exists_piece (first : UInt8) (rest : Bytes) :
    ∃ read unread taken, rest = read ++ unread ∧ piece first rest = (taken, unread) ∧
      read.length < taken.shown.utf8Size ∧
      (taken.shown.toNat = first.toNat ∨ 0x80 ≤ taken.shown.toNat) := by
  rw [piece]
  by_cases plain : first < 0x80
  · have small : first.toNat < 0x80 := plain
    have valid : first.toNat.isValidChar := .inl (by omega)
    rw [if_pos plain]
    exact ⟨[], rest, _, rfl, rfl, Char.utf8Size_pos _, .inl (toNat_charOfNat valid)⟩
  · rw [if_neg plain]
    cases announced : Shape.ofFirst? first with
    | none => exact ⟨[], rest, _, rfl, rfl, by decide, .inr (by decide)⟩
    | some shape =>
      obtain ⟨low, high, few, bounds⟩ := Shape.ofFirst?_bounds announced
      rcases continueScalar_cases shape.lowest shape.highest shape.further shape.bits rest low high
        with ⟨read, unread, total, split, length, eq, least, most⟩ |
          ⟨read, unread, split, length, eq⟩
      · obtain ⟨valid, two, three, four⟩ := bounds total least most
        refine ⟨read, unread, _, split, eq, ?_, .inr ?_⟩
        · rw [length]
          exact add_two_le_utf8Size valid few two three four
        · rwa [Piece.shown, toNat_charOfNat valid]
      · have size : Piece.invalid.shown.utf8Size = 3 := by decide
        exact ⟨read, unread, _, split, eq, by omega, .inr (by decide)⟩

/-! ## What is shown -/

theorem ofString_lossy (text : Bytes) : Bytes.ofString (lossy text) =
    (pieces text).flatMap fun piece => String.utf8EncodeChar piece.shown := by
  rw [lossy, Bytes.ofString_eq_flatMap, String.toList_ofList, List.flatMap_map]

/-- **Lossy text is no shorter** than the bytes it shows. -/
theorem length_le_length_ofString_lossy (text : Bytes) :
    text.length ≤ (Bytes.ofString (lossy text)).length := by
  rw [ofString_lossy]
  induction text using pieces.induct with
  | case1 => exact Nat.zero_le _
  | case2 first rest ih =>
    obtain ⟨read, unread, taken, rfl, eq, size, -⟩ := exists_piece first rest
    simp only [pieces, eq, List.flatMap_cons, List.length_append, List.length_cons,
      String.length_utf8EncodeChar] at ih ⊢
    omega

/-- **A byte below 128 that is shown** is one of those that were read. -/
theorem mem_of_mem_ofString_lossy {byte : UInt8} {text : Bytes} (plain : byte < 0x80)
    (mem : byte ∈ Bytes.ofString (lossy text)) : byte ∈ text := by
  rw [ofString_lossy] at mem
  induction text using pieces.induct with
  | case1 => simp [pieces] at mem
  | case2 first rest ih =>
    obtain ⟨read, unread, taken, rfl, eq, -, value⟩ := exists_piece first rest
    simp only [pieces, eq, List.flatMap_cons, List.mem_append,
      Bytes.mem_utf8EncodeChar_iff plain] at ih mem
    rcases mem with here | later
    · have small : byte.toNat < 0x80 := plain
      have same : byte = first := by
        rw [← UInt8.toNat_inj]
        omega
      rw [same]
      exact List.mem_cons_self
    · exact List.mem_cons_of_mem _ (List.mem_append_right _ (ih later))

end Utf8

end MarkedRegions
