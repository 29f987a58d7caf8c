import MarkedRegions.Proofs.Edit.InTurn
import MarkedRegions.Proofs.Edit.Parts

/-!
# Edits keep to the convention of a text

A text may follow a convention throughout: it holds no carriage return at all, or no line feed that
does not follow one. The scan asks for neither, since it goes by the first line feed alone. But if a
text follows a convention and new contents do, then so does what an edit leaves. The contents may begin
or end with anything that the convention admits, a carriage return for one, and whether a terminator is
added or kept makes no difference. What could go wrong is the seam before the closing line: if the cut
fell inside a terminator, the tail would begin with a line feed that has lost its carriage return.

## Main definitions

* `LineEnding.Conforms`: the convention that goes with a line ending

## Main results

* `Conforms.append`, `Conforms.left`, `Conforms.right`: texts put together and taken apart
* `ofText_of_conforms`: the style of a text that follows a convention
* `Seams.conforms_rewritten`: an edit of a text
* `replace_conforms`: the same for buffers
-/

namespace MarkedRegions

namespace LineEnding

/-- **The convention that goes with a line ending**: where lines end in a line feed alone there is no
carriage return, and where they end in both every line feed directly follows a carriage return. -/
def Conforms : LineEnding → Bytes → Prop
  | .lf, text => carriageReturn ∉ text
  | .crlf, text => ∀ index < text.length,
      text[index]? = some lineFeed → byteBefore text index = some carriageReturn

instance (ending : LineEnding) (text : Bytes) : Decidable (ending.Conforms text) :=
  match ending with
  | .lf => inferInstanceAs (Decidable (¬ _))
  | .crlf => inferInstanceAs (Decidable (∀ _ < _, _))

variable {ending : LineEnding} {text front back : Bytes}

theorem byteBefore_length (front back : Bytes) :
    byteBefore (front ++ back) front.length = front.getLast? := by
  rw [byteBefore, List.getLast?_eq_getElem?]
  cases front with
  | nil => rfl
  | cons first front =>
    rw [if_neg (by simp), List.getElem?_append_left (by simp)]

/-- Every line feed divides a text behind a carriage return. -/
theorem conforms_crlf_iff : crlf.Conforms text ↔
    ∀ front back, text = front ++ lineFeed :: back → front.getLast? = some carriageReturn := by
  constructor
  · rintro conforms front back rfl
    rw [← byteBefore_length front (lineFeed :: back)]
    exact conforms front.length (by simp) (by simp)
  · intro divides index inside feed
    have parts : text = text.take index ++ lineFeed :: text.drop (index + 1) := by
      obtain ⟨_, byte⟩ := List.getElem?_eq_some_iff.mp feed
      rw [← byte, ← List.drop_eq_getElem_cons, List.take_append_drop]
    have length : (text.take index).length = index := List.length_take_of_le inside.le
    have before := byteBefore_length (text.take index) (lineFeed :: text.drop (index + 1))
    rw [← parts, length] at before
    rw [before]
    exact divides _ _ parts

/-! ## Texts put together and taken apart -/

theorem Conforms.append (conforms : ending.Conforms front) (conforms' : ending.Conforms back) :
    ending.Conforms (front ++ back) := by
  cases ending with
  | lf =>
    intro inside
    rcases List.mem_append.mp inside with earlier | later
    · exact conforms earlier
    · exact conforms' later
  | crlf =>
    rw [conforms_crlf_iff] at conforms conforms' ⊢
    intro before behind parts
    rcases List.append_eq_append_iff.mp parts with ⟨more, rfl, rest⟩ | ⟨more, rfl, rest⟩
    · -- The line feed is in the second part, behind a carriage return of that part.
      rw [List.getLast?_append, conforms' more behind rest, Option.some_or]
    · cases more with
      | nil =>
        -- The second part would begin with it.
        have alone := conforms' [] behind rest.symm
        cases alone
      | cons byte more =>
        obtain ⟨rfl, -⟩ := List.cons.inj rest
        exact conforms before more rfl

/-- The first part of a text that follows a convention. -/
theorem Conforms.left (conforms : ending.Conforms (front ++ back)) : ending.Conforms front := by
  cases ending with
  | lf => exact fun inside => conforms (List.mem_append_left back inside)
  | crlf =>
    rw [conforms_crlf_iff] at conforms ⊢
    rintro before behind rfl
    exact conforms before (behind ++ back) (by simp)

/-- **The second part of a text that follows a convention**, unless the text is divided behind a
carriage return. -/
theorem Conforms.right (conforms : ending.Conforms (front ++ back))
    (divided : front.getLast? ≠ some carriageReturn) : ending.Conforms back := by
  cases ending with
  | lf => exact fun inside => conforms (List.mem_append_right front inside)
  | crlf =>
    rw [conforms_crlf_iff] at conforms ⊢
    rintro before behind rfl
    have last := conforms (front ++ before) behind (List.append_assoc ..).symm
    rw [List.getLast?_append] at last
    cases end_of : before.getLast? with
    | none =>
      rw [end_of, Option.none_or] at last
      exact absurd last divided
    | some byte => rwa [end_of, Option.some_or] at last

/-- A terminator follows its own convention. -/
theorem conforms_bytes (ending : LineEnding) : ending.Conforms ending.bytes := by
  cases ending <;> decide

/-- **The style of a text that follows a convention** is the one that the convention goes with. -/
theorem ofText_of_conforms (settled : lineFeed ∈ text) (conforms : ending.Conforms text) :
    ofText text = ending := by
  obtain ⟨front, back, rfl, first⟩ := List.eq_append_cons_of_mem settled
  rw [ofText_of_first first]
  cases ending with
  | lf =>
    rw [if_neg]
    intro last
    exact conforms (List.mem_append_left _ (List.mem_of_getLast? last))
  | crlf => rw [if_pos (conforms_crlf_iff.mp conforms front back rfl)]

end LineEnding

namespace Scan.Seams

open LineEnding (Conforms)

variable {query : Query} {text contents : Bytes} {region : Region} {ending : LineEnding}

/-- **The closing line stands behind a terminator**, which is the second seam of its region. -/
theorem exists_behind (seams : Seams query text region) (found : find query text = .ok region) :
    ∃ front, text = front ++ (LineEnding.ofText text).bytes ++ seams.tail := by
  have joins := seams.joins
  have whole := List.take_append_drop region.stop text
  rw [seams.drop_stop, Region.suffix, joins.ending_eq] at whole
  cases kept : region.trailing with
  | true =>
    rw [kept, if_pos rfl, ← List.append_assoc] at whole
    exact ⟨_, whole.symm⟩
  | false =>
    -- It is the first seam as well.
    rw [kept, if_neg Bool.false_ne_true, List.nil_append, ← start_eq_stop found kept,
      joins.take_start] at whole
    exact ⟨_, whole.symm⟩

/-- **An edit of a text keeps to its convention**, if the new contents do. -/
theorem conforms_rewritten (seams : Seams query text region)
    (found : find query text = .ok region) (conforms : ending.Conforms text)
    (conforms' : ending.Conforms contents) :
    LineEnding.ofText text = ending ∧ ending.Conforms (seams.rewritten contents) := by
  obtain ⟨front, behind⟩ := seams.exists_behind found
  have style : LineEnding.ofText text = ending := by
    refine LineEnding.ofText_of_conforms ?_ conforms
    rw [behind]
    exact List.mem_append_left _
      (List.mem_append_right _ (LineEnding.lineFeed_mem_bytes _))
  refine ⟨style, ?_⟩
  have head : ending.Conforms seams.head := by
    have start : ending.Conforms (text.take region.start) := by
      rw [← List.take_append_drop region.start text] at conforms
      exact conforms.left
    rw [seams.joins.take_start] at start
    exact start.left
  have tail : ending.Conforms seams.tail := by
    rw [behind] at conforms
    apply conforms.right
    rw [LineEnding.getLast?_append_bytes]
    decide
  have terminator := LineEnding.conforms_bytes ending
  rw [rewritten, style]
  exact head.append (terminator.append (conforms'.append (terminator.append tail)))

end Scan.Seams

namespace Buffer

variable {style : MarkerStyle} {buffer : Buffer} {ending : LineEnding}

/-- **Replacements keep to the convention of a text.** If every line feed of a buffer and of the new
contents directly follows a carriage return, or if there is no carriage return in either, then the
same holds of what a replacement leaves, and the style of the text is the one that goes with this. And
it holds of whatever a batch of such replacements leaves, whether it succeeds or fails. -/
theorem replace_conforms (conforms : ending.Conforms buffer.bytes) :
    (∀ allocator marker contents edited, ending.Conforms contents →
      buffer.replace allocator style marker contents = .ok edited →
        LineEnding.ofText buffer.bytes = ending ∧ ending.Conforms edited.bytes) ∧
    ∀ allocator pairs, (∀ pair ∈ pairs, ending.Conforms pair.2) →
      ending.Conforms (buffer.replaceAll allocator style pairs).1.bytes := by
  have step (buffer : Buffer) (conforms : ending.Conforms buffer.bytes) :
      ∀ allocator marker contents edited, ending.Conforms contents →
        buffer.replace allocator style marker contents = .ok edited →
          LineEnding.ofText buffer.bytes = ending ∧ ending.Conforms edited.bytes := by
    intro allocator marker contents edited conforms' replaced
    obtain ⟨region, found, seams, rewritten⟩ := exists_rewritten replaced
    rw [rewritten]
    exact seams.conforms_rewritten found conforms conforms'
  refine ⟨step buffer conforms, ?_⟩
  intro allocator pairs conforms'
  refine replaceAll_keeps (P := fun buffer => ending.Conforms buffer.bytes) allocator ?_ conforms
  intro pair inside allocator buffer edited conforms replaced
  exact (step buffer conforms allocator pair.1 pair.2 edited (conforms' pair inside) replaced).2

/-- Contents that end in a carriage return, where lines end in both: the terminator that is added
brings its own. -/
theorem replace_conforms_of_trailing_return :
    ∃ edited,
      (ofBytes [0x23, 0x7b, 0x74, 0x0d, 0x0a, 0x23, 0x7d, 0x74]).replace .generous ⟨[0x23]⟩ [0x74]
        [0x78, 0x0d] = .ok edited ∧
      LineEnding.crlf.Conforms edited.bytes := by
  have conforms : LineEnding.crlf.Conforms
      (ofBytes [0x23, 0x7b, 0x74, 0x0d, 0x0a, 0x23, 0x7d, 0x74]).bytes := by decide
  have conforms' : LineEnding.crlf.Conforms [0x78, 0x0d] := by decide
  obtain ⟨edited, replaced⟩ : ∃ edited,
      (ofBytes [0x23, 0x7b, 0x74, 0x0d, 0x0a, 0x23, 0x7d, 0x74]).replace .generous ⟨[0x23]⟩ [0x74]
        [0x78, 0x0d] = .ok edited := ⟨_, rfl⟩
  exact ⟨edited, replaced, ((replace_conforms conforms).1 _ _ _ _ conforms' replaced).2⟩

end Buffer

end MarkedRegions
