import MarkedRegions.Proofs.Scan.Success

/-!
# Why a region is not found

A scan that fails says what the earliest offence is and where it stands. The lines that can offend
are those up to the closing line of the region, if it has one; a line offends by itself, if it is
malformed or closes without a name, or by what stands before it, if it opens the region for a
second time. Its number and its column are those of the line and of the byte in the text. If no
line offends, a marker line is missing: the opening one, or the closing one.

The errors of the automaton are raised in the middle of a line and the others at its end. That the
first of them is the one of the first offending line needs no argument about this order: the course
of the scan up to a line is without offence.

## Main definitions

* `OffendsAt`: the line with an index offends, by itself or by what stands before it
* `Examined`: the lines up to the one that would close the region
* `Fails`: what is wrong with a text

## Main results

* `find_eq_error_iff_fails`: a scan fails if and only if something is wrong, and says what
-/

namespace MarkedRegions.Scan

open Line (Opens Closes Offends)

/-- The line with an index offends among the lines before it. -/
def OffendsAt (lead marker : Bytes) (lines : List Bytes) (k : Nat) (e : ScanError) : Prop :=
  ∃ line, lines[k]? = some line ∧
    Offends lead marker (∃ opening ∈ lines.take k, Opens lead marker opening) (k + 1) line e

/-- **The lines that can offend**: those up to the line that would close the region, or all. -/
def Examined (lead marker : Bytes) (lines : List Bytes) (k : Nat) : Prop :=
  k < lines.length ∧ ∀ i j, Bounds lead marker lines i j → k ≤ j

/-- **What is wrong with a text**, by its lines. -/
inductive Fails (lead marker : Bytes) (lines : List Bytes) : ScanError → Prop
  -- A line offends, and no line before it.
  | offence {k : Nat} {e : ScanError} (examined : Examined lead marker lines k)
    (offends : OffendsAt lead marker lines k e)
    (first : ∀ k' < k, ∀ e', ¬ OffendsAt lead marker lines k' e') : Fails lead marker lines e
  -- No line offends, and none opens the region.
  | notFound (sound : ∀ k, Examined lead marker lines k → ∀ e, ¬ OffendsAt lead marker lines k e)
    (unopened : ∀ line ∈ lines, ¬ Opens lead marker line) :
    Fails lead marker lines (.notFound marker)
  -- No line offends, and none closes the region that one opens.
  | unterminated
    (sound : ∀ k, Examined lead marker lines k → ∀ e, ¬ OffendsAt lead marker lines k e)
    (opened : ∃ line ∈ lines, Opens lead marker line)
    (unclosed : ∀ i j, ¬ Bounds lead marker lines i j) :
    Fails lead marker lines (.unterminated marker lead)

variable {lead marker : Bytes} {lines more : List Bytes} {opened : Option Nat} {e e' : ScanError}

/-! ## The course of a scan is without offence -/

/-- The region is open if and only if a line behind has opened it. -/
theorem Underway.isSome_iff (behind : Underway lead marker lines opened) :
    opened.isSome = true ↔ ∃ line ∈ lines, Opens lead marker line := by
  cases opened with
  | none =>
    have idle := underway_none_iff.mp behind
    simpa using fun line inside => (idle line inside).not_opens
  | some index =>
    obtain ⟨before, opening, inner, rfl, -, -, opens, -⟩ := underway_some_iff.mp behind
    simpa using ⟨opening, by simp, opens⟩

/-- **The line that a scan comes to** offends among the lines behind it as it does by itself, with
the region open or not as the scan has it. -/
theorem Underway.offendsAt_iff (behind : Underway lead marker lines opened) (line : Bytes)
    (more : List Bytes) :
    OffendsAt lead marker (lines ++ line :: more) lines.length e ↔
      Offends lead marker (opened.isSome = true) (lines.length + 1) line e := by
  have found : (lines ++ line :: more)[lines.length]? = some line := by simp
  rw [OffendsAt, List.take_left, ← propext behind.isSome_iff]
  constructor
  · rintro ⟨line', found', offends⟩
    obtain rfl := Option.some.inj (found.symm.trans found')
    exact offends
  · intro offends
    exact ⟨line, found, offends⟩

/-- **No line behind a scan offends**, whatever follows. The induction is on the lines behind, the
last of which has just been passed over or has opened the region. -/
theorem Underway.not_offendsAt (behind : Underway lead marker lines opened) (more : List Bytes)
    {k : Nat} (inside : k < lines.length) (e : ScanError) :
    ¬ OffendsAt lead marker (lines ++ more) k e := by
  induction behind generalizing more with
  | start => cases inside
  | @pass lines opened line behind passes ih =>
    rw [List.append_assoc, List.singleton_append]
    rcases Nat.lt_or_eq_of_le (Nat.lt_succ_iff.mp (by simpa using inside)) with earlier | rfl
    · exact ih (line :: more) earlier
    · rw [behind.offendsAt_iff]
      exact Line.not_offends_of_ok (passes _)
  | @opens lines line behind opens ih =>
    rw [List.append_assoc, List.singleton_append]
    rcases Nat.lt_or_eq_of_le (Nat.lt_succ_iff.mp (by simpa using inside)) with earlier | rfl
    · exact ih (line :: more) earlier
    · rw [behind.offendsAt_iff]
      exact Line.not_offends_of_ok (Line.effect_of_opens opens)

/-- Where a line stands that an index finds among lines with one set apart. -/
theorem getElem?_parts {before inner : List Bytes} {opening line : Bytes} {i : Nat}
    (found : (before ++ opening :: inner)[i]? = some line) :
    i < before.length ∧ line ∈ before ∨ i = before.length ∧ line = opening ∨
      before.length < i ∧ line ∈ inner := by
  rcases Nat.lt_trichotomy i before.length with earlier | rfl | later
  · rw [List.getElem?_append_left earlier] at found
    exact .inl ⟨earlier, List.mem_of_getElem? found⟩
  · exact .inr (.inl ⟨rfl, by simpa [eq_comm] using found⟩)
  · obtain ⟨n, rfl⟩ := Nat.exists_eq_add_of_lt later
    rw [Nat.add_assoc, List.getElem?_append_right (Nat.le_add_right _ _), Nat.add_sub_cancel_left,
      List.getElem?_cons_succ] at found
    exact .inr (.inr ⟨later, List.mem_of_getElem? found⟩)

/-- **Behind a scan that goes on no region is closed**: no two lines bound one. -/
theorem Underway.not_bounds (behind : Underway lead marker lines opened) (more : List Bytes)
    {i j : Nat} (inside : j < lines.length) : ¬ Bounds lead marker (lines ++ more) i j := by
  intro bounds
  have ordered := bounds.ordered
  obtain ⟨opening, found, opens⟩ := bounds.opened
  obtain ⟨closing, found', closes⟩ := bounds.closed
  rw [List.getElem?_append_left (by omega)] at found found'
  cases opened with
  | none =>
    exact (underway_none_iff.mp behind opening (List.mem_of_getElem? found)).not_opens opens
  | some index =>
    obtain ⟨before, opening', inner, rfl, -, idle, -, inert⟩ := underway_some_iff.mp behind
    -- The first of the two lines can only be the one that has opened the region.
    rcases getElem?_parts found with ⟨-, earlier⟩ | ⟨rfl, -⟩ | ⟨-, later⟩
    · exact (idle opening earlier).not_opens opens
    · -- Then the second is inside the region, where no line closes it.
      rcases getElem?_parts found' with ⟨before, -⟩ | ⟨same, -⟩ | ⟨-, later⟩
      · omega
      · omega
      · exact (inert closing later).not_closes closes
    · exact (inert opening later).not_opens opens

/-! ## The verdict -/

/-- What is wrong with a text is determined by its lines. -/
theorem Fails.unique (fails : Fails lead marker lines e) (fails' : Fails lead marker lines e') :
    e = e' := by
  cases fails with
  | @offence k e examined offends first =>
    cases fails' with
    | @offence k' e' examined' offends' first' =>
      -- Neither of two first offences comes before the other, and a line has only one.
      rcases Nat.lt_trichotomy k k' with before | rfl | before
      · exact absurd offends (first' k before e)
      · obtain ⟨line, found, offends⟩ := offends
        obtain ⟨line', found', offends'⟩ := offends'
        obtain rfl := Option.some.inj (found.symm.trans found')
        exact offends.unique offends'
      · exact absurd offends' (first k' before e')
    | notFound sound | unterminated sound => exact absurd offends (sound k examined e)
  | notFound sound unopened =>
    cases fails' with
    | offence examined offends => exact absurd offends (sound _ examined _)
    | notFound => rfl
    | unterminated _ opened =>
      obtain ⟨line, inside, opens⟩ := opened
      exact absurd opens (unopened line inside)
  | unterminated sound opened =>
    cases fails' with
    | offence examined offends => exact absurd offends (sound _ examined _)
    | notFound _ unopened =>
      obtain ⟨line, inside, opens⟩ := opened
      exact absurd opens (unopened line inside)
    | unterminated => rfl

/-- **A scan that fails, fails for a reason** that its lines give. -/
theorem Course.fails {query : Query} {ending : LineEnding}
    (course : Course query ending lines (.error e)) : Fails query.lead query.marker lines e := by
  cases course with
  | @offends before after line opened e parts behind offends =>
    subst parts
    have examined : Examined query.lead query.marker (before ++ line :: after) before.length := by
      refine ⟨by simp, ?_⟩
      intro i j bounds
      by_contra closed
      exact behind.not_bounds _ (Nat.lt_of_not_le closed) bounds
    refine .offence examined ((behind.offendsAt_iff line after).mpr offends) ?_
    intro k' earlier e'
    exact behind.not_offendsAt _ earlier e'
  | @ends opened behind =>
    have sound : ∀ k, Examined query.lead query.marker lines k →
        ∀ e, ¬ OffendsAt query.lead query.marker lines k e := by
      intro k examined e
      simpa using behind.not_offendsAt [] examined.1 e
    cases opened with
    | none =>
      refine .notFound sound ?_
      intro line inside
      exact (underway_none_iff.mp behind line inside).not_opens
    | some index =>
      refine .unterminated sound (behind.isSome_iff.mp rfl) ?_
      intro i j bounds
      obtain ⟨closing, found, -⟩ := bounds.closed
      have inside := (List.getElem?_eq_some_iff.mp found).1
      exact behind.not_bounds [] inside (by simpa using bounds)

/-- Where a region is found, nothing is wrong. -/
theorem Encloses.not_fails {i j : Nat} (encloses : Encloses lead marker lines i j) :
    ¬ Fails lead marker lines e := by
  intro fails
  have bounds := encloses.toBounds
  obtain ⟨before, line, after, rfl, rfl, behind, closes⟩ := encloses_iff.mp encloses
  cases fails with
  | @offence k e examined offends =>
    -- The lines that can offend end with the closing line, which does not.
    rcases Nat.lt_or_eq_of_le (examined.2 _ _ bounds) with earlier | rfl
    · exact behind.not_offendsAt _ earlier e offends
    · rw [behind.offendsAt_iff] at offends
      exact Line.not_offends_of_ok (Line.effect_of_closes closes) offends
  | notFound _ unopened =>
    obtain ⟨opening, found, opens⟩ := bounds.opened
    exact unopened opening (List.mem_of_getElem? found) opens
  | unterminated _ _ unclosed => exact unclosed _ _ bounds

/-- **Why a scan fails.** A scan fails if and only if something is wrong with the lines of its
text, and its error says what: the first offence of a line that can offend, or the marker line that
is missing. -/
theorem find_eq_error_iff_fails (query : Query) (text : Bytes) (e : ScanError) :
    find query text = .error e ↔
      Fails query.lead query.marker (Line.cut (.ofText text) text) e := by
  constructor
  · intro failed
    exact (find_eq_iff_course.mp failed).fails
  · intro fails
    cases found : find query text with
    | error e' => rw [fails.unique (find_eq_iff_course.mp found).fails]
    | ok region =>
      -- A course that ends with a region leaves nothing wrong.
      cases find_eq_iff_course.mp found with
      | closes parts behind closes =>
        exact absurd fails (encloses_iff.mpr ⟨_, _, _, parts, rfl, behind, closes⟩).not_fails

end MarkedRegions.Scan
