import MarkedRegions.Proofs.Edit.InPlace

/-!
# Replacements in turn

Several replacements are made in turn, each in what the ones before it have left. If one of them
fails, then those before it have been made, it has changed nothing itself, and those behind it are
not tried. So what a batch leaves is what some first part of it leaves when each replacement of that
part succeeds, and a property that every successful replacement preserves holds of whatever a batch
leaves, whether it succeeds or fails. It is also why a batch may be split at any place.

The machine is asked anew for each replacement, and what it answers to the later ones is not
determined by what it has answered to the earlier ones. A batch that goes on with the second part of
another therefore has to be given the answers to that part.

## Main definitions

* `Buffer.Made`: replacements that succeed in turn

## Main results

* `replaceAll_eq_ok_iff`, `replaceAll_eq_error_iff`: how a batch ends
* `replaceAll_append`: a batch in two parts
* `replaceAll_keeps`: what every replacement preserves, a batch preserves
* `replaceAll_stops`: a failed batch has done what comes before the failure, and nothing else
-/

namespace MarkedRegions.Buffer

/-- **Replacements that succeed in turn**, the first of them being number `applied`, and the buffer
that they leave. -/
inductive Made (allocator : Nat → Allocator) (style : MarkerStyle) :
    Nat → Buffer → List (Bytes × Bytes) → Buffer → Prop
  | start {applied : Nat} {buffer : Buffer} : Made allocator style applied buffer [] buffer
  | next {applied : Nat} {buffer edited last : Buffer} {marker contents : Bytes}
    {pairs : List (Bytes × Bytes)}
    (replaced : buffer.replace (allocator applied) style marker contents = .ok edited)
    (rest : Made allocator style (applied + 1) edited pairs last) :
    Made allocator style applied buffer ((marker, contents) :: pairs) last

variable {allocator : Nat → Allocator} {style : MarkerStyle} {applied count : Nat}
  {buffer edited : Buffer} {pairs first : List (Bytes × Bytes)} {marker contents : Bytes}
  {e : EditError} {P : Buffer → Prop}

/-! ## How a batch ends -/

/-- A batch goes on where its first replacements have ended. -/
theorem Made.go_append (made : Made allocator style applied buffer first edited)
    (rest : List (Bytes × Bytes)) :
    replaceAll.go allocator style applied buffer (first ++ rest) =
      replaceAll.go allocator style (applied + first.length) edited rest := by
  induction made with
  | start => rfl
  | next replaced made ih =>
    rw [List.cons_append, replaceAll.go, replaced, List.length_cons, Nat.add_comm (List.length _),
      ← Nat.add_assoc]
    exact ih

theorem Made.go_eq (made : Made allocator style applied buffer pairs edited) :
    replaceAll.go allocator style applied buffer pairs =
      (edited, .ok (applied + pairs.length)) := by
  have all := made.go_append []
  rwa [List.append_nil] at all

theorem Made.go_eq_of_error (made : Made allocator style applied buffer first edited)
    (failed : edited.replace (allocator (applied + first.length)) style marker contents = .error e)
    (rest : List (Bytes × Bytes)) :
    replaceAll.go allocator style applied buffer (first ++ (marker, contents) :: rest) =
      (edited, .error e) := by
  rw [made.go_append, replaceAll.go, failed]

/-- **Every batch ends in one of two ways**: all of it has been made, or one replacement fails in
what those before it have left. -/
theorem exists_made (allocator : Nat → Allocator) (style : MarkerStyle) (applied : Nat)
    (buffer : Buffer) (pairs : List (Bytes × Bytes)) :
    (∃ edited, Made allocator style applied buffer pairs edited) ∨
      ∃ first marker contents rest edited e, pairs = first ++ (marker, contents) :: rest ∧
        Made allocator style applied buffer first edited ∧
        edited.replace (allocator (applied + first.length)) style marker contents = .error e := by
  induction pairs generalizing applied buffer with
  | nil => exact .inl ⟨buffer, .start⟩
  | cons pair pairs ih =>
    obtain ⟨marker, contents⟩ := pair
    cases replaced : buffer.replace (allocator applied) style marker contents with
    | error e => exact .inr ⟨[], marker, contents, pairs, buffer, e, rfl, .start, replaced⟩
    | ok next =>
      rcases ih (applied + 1) next with
        ⟨edited, made⟩ | ⟨first, marker', contents', rest, edited, e, rfl, made, failed⟩
      · exact .inl ⟨edited, .next replaced made⟩
      · refine .inr ⟨(marker, contents) :: first, marker', contents', rest, edited, e, rfl,
          .next replaced made, ?_⟩
        rwa [List.length_cons, Nat.add_comm first.length, ← Nat.add_assoc]

/-- **A batch succeeds** if and only if each replacement does in its turn, and all are counted. -/
theorem replaceAll_eq_ok_iff :
    buffer.replaceAll allocator style pairs = (edited, .ok count) ↔
      Made allocator style 0 buffer pairs edited ∧ count = pairs.length := by
  rw [replaceAll]
  constructor
  · intro all
    rcases exists_made allocator style 0 buffer pairs with
      ⟨last, made⟩ | ⟨first, marker, contents, rest, last, e, rfl, made, failed⟩
    · rw [made.go_eq, Nat.zero_add] at all
      cases all
      exact ⟨made, rfl⟩
    · rw [made.go_eq_of_error failed] at all
      cases all
  · rintro ⟨made, rfl⟩
    rw [made.go_eq, Nat.zero_add]

/-- **A batch fails** if and only if one of its replacements does in its turn, and it leaves what
those before it have left. -/
theorem replaceAll_eq_error_iff :
    buffer.replaceAll allocator style pairs = (edited, .error e) ↔
      ∃ first marker contents rest, pairs = first ++ (marker, contents) :: rest ∧
        Made allocator style 0 buffer first edited ∧
        edited.replace (allocator first.length) style marker contents = .error e := by
  rw [replaceAll]
  constructor
  · intro all
    rcases exists_made allocator style 0 buffer pairs with
      ⟨last, made⟩ | ⟨first, marker, contents, rest, last, e', rfl, made, failed⟩
    · rw [made.go_eq] at all
      cases all
    · rw [made.go_eq_of_error failed] at all
      cases all
      rw [Nat.zero_add] at failed
      exact ⟨first, marker, contents, rest, rfl, made, failed⟩
  · rintro ⟨first, marker, contents, rest, rfl, made, failed⟩
    rw [← Nat.zero_add first.length] at failed
    exact made.go_eq_of_error failed rest

/-! ## A batch in two parts -/

/-- Replacements that are counted from a later number on get the answers to that number. -/
theorem go_add (allocator : Nat → Allocator) (style : MarkerStyle) (before applied : Nat)
    (buffer : Buffer) (pairs : List (Bytes × Bytes)) :
    replaceAll.go allocator style (before + applied) buffer pairs =
      (replaceAll.go (fun k => allocator (before + k)) style applied buffer pairs).map id
        (.map (before + ·)) := by
  induction pairs generalizing applied buffer with
  | nil => rfl
  | cons pair pairs ih =>
    obtain ⟨marker, contents⟩ := pair
    simp only [replaceAll.go]
    cases buffer.replace (allocator (before + applied)) style marker contents with
    | error e => rfl
    | ok edited => exact ih (applied + 1) edited

/-- **A batch in two parts** is one batch and then another, with the counts added, unless the first
of them fails. -/
theorem replaceAll_append (allocator : Nat → Allocator) (style : MarkerStyle) (buffer : Buffer)
    (first second : List (Bytes × Bytes)) :
    buffer.replaceAll allocator style (first ++ second) =
      match buffer.replaceAll allocator style first with
      | (edited, .ok applied) =>
        (edited.replaceAll (fun k => allocator (applied + k)) style second).map id
          (.map (applied + ·))
      | (edited, .error e) => (edited, .error e) := by
  simp only [replaceAll]
  rcases exists_made allocator style 0 buffer first with
    ⟨edited, made⟩ | ⟨earlier, marker, contents, rest, edited, e, rfl, made, failed⟩
  · simp only [made.go_eq, made.go_append]
    exact go_add allocator style (0 + first.length) 0 edited second
  · rw [List.append_assoc, List.cons_append, made.go_eq_of_error failed,
      made.go_eq_of_error failed]

/-! ## What a batch preserves -/

/-- What every replacement preserves, replacements in turn preserve. -/
theorem Made.keeps (made : Made allocator style applied buffer pairs edited)
    (step : ∀ pair ∈ pairs, ∀ allocator buffer edited, P buffer →
      buffer.replace allocator style pair.1 pair.2 = .ok edited → P edited)
    (holds : P buffer) : P edited := by
  induction made with
  | start => exact holds
  | next replaced made ih =>
    apply ih
    · intro pair inside
      exact step pair (List.mem_cons_of_mem _ inside)
    · exact step _ List.mem_cons_self _ _ _ holds replaced

/-- **What every replacement preserves, a batch preserves**, whether it succeeds or fails. -/
theorem replaceAll_keeps (allocator : Nat → Allocator)
    (step : ∀ pair ∈ pairs, ∀ allocator buffer edited, P buffer →
      buffer.replace allocator style pair.1 pair.2 = .ok edited → P edited)
    (holds : P buffer) : P (buffer.replaceAll allocator style pairs).1 := by
  rw [replaceAll]
  rcases exists_made allocator style 0 buffer pairs with
    ⟨edited, made⟩ | ⟨first, marker, contents, rest, edited, e, rfl, made, failed⟩
  · rw [made.go_eq]
    exact made.keeps step holds
  · rw [made.go_eq_of_error failed]
    apply made.keeps _ holds
    intro pair inside
    exact step pair (List.mem_append_left _ inside)

/-! ## Where a batch stops -/

/-- **A failed batch has done what comes before the failure, and nothing else.** A batch that fails
has a first part that succeeds in turn, and what it leaves, bytes and room, is what that part leaves;
the replacement behind it fails there with the error of the batch, because its region is not found or
because the machine refuses it room, and if it is made in place it leaves the buffer as it was. A
batch that succeeds has made all its replacements and counts them. In place a batch leaves the same,
and it may be split anywhere, with the counts added. -/
theorem replaceAll_stops (fits : buffer.Fits)
    (small : ∀ pair ∈ pairs, pair.2.length ≤ Size.maxBlock) (allocator : Nat → Allocator)
    (style : MarkerStyle) :
    (∀ edited e, buffer.replaceAll allocator style pairs = (edited, .error e) →
      ∃ first marker contents rest, pairs = first ++ (marker, contents) :: rest ∧
        Made allocator style 0 buffer first edited ∧
        edited.replace (allocator first.length) style marker contents = .error e ∧
        (InPlace.replace (allocator first.length) style marker contents).run edited =
          (.error e, edited) ∧
        ((∃ cause, edited.find style marker = .error cause ∧ e = .scan cause) ∨
          ∃ requested, 0 < requested ∧
            edited.grow? (allocator first.length) requested = none ∧
            e = .allocation requested)) ∧
    (∀ edited applied, buffer.replaceAll allocator style pairs = (edited, .ok applied) →
      Made allocator style 0 buffer pairs edited ∧ applied = pairs.length) ∧
    (InPlace.replaceAll allocator style pairs 0).run buffer =
      (buffer.replaceAll allocator style pairs).swap ∧
    ∀ first second, pairs = first ++ second →
      buffer.replaceAll allocator style pairs =
        match buffer.replaceAll allocator style first with
        | (edited, .ok applied) =>
          (edited.replaceAll (fun k => allocator (applied + k)) style second).map id
            (.map (applied + ·))
        | (edited, .error e) => (edited, .error e) := by
  refine ⟨?_, ?_, InPlace.replaceAll_run fits small allocator style 0, ?_⟩
  · intro edited e all
    obtain ⟨first, marker, contents, rest, rfl, made, failed⟩ := replaceAll_eq_error_iff.mp all
    -- The failing replacement comes to a buffer that the machine has granted.
    have fits' : edited.Fits := by
      apply made.keeps _ fits
      intro pair inside allocator buffer edited fits replaced
      exact fits.replaced (small pair (List.mem_append_left _ inside)) replaced
    have small' : contents.length ≤ Size.maxBlock := small (marker, contents) (by simp)
    have in_place := InPlace.replace_run fits' small' (allocator first.length) style marker
    rw [failed] at in_place
    refine ⟨first, marker, contents, rest, rfl, made, failed, in_place, ?_⟩
    rcases replace_eq_error_cases fits' small' failed with
      ⟨cause, missing, rfl⟩ | ⟨region, -, more, refused, rfl⟩
    · exact .inl ⟨cause, missing, rfl⟩
    · exact .inr ⟨_, more, refused, rfl⟩
  · intro edited applied all
    exact replaceAll_eq_ok_iff.mp all
  · rintro first second rfl
    exact replaceAll_append allocator style buffer first second

/-- A machine that grants nine bytes and no more: the first replacement gets its room, the second is
refused one byte, and the third is not tried. -/
theorem replaceAll_stops_of_refusal :
    ∃ edited,
      (ofBytes [0x23, 0x7b, 0x74, 0x0a, 0x23, 0x7d, 0x74]).replaceAll (fun _ => .below 10) ⟨[0x23]⟩
        [([0x74], [0x78]), ([0x74], [0x79, 0x79]), ([0x74], [])] =
          (edited, .error (.allocation 1)) ∧
      ∃ first marker contents rest,
        [([0x74], [0x78]), ([0x74], [0x79, 0x79]), ([0x74], [])] =
          first ++ (marker, contents) :: rest ∧
        Made (fun _ => .below 10) ⟨[0x23]⟩ 0
          (ofBytes [0x23, 0x7b, 0x74, 0x0a, 0x23, 0x7d, 0x74]) first edited ∧
        (InPlace.replace (.below 10) ⟨[0x23]⟩ marker contents).run edited =
          (.error (.allocation 1), edited) := by
  have stopped : (ofBytes [0x23, 0x7b, 0x74, 0x0a, 0x23, 0x7d, 0x74]).replaceAll
      (fun _ => .below 10) ⟨[0x23]⟩ [([0x74], [0x78]), ([0x74], [0x79, 0x79]), ([0x74], [])] =
        (⟨[0x23, 0x7b, 0x74, 0x0a, 0x78, 0x0a, 0x23, 0x7d, 0x74], 9⟩, .error (.allocation 1)) := rfl
  obtain ⟨first, marker, contents, rest, parts, made, -, in_place, -⟩ :=
    (replaceAll_stops (fits_ofBytes (by decide)) (by decide) _ _).1 _ _ stopped
  exact ⟨_, stopped, first, marker, contents, rest, parts, made, in_place⟩

end MarkedRegions.Buffer
