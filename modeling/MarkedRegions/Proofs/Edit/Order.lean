import MarkedRegions.Proofs.Edit.Apart
import MarkedRegions.Proofs.Edit.Room

/-!
# The order of replacements

Several replacements are made one after the other, and each scans a text that the others have
changed. If their regions lie apart, and the contents of none of them are taken for marker lines that
matter to another, then the order makes no difference: all of them succeed, and the same bytes are
left. A replacement keeps the regions that are still to be replaced apart from each other and as
independent as they were, so what has to be compared is two replacements in either order; and two
edits of the same text at places apart from each other commute, once the second of them is made where
its place has moved to.

## Main definitions

* `Scan.rewrite?`: what a replacement leaves of a text, if its region is found
* `Scan.Independent`: two replacements that do not concern each other
* `Scan.Ready`: replacements that can be made in any order

## Main results

* `Ready.step`: one replacement leaves the others ready
* `Independent.comm`: two of them commute
* `foldlM_rewrite?_perm`: all of them do
* `replaceAll_perm`: the same for buffers
-/

namespace MarkedRegions

/-- **Two edits commute** if one of them is made behind the other, and in its turn where its place
has moved to. -/
theorem Region.rewrite_comm {region behind moved : Region} {text contents contents' : Bytes}
    (ordered : region.start ≤ region.stop) (apart : region.stop ≤ behind.start)
    (ordered' : behind.start ≤ behind.stop) (within : behind.stop ≤ text.length)
    (moves : behind.MovesTo text moved (region.rewrite text contents)) :
    moved.rewrite (region.rewrite text contents) contents' =
      region.rewrite (behind.rewrite text contents') contents := by
  have suffix : moved.addedSuffix = behind.addedSuffix := by
    rw [addedSuffix, addedSuffix, moves.trailing, moves.ending]
  -- In front of both places stands what the first edit has left there.
  have front : region.rewrite text contents =
      (text.take region.start ++ (contents ++ region.addedSuffix)) ++ text.drop region.stop := by
    simp only [rewrite, List.append_assoc]
  have size := congrArg List.length front
  rw [List.length_append, List.length_drop] at size
  have start := moves.start
  have stop := moves.stop
  have start' : moved.start =
      (text.take region.start ++ (contents ++ region.addedSuffix)).length +
        (behind.start - region.stop) := by omega
  have stop' : moved.stop =
      (text.take region.start ++ (contents ++ region.addedSuffix)).length +
        (behind.stop - region.stop) := by omega
  -- Between them stands what stood there before, whichever edit is made first.
  have head : (region.rewrite text contents).take moved.start =
      text.take region.start ++ (contents ++ (region.addedSuffix ++
        (text.drop region.stop).take (behind.start - region.stop))) := by
    rw [start', front, List.take_length_add_append]
    simp only [List.append_assoc]
  have tail : (region.rewrite text contents).drop moved.stop = text.drop behind.stop := by
    rw [stop', front, List.drop_length_add_append, List.drop_drop, Nat.add_sub_cancel' (by omega)]
  have length : (text.take behind.start).length = behind.start :=
    List.length_take_of_le (Nat.le_trans ordered' within)
  have head' : (behind.rewrite text contents').take region.start = text.take region.start := by
    rw [rewrite, List.take_append_of_le_length (by omega), List.take_take,
      Nat.min_eq_left (by omega)]
  have tail' : (behind.rewrite text contents').drop region.stop =
      (text.drop region.stop).take (behind.start - region.stop) ++
        (contents' ++ (behind.addedSuffix ++ text.drop behind.stop)) := by
    rw [rewrite, List.drop_append_of_le_length (by omega), List.drop_take]
  calc moved.rewrite (region.rewrite text contents) contents'
      = (region.rewrite text contents).take moved.start ++
          (contents' ++ (moved.addedSuffix ++
            (region.rewrite text contents).drop moved.stop)) := rfl
    _ = text.take region.start ++ (contents ++ (region.addedSuffix ++
          ((text.drop region.stop).take (behind.start - region.stop) ++
            (contents' ++ (behind.addedSuffix ++ text.drop behind.stop))))) := by
        rw [head, tail, suffix]
        simp only [List.append_assoc]
    _ = (behind.rewrite text contents').take region.start ++ (contents ++ (region.addedSuffix ++
          (behind.rewrite text contents').drop region.stop)) := by rw [head', tail']
    _ = region.rewrite (behind.rewrite text contents') contents := rfl

namespace Scan

open Line (Passes Malformed ClosesNothing Opens cut)

theorem Seams.rewritten_eq {query : Query} {text : Bytes} {region : Region}
    (seams : Seams query text region) (contents : Bytes) :
    seams.rewritten contents = region.rewrite text contents := by
  rw [Region.rewrite, seams.joins.take_start, seams.joins.drop_stop, rewritten, List.append_assoc]

/-- **What a replacement leaves of a text**, if its region is found. The pair holds the name of the
region and the new contents. -/
def rewrite? (lead text : Bytes) (pair : Bytes × Bytes) : Option Bytes :=
  match find ⟨lead, pair.1⟩ text with
  | .ok region => some (region.rewrite text pair.2)
  | .error _ => none

/-- **Two replacements that do not concern each other**: their regions lie apart, and the contents of
neither have a line that is malformed, closes without a name, or opens the region of the other. -/
structure Independent (lead text : Bytes) (first second : Bytes × Bytes) : Prop where
  apart : Precedes lead (cut (.ofText text) text) first.1 second.1 ∨
    Precedes lead (cut (.ofText text) text) second.1 first.1
  first_harmless : ∀ line ∈ cut (.ofText text) first.2,
    ¬ Malformed lead line ∧ ¬ ClosesNothing lead line ∧ ¬ Opens lead second.1 line
  second_harmless : ∀ line ∈ cut (.ofText text) second.2,
    ¬ Malformed lead line ∧ ¬ ClosesNothing lead line ∧ ¬ Opens lead first.1 line

/-- **Replacements that can be made in any order.** -/
structure Ready (lead text : Bytes) (pairs : List (Bytes × Bytes)) : Prop where
  located : ∀ pair ∈ pairs, ∃ region, find ⟨lead, pair.1⟩ text = .ok region
  independent : pairs.Pairwise (Independent lead text)

variable {lead text text' : Bytes} {pair first second third : Bytes × Bytes}
  {pairs pairs' : List (Bytes × Bytes)}

theorem Independent.symm (independent : Independent lead text first second) :
    Independent lead text second first :=
  ⟨independent.apart.symm, independent.second_harmless, independent.first_harmless⟩

theorem Ready.perm (ready : Ready lead text pairs) (perm : pairs.Perm pairs') :
    Ready lead text pairs' := by
  refine ⟨?_, ?_⟩
  · intro pair inside
    exact ready.located pair (perm.mem_iff.mpr inside)
  · exact (perm.pairwise_iff Independent.symm).mp ready.independent

/-! ## One replacement leaves the others ready -/

/-- Where the region of another name stands after an exchange of lines. -/
theorem exists_encloses_exchanged {marker other : Bytes} {lines inserted : List Bytes}
    {i j k l : Nat} (around : Encloses lead marker lines i j)
    (encloses : Encloses lead other lines k l)
    (apart : Precedes lead lines marker other ∨ Precedes lead lines other marker)
    (passes : ∀ line ∈ inserted, Passes lead other false line) :
    ∃ k' l', Encloses lead other (exchanged lines inserted i j) k' l' ∧
      (l < i ∧ k' = k ∧ l' = l ∨
        j < k ∧ k' + j = k + (lines.take (i + 1) ++ inserted).length ∧
          l' + j = l + (lines.take (i + 1) ++ inserted).length) := by
  have ordered := encloses.ordered
  rcases apart with ⟨i', j', k', l', around', encloses', behind⟩ |
    ⟨k', l', i', j', encloses', around', before⟩
  · obtain ⟨rfl, rfl⟩ := around'.unique around
    obtain ⟨rfl, rfl⟩ := encloses'.unique encloses
    exact ⟨_, _, encloses_exchanged_of_le encloses around.ordered behind.le passes,
      .inr ⟨behind, by omega, by omega⟩⟩
  · obtain ⟨rfl, rfl⟩ := around'.unique around
    obtain ⟨rfl, rfl⟩ := encloses'.unique encloses
    exact ⟨_, _, encloses_exchanged_of_lt inserted j' encloses before
      (around.ordered.trans around.lt_length), .inl ⟨before, rfl, rfl⟩⟩

/-- **Regions that lie apart from an edit and from each other** lie apart after it, in the same
order. -/
theorem Precedes.exchanged {marker other other' : Bytes} {lines inserted : List Bytes} {i j : Nat}
    (precedes : Precedes lead lines other other') (around : Encloses lead marker lines i j)
    (apart : Precedes lead lines marker other ∨ Precedes lead lines other marker)
    (apart' : Precedes lead lines marker other' ∨ Precedes lead lines other' marker)
    (passes : ∀ line ∈ inserted, Passes lead other false line)
    (passes' : ∀ line ∈ inserted, Passes lead other' false line) :
    Precedes lead (exchanged lines inserted i j) other other' := by
  obtain ⟨k, l, m, n, encloses, encloses', before⟩ := precedes
  obtain ⟨k', l', moved, place⟩ := exists_encloses_exchanged around encloses apart passes
  obtain ⟨m', n', moved', place'⟩ := exists_encloses_exchanged around encloses' apart' passes'
  refine ⟨k', l', m', n', moved, moved', ?_⟩
  have length : (lines.take (i + 1) ++ inserted).length = i + 1 + inserted.length := by
    rw [List.length_append,
      List.length_take_of_le (around.ordered.trans around.lt_length)]
  have ordered := encloses.ordered
  have ordered' := encloses'.ordered
  have ordered'' := around.ordered
  omega

/-- **One replacement leaves two others independent.** -/
theorem Independent.rewritten {region : Region}
    (independent : Independent lead text second third)
    (with_second : Independent lead text first second)
    (with_third : Independent lead text first third)
    (seams : Seams ⟨lead, first.1⟩ text region) :
    Independent lead (seams.rewritten first.2) second third := by
  have style := seams.ofText_rewritten first.2
  have lines := seams.cut_rewritten_eq_exchanged first.2
  have passes : ∀ line ∈ cut (.ofText text) first.2, Passes lead second.1 false line :=
    fun line inside => Line.passes_closed_iff.mpr (with_second.first_harmless line inside)
  have passes' : ∀ line ∈ cut (.ofText text) first.2, Passes lead third.1 false line :=
    fun line inside => Line.passes_closed_iff.mpr (with_third.first_harmless line inside)
  refine ⟨?_, ?_, ?_⟩
  · rw [style, lines]
    rcases independent.apart with before | behind
    · exact .inl (before.exchanged seams.encloses with_second.apart with_third.apart passes passes')
    · exact .inr (behind.exchanged seams.encloses with_third.apart with_second.apart passes' passes)
  · rw [style]
    exact independent.first_harmless
  · rw [style]
    exact independent.second_harmless

/-- What is found of a region that is independent of an edit. -/
theorem Independent.exists_find {region neighbour : Region}
    (independent : Independent lead text first second) (seams : Seams ⟨lead, first.1⟩ text region)
    (located : find ⟨lead, second.1⟩ text = .ok neighbour) :
    ∃ moved, find ⟨lead, second.1⟩ (seams.rewritten first.2) = .ok moved ∧
      (Precedes lead (cut (.ofText text) text) second.1 first.1 ∧ moved = neighbour ∨
        Precedes lead (cut (.ofText text) text) first.1 second.1 ∧
          neighbour.MovesTo text moved (seams.rewritten first.2)) := by
  rcases independent.apart with behind | before
  · obtain ⟨moved, found, moves⟩ := (seams.find_rewritten_behind_iff behind located).mpr
      fun line inside => Line.passes_closed_iff.mpr (independent.first_harmless line inside)
    exact ⟨moved, found, .inr ⟨behind, moves⟩⟩
  · exact ⟨neighbour, (seams.find_rewritten_before _ before located).1, .inl ⟨before, rfl⟩⟩

/-- **One replacement leaves the others ready.** -/
theorem Ready.step (ready : Ready lead text (pair :: pairs)) :
    ∃ text', rewrite? lead text pair = some text' ∧ Ready lead text' pairs := by
  obtain ⟨region, found⟩ := ready.located pair List.mem_cons_self
  obtain ⟨seams⟩ := exists_seams found
  obtain ⟨with_others, independent⟩ := List.pairwise_cons.mp ready.independent
  refine ⟨seams.rewritten pair.2, by rw [rewrite?, found, seams.rewritten_eq], ?_, ?_⟩
  · intro other inside
    obtain ⟨neighbour, located⟩ := ready.located other (List.mem_cons_of_mem pair inside)
    obtain ⟨moved, again, -⟩ := (with_others other inside).exists_find seams located
    exact ⟨moved, again⟩
  · refine independent.imp_of_mem ?_
    intro other other' inside inside' apart
    exact apart.rewritten (with_others other inside) (with_others other' inside') seams

/-! ## Two replacements commute -/

/-- The region of a name, behind a region that precedes it. -/
theorem Independent.comm_of_precedes {region behind : Region}
    (independent : Independent lead text first second)
    (precedes : Precedes lead (cut (.ofText text) text) first.1 second.1)
    (found : find ⟨lead, first.1⟩ text = .ok region)
    (located : find ⟨lead, second.1⟩ text = .ok behind) :
    rewrite? lead (region.rewrite text first.2) second =
      rewrite? lead (behind.rewrite text second.2) first := by
  obtain ⟨seams⟩ := exists_seams found
  obtain ⟨seams'⟩ := exists_seams located
  have apart := (precedes_iff found located).mp precedes
  obtain ⟨moved, again, moves⟩ := (seams.find_rewritten_behind_iff precedes located).mpr
    fun line inside => Line.passes_closed_iff.mpr (independent.first_harmless line inside)
  obtain ⟨still, -⟩ := seams'.find_rewritten_before second.2 precedes found
  rw [seams.rewritten_eq] at again moves
  rw [seams'.rewritten_eq] at still
  rw [rewrite?, rewrite?, again, still]
  exact congrArg some (Region.rewrite_comm seams.joins.ordered (by omega) seams'.joins.ordered
    seams'.joins.within moves)

/-- **Two independent replacements commute.** -/
theorem Independent.comm (independent : Independent lead text first second)
    (ready : Ready lead text [first, second]) :
    (rewrite? lead text first).bind (rewrite? lead · second) =
      (rewrite? lead text second).bind (rewrite? lead · first) := by
  obtain ⟨region, found⟩ := ready.located first (by simp)
  obtain ⟨neighbour, located⟩ := ready.located second (by simp)
  have left : rewrite? lead text first = some (region.rewrite text first.2) := by
    rw [rewrite?, found]
  have right : rewrite? lead text second = some (neighbour.rewrite text second.2) := by
    rw [rewrite?, located]
  rw [left, right, Option.bind_some, Option.bind_some]
  rcases independent.apart with before | behind
  · exact independent.comm_of_precedes before found located
  · exact (independent.symm.comm_of_precedes behind located found).symm

/-! ## All of them commute -/

theorem Ready.exists_foldlM (ready : Ready lead text pairs) :
    ∃ text', pairs.foldlM (rewrite? lead) text = some text' := by
  induction pairs generalizing text with
  | nil => exact ⟨text, rfl⟩
  | cons pair pairs ih =>
    obtain ⟨text', rewritten, ready'⟩ := ready.step
    rw [List.foldlM_cons, rewritten]
    exact ih ready'

/-- **Replacements that are ready leave the same text in any order.** The induction is on the
permutation; a step of it is a replacement made first in both orders, or two that are exchanged. -/
theorem foldlM_rewrite?_perm (perm : pairs.Perm pairs') (ready : Ready lead text pairs) :
    pairs.foldlM (rewrite? lead) text = pairs'.foldlM (rewrite? lead) text := by
  induction perm generalizing text with
  | nil => rfl
  | cons pair perm ih =>
    obtain ⟨text', rewritten, ready'⟩ := ready.step
    rw [List.foldlM_cons, List.foldlM_cons, rewritten]
    exact ih ready'
  | swap first second pairs =>
    have independent := List.rel_of_pairwise_cons ready.independent List.mem_cons_self
    have both : Ready lead text [second, first] := by
      refine ⟨?_, List.pairwise_pair.mpr independent⟩
      intro pair inside
      exact ready.located pair (List.mem_of_mem_take (i := 2) (by simpa using inside))
    have swapped := independent.comm both
    simp only [List.foldlM_cons, bind, ← Option.bind_assoc, swapped]
  | trans perm perm' ih ih' => exact (ih ready).trans (ih' (ready.perm perm))

end Scan

namespace Buffer

open Scan (Independent Ready rewrite?)

variable {style : MarkerStyle} {buffer : Buffer} {text : Bytes} {pair : Bytes × Bytes}
  {pairs : List (Bytes × Bytes)}

/-- A replacement that is granted its room leaves what it leaves of the text. -/
theorem exists_replace_of_rewrite? {allocator : Allocator} (fits : buffer.Fits)
    (small : pair.2.length ≤ Size.maxBlock)
    (rewritten : rewrite? style.lead buffer.bytes pair = some text)
    (granted : ∀ requested,
      buffer.replace allocator style pair.1 pair.2 ≠ .error (.allocation requested)) :
    ∃ edited, buffer.replace allocator style pair.1 pair.2 = .ok edited ∧ edited.bytes = text ∧
      edited.Fits := by
  cases found : buffer.find style pair.1 with
  | error cause =>
    rw [rewrite?, show Scan.find ⟨style.lead, pair.1⟩ buffer.bytes = .error cause from found]
      at rewritten
    cases rewritten
  | ok region =>
    rcases replace_cases fits small found allocator with
      ⟨edited, replaced, fits'⟩ | ⟨requested, refused⟩
    · refine ⟨edited, replaced, ?_, fits'⟩
      obtain ⟨region', found', seams, bytes⟩ := exists_rewritten replaced
      rw [rewrite?, show Scan.find ⟨style.lead, pair.1⟩ buffer.bytes = .ok region' from found']
        at rewritten
      rw [bytes, seams.rewritten_eq]
      exact Option.some.inj rewritten
    · exact absurd refused (granted requested)

/-- Replacements that are all granted their room leave what they leave of the text, one after the
other. -/
theorem exists_go_of_foldlM {allocator : Nat → Allocator} (applied : Nat) (fits : buffer.Fits)
    (small : ∀ pair ∈ pairs, pair.2.length ≤ Size.maxBlock)
    (rewritten : pairs.foldlM (rewrite? style.lead) buffer.bytes = some text)
    (granted : ∀ requested,
      (replaceAll.go allocator style applied buffer pairs).2 ≠ .error (.allocation requested)) :
    ∃ edited, replaceAll.go allocator style applied buffer pairs =
      (edited, .ok (applied + pairs.length)) ∧ edited.bytes = text := by
  induction pairs generalizing buffer applied with
  | nil => exact ⟨buffer, rfl, Option.some.inj rewritten⟩
  | cons pair pairs ih =>
    rw [List.foldlM_cons, Option.bind_eq_bind, Option.bind_eq_some_iff] at rewritten
    obtain ⟨first, once, rest⟩ := rewritten
    have granted' : ∀ requested, buffer.replace (allocator applied) style pair.1 pair.2 ≠
        .error (.allocation requested) := by
      intro requested refused
      apply granted requested
      rw [replaceAll.go, refused]
    obtain ⟨edited, replaced, rfl, fits'⟩ := exists_replace_of_rewrite? fits
      (small pair List.mem_cons_self) once granted'
    have next : replaceAll.go allocator style applied buffer (pair :: pairs) =
        replaceAll.go allocator style (applied + 1) edited pairs := by
      rw [replaceAll.go, replaced]
    rw [next] at granted ⊢
    obtain ⟨last, all, bytes⟩ := ih (applied + 1) fits'
      (fun pair inside => small pair (List.mem_cons_of_mem _ inside)) rest granted
    refine ⟨last, ?_, bytes⟩
    rw [all, List.length_cons, Nat.add_assoc, Nat.add_comm 1]

/-- **Independent replacements can be made in any order.** If every region is found, and any two of
the replacements are independent of each other, then they leave one text: in whichever order they are
made, and whatever the machine grants to each, as long as it refuses none of them its room, all of
them are made, and that text is left. -/
theorem replaceAll_perm (fits : buffer.Fits)
    (small : ∀ pair ∈ pairs, pair.2.length ≤ Size.maxBlock)
    (located : ∀ pair ∈ pairs, ∃ region, buffer.find style pair.1 = .ok region)
    (independent : pairs.Pairwise (Independent style.lead buffer.bytes)) :
    ∃ text, ∀ pairs', pairs'.Perm pairs → ∀ allocator : Nat → Allocator,
      (∀ requested, (buffer.replaceAll allocator style pairs').2 ≠
        .error (.allocation requested)) →
      ∃ edited, buffer.replaceAll allocator style pairs' = (edited, .ok pairs.length) ∧
        edited.bytes = text := by
  have ready : Ready style.lead buffer.bytes pairs := ⟨located, independent⟩
  obtain ⟨text, rewritten⟩ := ready.exists_foldlM
  refine ⟨text, ?_⟩
  intro pairs' perm allocator granted
  rw [Scan.foldlM_rewrite?_perm perm.symm ready] at rewritten
  obtain ⟨edited, all, bytes⟩ := exists_go_of_foldlM 0 fits
    (fun pair inside => small pair (perm.mem_iff.mp inside)) rewritten granted
  refine ⟨edited, ?_, bytes⟩
  rw [replaceAll, all, Nat.zero_add, perm.length_eq]

/-- Two replacements whose contents hold marker lines, none of which matters to the other: either
order leaves the same bytes. -/
theorem replaceAll_swapped :
    ∃ edited edited',
      (ofBytes [0x23, 0x7b, 0x74, 0x0a, 0x23, 0x7d, 0x74, 0x0a, 0x23, 0x7b, 0x75, 0x0a, 0x71, 0x0a,
        0x23, 0x7d, 0x75]).replaceAll (fun _ => .generous) ⟨[0x23]⟩
          [([0x74], [0x23, 0x7d, 0x7a, 0x0a, 0x23, 0x7b, 0x74]), ([0x75], [0x23, 0x7b, 0x75])] =
            (edited, .ok 2) ∧
      (ofBytes [0x23, 0x7b, 0x74, 0x0a, 0x23, 0x7d, 0x74, 0x0a, 0x23, 0x7b, 0x75, 0x0a, 0x71, 0x0a,
        0x23, 0x7d, 0x75]).replaceAll (fun _ => .generous) ⟨[0x23]⟩
          [([0x75], [0x23, 0x7b, 0x75]), ([0x74], [0x23, 0x7d, 0x7a, 0x0a, 0x23, 0x7b, 0x74])] =
            (edited', .ok 2) ∧
      edited.bytes = edited'.bytes := by
  have found : (ofBytes [0x23, 0x7b, 0x74, 0x0a, 0x23, 0x7d, 0x74, 0x0a, 0x23, 0x7b, 0x75, 0x0a,
      0x71, 0x0a, 0x23, 0x7d, 0x75]).find ⟨[0x23]⟩ [0x74] = .ok ⟨4, 4, .lf, false⟩ := rfl
  have located : (ofBytes [0x23, 0x7b, 0x74, 0x0a, 0x23, 0x7d, 0x74, 0x0a, 0x23, 0x7b, 0x75, 0x0a,
      0x71, 0x0a, 0x23, 0x7d, 0x75]).find ⟨[0x23]⟩ [0x75] = .ok ⟨12, 13, .lf, true⟩ := rfl
  have passes : ∀ line ∈ Line.cut .lf [0x23, 0x7d, 0x7a, 0x0a, 0x23, 0x7b, 0x74],
      Line.Passes [0x23] [0x75] false line := by decide
  have passes' : ∀ line ∈ Line.cut .lf [0x23, 0x7b, 0x75],
      Line.Passes [0x23] [0x74] false line := by decide
  have independent : [([0x74], [0x23, 0x7d, 0x7a, 0x0a, 0x23, 0x7b, 0x74]),
      ([0x75], [0x23, 0x7b, 0x75])].Pairwise
        (Independent [0x23] [0x23, 0x7b, 0x74, 0x0a, 0x23, 0x7d, 0x74, 0x0a, 0x23, 0x7b, 0x75, 0x0a,
          0x71, 0x0a, 0x23, 0x7d, 0x75]) := by
    refine List.pairwise_pair.mpr ⟨.inl ((Scan.precedes_iff found located).mpr (by decide)), ?_, ?_⟩
    · exact fun line inside => Line.passes_closed_iff.mp (passes line inside)
    · exact fun line inside => Line.passes_closed_iff.mp (passes' line inside)
  obtain ⟨text, same⟩ := replaceAll_perm (fits_ofBytes (by decide)) (by decide)
    (List.forall_mem_cons.mpr ⟨⟨_, found⟩, List.forall_mem_singleton.mpr ⟨_, located⟩⟩) independent
  obtain ⟨edited, all, bytes⟩ := same _ (.refl _) (fun _ => .generous) nofun
  obtain ⟨edited', all', bytes'⟩ := same _ (.swap ..) (fun _ => .generous) nofun
  exact ⟨edited, edited', all, all', bytes.trans bytes'.symm⟩

end Buffer

end MarkedRegions
