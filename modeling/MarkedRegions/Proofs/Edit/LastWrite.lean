import MarkedRegions.Proofs.Edit.InTurn
import MarkedRegions.Proofs.Edit.Order
import MarkedRegions.Proofs.Edit.Reread

/-!
# The last write wins

If contents are written in place of contents that have just been written, nothing is left of the
first. For that it does not matter what the region looked like before: the first write makes sure that
a terminator stands behind its contents, by keeping the one that is there or by adding one, and the
second write finds it and keeps it. What does matter is that the second write finds exactly what the
first has written, and so the first contents must be inert. About the last contents nothing is asked.

## Main definitions

* `Buffer.Granted`: a result that is not a refusal of room

## Main results

* `rewrite?_rewritten_of_inert`: two writes of a text
* `foldlM_rewrite?_of_inert`: any number of them
* `replace_last_wins`: the same for buffers
-/

namespace MarkedRegions

namespace Scan

open Line (IsInert)

variable {lead marker text contents last : Bytes} {region : Region} {earlier : List Bytes}

/-- **A write in place of what has been written** leaves what it would have left at first. -/
theorem Seams.rewrite_rewritten {query : Query} (seams : Seams query text region)
    (contents last : Bytes) :
    (Region.mk region.start (region.start + contents.length) region.ending true).rewrite
      (seams.rewritten contents) last = seams.rewritten last := by
  have start : (seams.head ++ (LineEnding.ofText text).bytes).length = region.start := by
    rw [seams.start_eq, List.length_append, LineEnding.width]
  have front (contents : Bytes) : seams.rewritten contents =
      (seams.head ++ (LineEnding.ofText text).bytes) ++
        (contents ++ ((LineEnding.ofText text).bytes ++ seams.tail)) := by
    rw [Seams.rewritten, List.append_assoc]
  -- The terminator behind the first contents is there to keep.
  rw [Region.rewrite, Region.addedSuffix, if_pos rfl, List.nil_append, ← List.drop_drop,
    front contents, List.take_left' start, List.drop_left' start, List.drop_left, front last]

/-- **Two writes are the second**, if what is written first is inert. -/
theorem rewrite?_rewritten_of_inert (found : find ⟨lead, marker⟩ text = .ok region)
    (seams : Seams ⟨lead, marker⟩ text region)
    (inert : IsInert lead marker (.ofText text) contents) (last : Bytes) :
    rewrite? lead (seams.rewritten contents) (marker, last) = rewrite? lead text (marker, last) := by
  rw [rewrite?, rewrite?, seams.find_rewritten_of_inert inert, found]
  exact congrArg some ((seams.rewrite_rewritten contents last).trans (seams.rewritten_eq last))

/-- **Any number of writes are the last.** Each of the others finds what the one before it has
written, and leaves the style of the text, in which the next one has to be inert, as it is. -/
theorem foldlM_rewrite?_of_inert (found : find ⟨lead, marker⟩ text = .ok region)
    (inert : ∀ contents ∈ earlier, IsInert lead marker (.ofText text) contents) (last : Bytes) :
    ((earlier ++ [last]).map (marker, ·)).foldlM (rewrite? lead) text =
      rewrite? lead text (marker, last) := by
  induction earlier generalizing text region with
  | nil =>
    rw [List.nil_append, List.map_singleton, List.foldlM_cons]
    exact bind_pure _
  | cons contents earlier ih =>
    obtain ⟨seams⟩ := exists_seams found
    have inert_first := inert contents List.mem_cons_self
    have written : rewrite? lead text (marker, contents) = some (seams.rewritten contents) := by
      rw [rewrite?, found, seams.rewritten_eq]
    have again := seams.find_rewritten_of_inert inert_first
    have inert_rest : ∀ contents' ∈ earlier,
        IsInert lead marker (.ofText (seams.rewritten contents)) contents' := by
      intro contents' inside
      rw [seams.ofText_rewritten]
      exact inert contents' (List.mem_cons_of_mem _ inside)
    calc ((contents :: earlier ++ [last]).map (marker, ·)).foldlM (rewrite? lead) text
        = ((earlier ++ [last]).map (marker, ·)).foldlM (rewrite? lead)
            (seams.rewritten contents) := by
          rw [List.cons_append, List.map_cons, List.foldlM_cons, written]
          rfl
      _ = rewrite? lead (seams.rewritten contents) (marker, last) := ih again inert_rest
      _ = rewrite? lead text (marker, last) :=
          rewrite?_rewritten_of_inert found seams inert_first last

end Scan

namespace Buffer

open Line (IsInert)
open Scan (rewrite?)

variable {style : MarkerStyle} {marker last : Bytes} {buffer : Buffer} {earlier : List Bytes}

/-- **No room is refused** on the way to a result. -/
def Granted {α : Type} (result : Except EditError α) : Prop :=
  ∀ requested, result ≠ .error (.allocation requested)

/-- A batch for a name that is not found fails at once. -/
theorem replaceAll_of_missing {cause : ScanError} (missing : buffer.find style marker = .error cause)
    (allocator : Nat → Allocator) (contents : Bytes) (rest : List (Bytes × Bytes)) :
    buffer.replaceAll allocator style ((marker, contents) :: rest) =
      (buffer, .error (.scan cause)) := by
  rw [replaceAll, replaceAll.go, replace, missing]

/-- A batch of writes to one region, all granted their room, leaves what its last one leaves of the
text. -/
theorem exists_replaceAll_of_inert {region : Region} (fits : buffer.Fits)
    (small : ∀ contents ∈ earlier ++ [last], contents.length ≤ Size.maxBlock)
    (inert : ∀ contents ∈ earlier, IsInert style.lead marker (.ofText buffer.bytes) contents)
    (found : buffer.find style marker = .ok region) {allocator : Nat → Allocator}
    (granted : Granted
      (buffer.replaceAll allocator style ((earlier ++ [last]).map (marker, ·))).2) :
    ∃ edited, buffer.replaceAll allocator style ((earlier ++ [last]).map (marker, ·)) =
        (edited, .ok (earlier.length + 1)) ∧
      edited.bytes = region.rewrite buffer.bytes last := by
  have located : Scan.find ⟨style.lead, marker⟩ buffer.bytes = .ok region := found
  have rewritten : ((earlier ++ [last]).map (marker, ·)).foldlM (rewrite? style.lead)
      buffer.bytes = some (region.rewrite buffer.bytes last) := by
    rw [Scan.foldlM_rewrite?_of_inert located inert, rewrite?, located]
  have small' : ∀ pair ∈ (earlier ++ [last]).map (marker, ·), pair.2.length ≤ Size.maxBlock := by
    intro pair inside
    obtain ⟨contents, written, rfl⟩ := List.mem_map.mp inside
    exact small contents written
  obtain ⟨edited, all, bytes⟩ := exists_go_of_foldlM 0 fits small' rewritten granted
  refine ⟨edited, ?_, bytes⟩
  rw [replaceAll, all, Nat.zero_add, List.length_map, List.length_append, List.length_singleton]

/-- **The last write wins.** Contents that are written in place of inert contents that have been
written leave the bytes that they would have left in the first place. More generally, a batch that
writes to one region, with contents that are inert but for the last, leaves the bytes that its last
replacement leaves when it is made alone; and if the region is not found, then both fail for the same
reason and leave the buffer as it was. All this is as far as no room is refused, which depends on what
has been written in between. -/
theorem replace_last_wins (fits : buffer.Fits)
    (small : ∀ contents ∈ earlier ++ [last], contents.length ≤ Size.maxBlock)
    (inert : ∀ contents ∈ earlier, IsInert style.lead marker (.ofText buffer.bytes) contents) :
    (∀ contents ∈ earlier, ∀ allocator edited,
      buffer.replace allocator style marker contents = .ok edited →
      ∀ allocator' allocator'',
        Granted (edited.replace allocator' style marker last) →
        Granted (buffer.replace allocator'' style marker last) →
        ∃ twice once, edited.replace allocator' style marker last = .ok twice ∧
          buffer.replace allocator'' style marker last = .ok once ∧ twice.bytes = once.bytes) ∧
    ∀ allocator allocator',
      Granted (buffer.replaceAll allocator style ((earlier ++ [last]).map (marker, ·))).2 →
      Granted (buffer.replaceAll allocator' style [(marker, last)]).2 →
      (∃ region twice once, buffer.find style marker = .ok region ∧
        buffer.replaceAll allocator style ((earlier ++ [last]).map (marker, ·)) =
          (twice, .ok (earlier.length + 1)) ∧
        buffer.replaceAll allocator' style [(marker, last)] = (once, .ok 1) ∧
        twice.bytes = once.bytes) ∨
      ∃ cause, buffer.find style marker = .error cause ∧
        buffer.replaceAll allocator style ((earlier ++ [last]).map (marker, ·)) =
          (buffer, .error (.scan cause)) ∧
        buffer.replaceAll allocator' style [(marker, last)] = (buffer, .error (.scan cause)) := by
  have small_last : last.length ≤ Size.maxBlock := small last (by simp)
  constructor
  · intro contents inside allocator edited replaced allocator' allocator'' granted granted'
    have small_first := small contents (List.mem_append_left _ inside)
    obtain ⟨region, found, seams, bytes⟩ := exists_rewritten replaced
    have once : rewrite? style.lead buffer.bytes (marker, last) =
        some (region.rewrite buffer.bytes last) := by
      rw [rewrite?, show Scan.find ⟨style.lead, marker⟩ buffer.bytes = .ok region from found]
    have twice : rewrite? style.lead edited.bytes (marker, last) =
        some (region.rewrite buffer.bytes last) := by
      rw [bytes]
      exact (Scan.rewrite?_rewritten_of_inert found seams (inert contents inside) last).trans once
    obtain ⟨edited', replaced', bytes', -⟩ := exists_replace_of_rewrite?
      (fits.replaced small_first replaced) small_last twice granted
    obtain ⟨edited'', replaced'', bytes'', -⟩ := exists_replace_of_rewrite?
      fits small_last once granted'
    exact ⟨edited', edited'', replaced', replaced'', bytes'.trans bytes''.symm⟩
  · intro allocator allocator' granted granted'
    cases found : buffer.find style marker with
    | ok region =>
      obtain ⟨twice, all, bytes⟩ := exists_replaceAll_of_inert fits small inert found granted
      -- Its last replacement alone is a batch without any earlier ones.
      have small_alone : ∀ contents ∈ [] ++ [last], contents.length ≤ Size.maxBlock := by
        simpa using small_last
      obtain ⟨once, alone, bytes'⟩ :=
        exists_replaceAll_of_inert fits small_alone (List.forall_mem_nil _) found granted'
      exact .inl ⟨region, twice, once, rfl, all, alone, bytes.trans bytes'.symm⟩
    | error cause =>
      refine .inr ⟨cause, rfl, ?_, replaceAll_of_missing found allocator' last []⟩
      obtain ⟨contents, rest, parts⟩ := List.exists_cons_of_ne_nil
        (show earlier ++ [last] ≠ [] by simp)
      rw [parts, List.map_cons]
      exact replaceAll_of_missing found allocator contents _

/-- Two lines, then nothing, then a line that closes the region before its own closing line: the first
of the three gets the terminator that stands behind all of them. -/
theorem replace_last_wins_of_closing_line :
    ∃ twice once,
      (ofBytes [0x23, 0x7b, 0x74, 0x0a, 0x23, 0x7d, 0x74]).replaceAll (fun _ => .generous) ⟨[0x23]⟩
        [([0x74], [0x78, 0x0a, 0x79]), ([0x74], []), ([0x74], [0x23, 0x7d, 0x74])] =
          (twice, .ok 3) ∧
      (ofBytes [0x23, 0x7b, 0x74, 0x0a, 0x23, 0x7d, 0x74]).replaceAll (fun _ => .generous) ⟨[0x23]⟩
        [([0x74], [0x23, 0x7d, 0x74])] = (once, .ok 1) ∧
      twice.bytes = once.bytes := by
  have fits : (ofBytes [0x23, 0x7b, 0x74, 0x0a, 0x23, 0x7d, 0x74]).Fits := fits_ofBytes (by decide)
  have small : ∀ contents ∈ [[0x78, 0x0a, 0x79], []] ++ [([0x23, 0x7d, 0x74] : Bytes)],
      contents.length ≤ Size.maxBlock := by decide
  have inert : ∀ contents ∈ [[0x78, 0x0a, 0x79], []],
      IsInert (MarkerStyle.mk [0x23]).lead [0x74] .lf contents := by decide
  rcases (replace_last_wins fits small inert).2 (fun _ => .generous) (fun _ => .generous) nofun
    nofun with ⟨region, twice, once, -, all, alone, same⟩ | ⟨cause, missing, -⟩
  · exact ⟨twice, once, all, alone, same⟩
  · cases missing

end Buffer

end MarkedRegions
