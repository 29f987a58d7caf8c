import MarkedRegions.Proofs.Edit.Bounds
import MarkedRegions.Proofs.Stateful

/-!
# Replacing in place

A replacement works on one buffer in place: it looks for the region, has the buffer grow, and edits
it. An action in place leaves what it has done by the time it fails, so that it fails without a trace
is not to be had for nothing: a buffer that has grown would keep its room if the edit failed behind
it. It does not, because the edit never fails once its room is granted. A replacement fails where its
region is not found or where the machine refuses the room, and both come before anything is changed.

## Main definitions

* `Buffer.InPlace`: what is done on a buffer in place
* `InPlace.replace`, `InPlace.replaceAll`: one replacement, and several

## Main results

* `replace_eq_error_cases`: the two reasons for a failed replacement
* `InPlace.replace_run`: a replacement in place, which leaves the buffer as it was if it fails
* `InPlace.replaceAll_run`: several of them, which leave what those before the first failure leave
-/

namespace MarkedRegions.Buffer

/-- **What is done on a buffer in place**: it answers or fails, and leaves a buffer behind. -/
abbrev InPlace (α : Type) := ExceptT EditError (StateM Buffer) α

namespace InPlace

/-- Looks for the region of a name. -/
def locate (style : MarkerStyle) (marker : Bytes) : InPlace Region := do
  match (← get).find style marker with
  | .ok region => return region
  | .error cause => throw (.scan cause)

/-- A size, or the fault of a step outside its bounds. -/
def measure (size : Option Nat) : InPlace Nat :=
  match size with
  | some size => return size
  | none => throw .outOfBounds

/-- Has the buffer grow. The machine may refuse, and a refusal changes nothing. -/
def grow (allocator : Allocator) (additional : Nat) : InPlace Unit := do
  match (← get).grow? allocator additional with
  | some grown => set grown
  | none => throw (.allocation additional)

/-- Has the buffer grow if the new contents are longer than the old. -/
def makeRoom (allocator : Allocator) (old new : Nat) : InPlace Unit :=
  if old < new then grow allocator (new - old) else return ()

/-- Edits the span of a region. -/
def splice (region : Region) (contents : Bytes) : InPlace Unit := do
  match (← get).splice? region.start region.stop contents region.addedSuffix with
  | some edited => set edited
  | none => throw .outOfBounds

/-- **A replacement in place**, step by step. -/
def replace (allocator : Allocator) (style : MarkerStyle) (marker contents : Bytes) :
    InPlace Unit := do
  let region ← locate style marker
  let new ← measure (Size.add? contents.length region.addedSuffix.length)
  let old ← measure (Size.sub? region.stop region.start)
  -- Whatever is done from here on is not undone by a failure.
  makeRoom allocator old new
  splice region contents

/-- **Several replacements in place**, with the number of those made. -/
def replaceAll (allocator : Nat → Allocator) (style : MarkerStyle)
    (pairs : List (Bytes × Bytes)) (applied : Nat) : InPlace Nat :=
  pairs.foldlM (fun applied pair => do
    replace (allocator applied) style pair.1 pair.2
    return applied + 1) applied

end InPlace

variable {allocator : Allocator} {style : MarkerStyle} {marker contents : Bytes}
  {buffer edited : Buffer} {region : Region} {e : EditError}

/-! ## Why a replacement fails -/

/-- **A replacement fails for one of two reasons**: its region is not found, or the machine refuses
the room by which the new contents outgrow the old. -/
theorem replace_eq_error_cases (fits : buffer.Fits) (small : contents.length ≤ Size.maxBlock)
    (failed : buffer.replace allocator style marker contents = .error e) :
    (∃ cause, buffer.find style marker = .error cause ∧ e = .scan cause) ∨
      ∃ region, buffer.find style marker = .ok region ∧ 0 < region.growth contents ∧
        buffer.grow? allocator (region.growth contents) = none ∧
        e = .allocation (region.growth contents) := by
  cases found : buffer.find style marker with
  | error cause =>
    rw [replace, found] at failed
    exact .inl ⟨cause, rfl, (Except.error.inj failed).symm⟩
  | ok region =>
    rw [replace_eq fits small found] at failed
    split at failed
    · cases failed
    · next refused =>
      have more : 0 < region.growth contents := by
        by_contra none_more
        rw [Nat.eq_zero_of_not_pos none_more] at refused
        exact refused (canGrow_zero buffer allocator)
      refine .inr ⟨region, rfl, more, ?_, (Except.error.inj failed).symm⟩
      rw [grow?_eq fits, if_neg refused]

namespace InPlace

/-! ## The steps -/

theorem run_locate_of_ok (found : buffer.find style marker = .ok region) :
    (locate style marker).run buffer = (.ok region, buffer) := by
  refine (run_bind_of_ok rfl).trans ?_
  rw [found]
  rfl

theorem run_locate_of_error {cause : ScanError} (missing : buffer.find style marker = .error cause) :
    (locate style marker).run buffer = (.error (.scan cause), buffer) := by
  refine (run_bind_of_ok rfl).trans ?_
  rw [missing]
  rfl

/-- A size that is exact changes nothing. -/
theorem run_measure {size : Option Nat} {n : Nat} (exact : size = some n) (buffer : Buffer) :
    (measure size).run buffer = (.ok n, buffer) := by
  rw [exact]
  rfl

theorem run_grow (allocator : Allocator) (additional : Nat) (buffer : Buffer) :
    (grow allocator additional).run buffer =
      match buffer.grow? allocator additional with
      | some grown => (.ok (), grown)
      | none => (.error (.allocation additional), buffer) := by
  refine (run_bind_of_ok rfl).trans ?_
  cases buffer.grow? allocator additional <;> rfl

theorem run_splice (spliced : buffer.splice? region.start region.stop contents region.addedSuffix =
      some edited) :
    (splice region contents).run buffer = (.ok (), edited) := by
  refine (run_bind_of_ok rfl).trans ?_
  rw [spliced]
  rfl

theorem run_makeRoom (allocator : Allocator) (old new : Nat) (buffer : Buffer) :
    (makeRoom allocator old new).run buffer =
      match buffer.makeRoom allocator old new with
      | .ok roomy => (.ok (), roomy)
      | .error e => (.error e, buffer) := by
  rw [makeRoom, Buffer.makeRoom]
  split
  · rw [run_grow]
    cases buffer.grow? allocator (new - old) <;> rfl
  · rfl

/-! ## The replacement -/

/-- **A replacement in place** leaves what a replacement leaves, or the buffer as it was. -/
theorem replace_run (fits : buffer.Fits) (small : contents.length ≤ Size.maxBlock)
    (allocator : Allocator) (style : MarkerStyle) (marker : Bytes) :
    (replace allocator style marker contents).run buffer =
      match buffer.replace allocator style marker contents with
      | .ok edited => (.ok (), edited)
      | .error e => (.error e, buffer) := by
  cases found : buffer.find style marker with
  | error cause =>
    rw [Buffer.replace, found]
    exact run_bind_of_error (run_locate_of_error found)
  | ok region =>
    obtain ⟨-, -, -, old, new, edit⟩ := editsInBounds fits small found allocator
    have room := run_makeRoom allocator region.length
      (contents.length + region.addedSuffix.length) buffer
    refine (run_bind_of_ok (run_locate_of_ok found)).trans ?_
    refine (run_bind_of_ok (run_measure new buffer)).trans ?_
    refine (run_bind_of_ok (run_measure old buffer)).trans ?_
    simp only [Buffer.replace, found, replaceRegion, new, old, EditError.ofOption, bind, Except.bind]
    cases made : buffer.makeRoom allocator region.length
        (contents.length + region.addedSuffix.length) with
    | error e =>
      rw [made] at room
      exact run_bind_of_error room
    | ok roomy =>
      -- The room is granted, and nothing is left that could fail.
      obtain ⟨-, -, edited, spliced, -⟩ := edit roomy made
      rw [made] at room
      simp only [spliced]
      exact (run_bind_of_ok room).trans (run_splice spliced)

/-- **Several replacements in place** leave what they leave of a buffer of one's own. -/
theorem replaceAll_run {pairs : List (Bytes × Bytes)} (fits : buffer.Fits)
    (small : ∀ pair ∈ pairs, pair.2.length ≤ Size.maxBlock) (allocator : Nat → Allocator)
    (style : MarkerStyle) (applied : Nat) :
    (replaceAll allocator style pairs applied).run buffer =
      (Buffer.replaceAll.go allocator style applied buffer pairs).swap := by
  induction pairs generalizing buffer applied with
  | nil => rfl
  | cons pair pairs ih =>
    obtain ⟨marker, contents⟩ := pair
    have first := replace_run fits (small _ List.mem_cons_self) (allocator applied) style marker
    rw [replaceAll, List.foldlM_cons, Buffer.replaceAll.go]
    cases replaced : buffer.replace (allocator applied) style marker contents with
    | error e =>
      rw [replaced] at first
      exact run_bind_of_error (run_bind_of_error first)
    | ok edited =>
      rw [replaced] at first
      have fits' := fits.replaced (small _ List.mem_cons_self) replaced
      refine (run_bind_of_ok ((run_bind_of_ok first).trans rfl)).trans ?_
      exact ih fits' (fun pair inside => small pair (List.mem_cons_of_mem _ inside)) (applied + 1)

end InPlace

end MarkedRegions.Buffer
