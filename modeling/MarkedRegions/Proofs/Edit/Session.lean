import MarkedRegions.Proofs.Edit.InPlace

/-!
# The room of a buffer over a session

A buffer is worked on by many calls, and any of them may fail. What room it has afterwards can be
read off the calls that succeeded: to the room it started with come the bytes that were asked for
and granted, and, for each single replacement that was made, the bytes by which it lengthened the
buffer. Nothing is ever given back, and nothing is saved either. A replacement asks for its bytes past
the capacity whether or not there is room to spare, so a buffer that has been shortened pays again
for becoming as long as it was.

Because the bytes that a replacement asks for are counted from the region, and those that it adds are
counted from the buffer, the two have to be the same number; they are, since all that is outside the
region stays. And since every buffer of a session is one that a machine has granted, the bytes for
which room has been made never need more than that room.

## Main definitions

* `Buffer.Call`: what is asked of a buffer, and what the machine grants meanwhile
* `Buffer.Call.after`, `Buffer.afterAll`: what one call and a session leave
* `Buffer.Call.granted`, `Buffer.Call.lengthened`, `Buffer.total`: what comes to the room

## Main results

* `Call.accounts`: the room after one call
* `afterAll_accounts`: the room after a session
* `capacity_of_session`: the room of a buffer at any time, and what it is good for
-/

namespace MarkedRegions.Buffer

/-- **A call on a buffer**, with what the machine grants while it is carried out. -/
inductive Call
  | find (style : MarkerStyle) (marker : Bytes)
  | replace (allocator : Allocator) (style : MarkerStyle) (marker contents : Bytes)
  | replaceAll (allocator : Nat → Allocator) (style : MarkerStyle) (pairs : List (Bytes × Bytes))
  | grow (allocator : Allocator) (additional : Nat)

/-- **By how much replacements lengthen a buffer** that are made in turn, up to the first that fails.
One that shortens the buffer counts as nothing. -/
def lengthened (allocator : Nat → Allocator) (style : MarkerStyle) (applied : Nat)
    (buffer : Buffer) : List (Bytes × Bytes) → Nat
  | [] => 0
  | (marker, contents) :: rest =>
    match buffer.replace (allocator applied) style marker contents with
    | .ok edited =>
      (edited.length - buffer.length) + lengthened allocator style (applied + 1) edited rest
    | .error _ => 0

namespace Call

/-- What a call does, step by step on the buffer. -/
def carryOut : Call → InPlace Unit
  | .find style marker => discard (InPlace.locate style marker)
  | .replace allocator style marker contents => InPlace.replace allocator style marker contents
  | .replaceAll allocator style pairs => discard (InPlace.replaceAll allocator style pairs 0)
  | .grow allocator additional => InPlace.grow allocator additional

/-- **What a call leaves**, whether it succeeds or fails. -/
def after (buffer : Buffer) (call : Call) : Buffer :=
  (call.carryOut.run buffer).2

/-- The contents that a call hands over fit a block, as everything does that is in memory. -/
def IsSmall : Call → Prop
  | .replace _ _ _ contents => contents.length ≤ Size.maxBlock
  | .replaceAll _ _ pairs => ∀ pair ∈ pairs, pair.2.length ≤ Size.maxBlock
  | .find .. | .grow .. => True

instance : (call : Call) → Decidable call.IsSmall
  | .replace _ _ _ contents => inferInstanceAs (Decidable (contents.length ≤ Size.maxBlock))
  | .replaceAll _ _ pairs =>
    inferInstanceAs (Decidable (∀ pair ∈ pairs, pair.2.length ≤ Size.maxBlock))
  | .find .. | .grow .. => inferInstanceAs (Decidable True)

/-- **What a call has been granted** of the room that it asks for by name. -/
def granted (buffer : Buffer) : Call → Nat
  | .grow allocator additional =>
    if (buffer.grow? allocator additional).isSome then additional else 0
  | .find .. | .replace .. | .replaceAll .. => 0

/-- **By how much the replacements of a call lengthen a buffer.** -/
def lengthened (buffer : Buffer) : Call → Nat
  | .replace allocator style marker contents =>
    Buffer.lengthened (fun _ => allocator) style 0 buffer [(marker, contents)]
  | .replaceAll allocator style pairs => Buffer.lengthened allocator style 0 buffer pairs
  | .find .. | .grow .. => 0

end Call

/-- **What a session leaves.** -/
def afterAll (buffer : Buffer) (calls : List Call) : Buffer :=
  calls.foldl Call.after buffer

/-- The sum of an amount over the calls of a session, each taken where the ones before it have led. -/
def total (amount : Buffer → Call → Nat) (buffer : Buffer) : List Call → Nat
  | [] => 0
  | call :: calls => amount buffer call + total amount (call.after buffer) calls

variable {allocator : Allocator} {style : MarkerStyle} {marker contents : Bytes}
  {buffer edited roomy : Buffer} {region : Region} {additional : Nat}

/-! ## One replacement -/

/-- **A replacement asks for what it adds.** The room that it asks for is counted from its region, but
it is the number of bytes by which the whole buffer becomes longer. -/
theorem capacity_of_replace (fits : buffer.Fits) (small : contents.length ≤ Size.maxBlock)
    (replaced : buffer.replace allocator style marker contents = .ok edited) :
    edited.capacity = buffer.capacity + (edited.length - buffer.length) := by
  obtain ⟨region, found, -⟩ := exists_rewritten replaced
  obtain ⟨seams⟩ := Scan.exists_seams found
  have ordered := seams.joins.ordered
  have within := seams.joins.within
  rw [replace_eq fits small found] at replaced
  split at replaced
  · cases replaced
    simp only [length, Region.rewrite, Region.growth, Region.length, List.length_append,
      List.length_take, List.length_drop]
    omega
  · cases replaced

/-- Replacements in turn ask for what they add, up to the first that fails. -/
theorem go_accounts {pairs : List (Bytes × Bytes)} (fits : buffer.Fits)
    (small : ∀ pair ∈ pairs, pair.2.length ≤ Size.maxBlock) (allocator : Nat → Allocator)
    (style : MarkerStyle) (applied : Nat) :
    (replaceAll.go allocator style applied buffer pairs).1.Fits ∧
      (replaceAll.go allocator style applied buffer pairs).1.capacity =
        buffer.capacity + lengthened allocator style applied buffer pairs := by
  induction pairs generalizing buffer applied with
  | nil => exact ⟨fits, rfl⟩
  | cons pair pairs ih =>
    obtain ⟨marker, contents⟩ := pair
    have small_first : contents.length ≤ Size.maxBlock := small _ List.mem_cons_self
    rw [replaceAll.go, lengthened]
    cases replaced : buffer.replace (allocator applied) style marker contents with
    | error e => exact ⟨fits, rfl⟩
    | ok edited =>
      obtain ⟨fits', capacity⟩ := ih (fits.replaced small_first replaced)
        (fun pair inside => small pair (List.mem_cons_of_mem _ inside)) (applied + 1)
      have first := capacity_of_replace fits small_first replaced
      exact ⟨fits', by simp only [capacity, first, Nat.add_assoc]⟩

/-! ## One call -/

/-- What is not asked of an action leaves what the action leaves. -/
theorem run_discard {α : Type} (action : InPlace α) (buffer : Buffer) :
    ((discard action).run buffer).2 = (action.run buffer).2 := by
  rcases done : action.run buffer with ⟨_ | _, after⟩
  · exact congrArg Prod.snd (run_bind_of_error done)
  · exact congrArg Prod.snd (run_bind_of_ok done)

namespace Call

theorem after_find (style : MarkerStyle) (marker : Bytes) (buffer : Buffer) :
    (find style marker).after buffer = buffer := by
  refine (run_discard (InPlace.locate style marker) buffer).trans ?_
  cases found : buffer.find style marker with
  | ok region => rw [InPlace.run_locate_of_ok found]
  | error cause => rw [InPlace.run_locate_of_error found]

theorem after_replace (fits : buffer.Fits) (small : contents.length ≤ Size.maxBlock)
    (allocator : Allocator) (style : MarkerStyle) (marker : Bytes) :
    (replace allocator style marker contents).after buffer =
      (replaceAll.go (fun _ => allocator) style 0 buffer [(marker, contents)]).1 := by
  rw [after, carryOut, InPlace.replace_run fits small, replaceAll.go]
  cases buffer.replace allocator style marker contents <;> rfl

theorem after_replaceAll {pairs : List (Bytes × Bytes)} (fits : buffer.Fits)
    (small : ∀ pair ∈ pairs, pair.2.length ≤ Size.maxBlock) (allocator : Nat → Allocator)
    (style : MarkerStyle) :
    (replaceAll allocator style pairs).after buffer =
      (replaceAll.go allocator style 0 buffer pairs).1 := by
  rw [after, carryOut, run_discard, InPlace.replaceAll_run fits small]
  rfl

theorem after_grow (fits : buffer.Fits) (allocator : Allocator) (additional : Nat) :
    (grow allocator additional).after buffer =
      { buffer with capacity := buffer.capacity + (grow allocator additional).granted buffer } := by
  rw [after, carryOut, InPlace.run_grow, granted, grow?_eq fits]
  by_cases can : buffer.CanGrow allocator additional
  · simp [can]
  · simp [can]

/-- **The room after one call** is the room before it, with what the call has been granted and what its
replacements have added. -/
theorem accounts {call : Call} (fits : buffer.Fits) (small : call.IsSmall) :
    (call.after buffer).Fits ∧
      (call.after buffer).capacity =
        buffer.capacity + call.granted buffer + call.lengthened buffer := by
  cases call with
  | find style marker =>
    rw [after_find]
    exact ⟨fits, rfl⟩
  | replace allocator style marker contents =>
    have small' : contents.length ≤ Size.maxBlock := small
    rw [after_replace fits small']
    exact go_accounts fits (by simpa using small') _ style 0
  | replaceAll allocator style pairs =>
    rw [after_replaceAll fits small]
    exact go_accounts fits small allocator style 0
  | grow allocator additional =>
    rw [after_grow fits]
    refine ⟨?_, rfl⟩
    rw [granted, grow?_eq fits]
    split
    · next can => exact fits.grown can
    · exact fits

end Call

/-! ## A session -/

/-- **The room after a session** is the room before it, with all that has been granted and added. -/
theorem afterAll_accounts {calls : List Call} (fits : buffer.Fits)
    (small : ∀ call ∈ calls, call.IsSmall) :
    (buffer.afterAll calls).Fits ∧
      (buffer.afterAll calls).capacity =
        buffer.capacity + total Call.granted buffer calls + total Call.lengthened buffer calls := by
  induction calls generalizing buffer with
  | nil => exact ⟨fits, rfl⟩
  | cons call calls ih =>
    obtain ⟨fits', first⟩ := Call.accounts fits (small call List.mem_cons_self)
    obtain ⟨fits'', rest⟩ := ih fits' fun call inside => small call (List.mem_cons_of_mem _ inside)
    refine ⟨fits'', ?_⟩
    simp only [afterAll, List.foldl_cons, total] at rest ⊢
    omega

/-- What is done after a session goes on from what the session leaves. -/
theorem afterAll_append (buffer : Buffer) (first second : List Call) :
    buffer.afterAll (first ++ second) = (buffer.afterAll first).afterAll second :=
  List.foldl_append

/-! ## What the room is good for -/

/-- **Room that has been made is enough**: lengthening the buffer for an edit of a region that has been
found, and the edit itself, take no more than it. -/
theorem length_le_of_makeRoom (fits : buffer.Fits) (small : contents.length ≤ Size.maxBlock)
    (found : buffer.find style marker = .ok region)
    (made : buffer.makeRoom allocator region.length
      (contents.length + region.addedSuffix.length) = .ok roomy) :
    roomy.length + (region.start + (contents.length + region.addedSuffix.length) - region.stop) ≤
        roomy.capacity ∧
      ∃ edited,
        roomy.splice? region.start region.stop contents region.addedSuffix = some edited ∧
          edited.capacity = roomy.capacity := by
  obtain ⟨ordered, -, -, -, -, edit⟩ := editsInBounds fits small found allocator
  obtain ⟨-, -, edited, spliced, -, -, capacity⟩ := edit roomy made
  refine ⟨?_, edited, spliced, capacity⟩
  have length_le := fits.length_le
  rw [makeRoom_eq fits] at made
  split at made
  · cases made
    simp only [length, Region.length] at length_le ⊢
    omega
  · cases made

/-- A buffer is refused all room that no block can hold, however large the sum is. -/
theorem grow?_eq_none_of_large (fits : buffer.Fits)
    (large : Size.maxBlock < buffer.capacity + additional) (allocator : Allocator) :
    buffer.grow? allocator additional = none := by
  have capacity_le := fits.capacity_le
  rw [grow?_eq fits]
  refine if_neg fun can => ?_
  have fit := (can (by omega)).1
  omega

/-- **The room of a buffer over a session.** Whatever calls have been made on a buffer that started
without room to spare, succeeding or failing: its bytes have room, and the room is one block; it has
never become less; and it is what the buffer started with, what has been granted, and what the
replacements have added. Room that is then made for an edit is enough for it, so that lengthening the
buffer asks for none, and room that no block can hold is refused. -/
theorem capacity_of_session {bytes : Bytes} {calls : List Call}
    (small : bytes.length ≤ Size.maxBlock) (each : ∀ call ∈ calls, call.IsSmall) :
    let buffer := (ofBytes bytes).afterAll calls
    (buffer.length ≤ buffer.capacity ∧ buffer.capacity ≤ Size.maxBlock) ∧
    (∀ first second, calls = first ++ second →
      ((ofBytes bytes).afterAll first).capacity ≤ buffer.capacity) ∧
    buffer.capacity =
      bytes.length + total Call.granted (ofBytes bytes) calls +
        total Call.lengthened (ofBytes bytes) calls ∧
    (∀ (allocator : Allocator) (style : MarkerStyle) (marker contents : Bytes) (region : Region)
        (roomy : Buffer),
      contents.length ≤ Size.maxBlock →
      buffer.find style marker = .ok region →
      buffer.makeRoom allocator region.length (contents.length + region.addedSuffix.length) =
        .ok roomy →
      roomy.length + (region.start + (contents.length + region.addedSuffix.length) - region.stop) ≤
          roomy.capacity ∧
        ∃ edited,
          roomy.splice? region.start region.stop contents region.addedSuffix = some edited ∧
            edited.capacity = roomy.capacity) ∧
    ∀ (allocator : Allocator) (additional : Nat), additional ≤ Size.max →
      Size.maxBlock < buffer.capacity + additional →
      (InPlace.grow allocator additional).run buffer = (.error (.allocation additional), buffer) := by
  have start : (ofBytes bytes).Fits := fits_ofBytes small
  obtain ⟨fits, accounts⟩ := afterAll_accounts start each
  refine ⟨⟨fits.length_le, fits.capacity_le⟩, ?_, accounts, ?_, ?_⟩
  · rintro first second rfl
    obtain ⟨between, -⟩ :=
      afterAll_accounts start fun call inside => each call (List.mem_append_left _ inside)
    obtain ⟨-, later⟩ :=
      afterAll_accounts between fun call inside => each call (List.mem_append_right _ inside)
    rw [afterAll_append, later]
    omega
  · intro allocator style marker contents region roomy small found made
    exact length_le_of_makeRoom fits small found made
  · intro allocator additional _ large
    rw [InPlace.run_grow, grow?_eq_none_of_large fits large allocator]

/-- A buffer that is shortened by two bytes, granted five, lengthened by three, searched in vain, and
lengthened no more by a list whose first pair is of a name that it has not: all of the eight bytes
have come to its room, though no more than twelve of nineteen were ever in use. -/
theorem capacity_of_session_of_shortened :
    let bytes : Bytes := [0x23, 0x7b, 0x74, 0x0a, 0x61, 0x62, 0x63, 0x0a, 0x23, 0x7d, 0x74]
    let calls : List Call :=
      [.replace .generous ⟨[0x23]⟩ [0x74] [0x78], .grow .generous 5,
        .replace .generous ⟨[0x23]⟩ [0x74] [0x61, 0x62, 0x63, 0x64],
        .find ⟨[0x23]⟩ [0x75],
        .replaceAll (fun _ => .generous) ⟨[0x23]⟩ [([0x75], []), ([0x74], [0x61])]]
    total Call.granted (ofBytes bytes) calls = 5 ∧
      total Call.lengthened (ofBytes bytes) calls = 3 ∧
      ((ofBytes bytes).afterAll calls).length = 12 ∧
      ((ofBytes bytes).afterAll calls).capacity = 19 := by
  intro bytes calls
  have small : bytes.length ≤ Size.maxBlock := by decide
  have each : ∀ call ∈ calls, call.IsSmall := by decide
  have granted : total Call.granted (ofBytes bytes) calls = 5 := by decide +kernel
  have lengthened : total Call.lengthened (ofBytes bytes) calls = 3 := by decide +kernel
  obtain ⟨-, -, capacity, -⟩ := capacity_of_session small each
  refine ⟨granted, lengthened, by decide +kernel, ?_⟩
  rw [capacity, granted, lengthened]
  rfl

end MarkedRegions.Buffer
