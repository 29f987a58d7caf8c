import MarkedRegions.Proofs.Line.Forms
import MarkedRegions.Scan.Error

/-!
# What a line does to a scan

A line can do four things: the scan passes over it, it opens the wanted region, it closes it, or it
offends. Which of them it does is told by its kind and by whether the region is open, and by nothing
else of the text; the number of the line is for the error alone. Here each of the four is put in the
words of the productions.

## Main definitions

* `Effect`, `Line.Kind.effect`: what a line does that does not offend, or its error
* `Passes lead marker isOpen line`: the lines that a scan passes over
* `Offends lead marker isOpen number line e`: the offences of a line, and the error for each

## Main results

* `effect_cases`: the four things
* `passes_iff`: a line is passed over if it does none of the other three
* `isInert_iff`: contents are inert if each of their lines is passed over in an open region
-/

namespace MarkedRegions

/-- **What a line does to a scan.** -/
inductive Effect
  | passes
  -- The wanted region starts after the line.
  | opens
  -- The wanted region stops before the line.
  | closes
deriving DecidableEq, Repr

namespace Line

/-- **What a line of a kind does**, as the line with a given number, where the wanted region has or
has not been opened. -/
def Kind.effect (marker : Bytes) (isOpen : Bool) (number : Nat) :
    Kind → Except ScanError Effect
  | .text | .blank | .bare .opening _ => .ok .passes
  | .bare .closing column => .error (.namelessEnd number (column + 1))
  | .named .opening name column =>
    if name ≠ marker then .ok .passes
    else if isOpen then .error (.nested marker number (column + 1))
    else .ok .opens
  | .named .closing _ _ => .ok (if isOpen then .closes else .passes)
  | .malformed defect => .error (defect.onLine number)

/-- Only an open region is closed. -/
theorem Kind.opened_of_closes {kind : Kind} {marker : Bytes} {isOpen : Bool} {number : Nat}
    (closes : kind.effect marker isOpen number = .ok .closes) : isOpen = true := by
  cases kind with
  | text | blank | malformed => cases closes
  | bare command => cases command <;> cases closes
  | named command name column =>
    cases isOpen with
    | true => rfl
    | false =>
      cases command with
      | opening => by_cases wanted : name = marker <;> simp [effect, wanted] at closes
      | closing => cases closes

/-- **A line that a scan passes over**, while the wanted region is open or before it is. -/
def Passes (lead marker : Bytes) (isOpen : Bool) (line : Bytes) : Prop :=
  ∀ number, (kind lead line).effect marker isOpen number = .ok .passes

/-- The number of a line is for its error alone. -/
theorem passes_iff_effect {lead marker line : Bytes} {isOpen : Bool} :
    Passes lead marker isOpen line ↔ (kind lead line).effect marker isOpen 0 = .ok .passes := by
  constructor
  · intro passes
    exact passes 0
  · intro effect number
    cases found : kind lead line with
    | text | blank => rfl
    | malformed defect => simp [found, Kind.effect] at effect
    | bare command column =>
      cases command with
      | opening => rfl
      | closing => simp [found, Kind.effect] at effect
    | named command name column =>
      cases command with
      | closing => simpa [found, Kind.effect] using effect
      | opening =>
        by_cases wanted : name = marker
        · cases isOpen <;> simp [found, Kind.effect, wanted] at effect
        · rw [Kind.effect, if_pos wanted]

instance (lead marker : Bytes) (isOpen : Bool) (line : Bytes) :
    Decidable (Passes lead marker isOpen line) :=
  decidable_of_iff _ passes_iff_effect.symm

/-- **The offences of a line** with a given number, where the region has or has not been opened
before it. Columns in errors count from one, hence one more than the bytes in front. -/
inductive Offends (lead marker : Bytes) (isOpen : Prop) (number : Nat) (line : Bytes) :
    ScanError → Prop
  | malformed {defect : Defect} (breaks : Breaks lead line defect) :
    Offends lead marker isOpen number line (defect.onLine number)
  -- The line closes without a name, whether or not there is something to close.
  | namelessEnd {column : Nat} (reads : Reads lead line (.bare .closing column)) :
    Offends lead marker isOpen number line (.namelessEnd number (column + 1))
  -- The line opens the region once more.
  | nested {column : Nat} (already : isOpen)
    (reads : Reads lead line (.named .opening marker column)) :
    Offends lead marker isOpen number line (.nested marker number (column + 1))

variable {lead marker line : Bytes} {isOpen : Bool} {number : Nat} {e e' : ScanError}

/-! ## Each of the four -/

theorem effect_of_opens (opens : Opens lead marker line) :
    (kind lead line).effect marker false number = .ok .opens := by
  obtain ⟨column, found⟩ := opens_iff.mp opens
  simp [found, Kind.effect]

theorem effect_of_closes (closes : Closes lead line) :
    (kind lead line).effect marker true number = .ok .closes := by
  obtain ⟨name, column, found⟩ := closes_iff.mp closes
  simp [found, Kind.effect]

theorem effect_of_offends (offends : Offends lead marker (isOpen = true) number line e) :
    (kind lead line).effect marker isOpen number = .error e := by
  cases offends with
  | malformed breaks =>
    rw [kind_eq_of_breaks breaks]
    rfl
  | namelessEnd reads =>
    rw [kind_eq_of_reads reads]
    rfl
  | nested already reads =>
    rw [kind_eq_of_reads reads, Kind.effect, if_neg (not_not_intro rfl), if_pos already]

/-- **Outside a region** named closing lines are passed over. -/
theorem passes_of_closes (closes : Closes lead line) : Passes lead marker false line := by
  obtain ⟨name, column, found⟩ := closes_iff.mp closes
  intro number
  rw [found]
  rfl

theorem Passes.of_harmless (harmless : (kind lead line).isHarmless marker) :
    Passes lead marker isOpen line := by
  intro number
  cases found : kind lead line with
  | text | blank => rfl
  | malformed defect => simp [found, Kind.isHarmless] at harmless
  | bare command column =>
    cases command with
    | opening => rfl
    | closing => simp [found, Kind.isHarmless] at harmless
  | named command name column =>
    cases command with
    | opening =>
      have other : name ≠ marker := by simpa [found, Kind.isHarmless] using harmless
      rw [Kind.effect, if_pos other]
    | closing => simp [found, Kind.isHarmless] at harmless

/-- **What a line can do**: nothing, whatever its number; open the region; close it; or offend. -/
theorem effect_cases (lead marker line : Bytes) (isOpen : Bool) (number : Nat) :
    Passes lead marker isOpen line ∨ isOpen = false ∧ Opens lead marker line ∨
      isOpen = true ∧ Closes lead line ∨
      ∃ e, Offends lead marker (isOpen = true) number line e := by
  -- A harmless line is passed over in either case; only the lines that are not remain.
  by_cases harmless : (kind lead line).isHarmless marker
  · exact .inl (.of_harmless harmless)
  cases found : kind lead line with
  | text | blank => simp [found, Kind.isHarmless] at harmless
  | malformed defect => exact .inr (.inr (.inr ⟨_, .malformed (breaks_iff.mpr found)⟩))
  | bare command column =>
    cases command with
    | opening => simp [found, Kind.isHarmless] at harmless
    | closing =>
      have reads := reads_iff.mpr ⟨found, by simp⟩
      exact .inr (.inr (.inr ⟨_, .namelessEnd reads⟩))
  | named command name column =>
    have reads := reads_iff.mpr ⟨found, by simp⟩
    cases command with
    | opening =>
      obtain rfl : name = marker := by simpa [found, Kind.isHarmless] using harmless
      cases isOpen with
      | false => exact .inr (.inl ⟨rfl, column, reads⟩)
      | true => exact .inr (.inr (.inr ⟨_, .nested rfl reads⟩))
    | closing =>
      have closes : Closes lead line := ⟨name, column, reads⟩
      cases isOpen with
      | false => exact .inl (passes_of_closes closes)
      | true => exact .inr (.inr (.inl ⟨rfl, closes⟩))

/-! ## What a line does not do besides -/

theorem not_offends_of_ok {effect : Effect}
    (fine : (kind lead line).effect marker isOpen number = .ok effect) :
    ¬ Offends lead marker (isOpen = true) number line e := by
  intro offends
  rw [effect_of_offends offends] at fine
  cases fine

/-- A line has at most one offence. -/
theorem Offends.unique {isOpen : Prop} (offends : Offends lead marker isOpen number line e)
    (offends' : Offends lead marker isOpen number line e') : e = e' := by
  classical
  -- The effect wants to know of an open region as a truth value.
  have same : isOpen = (decide isOpen = true) := by simp
  rw [same] at offends offends'
  exact Except.error.inj ((effect_of_offends offends).symm.trans (effect_of_offends offends'))

/-- A line that opens the region is never passed over: it opens it, or opens it once more. -/
theorem Passes.not_opens (passes : Passes lead marker isOpen line) :
    ¬ Opens lead marker line := by
  intro opens
  cases isOpen with
  | false =>
    have effect := passes 0
    rw [effect_of_opens opens] at effect
    cases effect
  | true =>
    obtain ⟨column, reads⟩ := opens
    exact not_offends_of_ok (passes 0) (.nested rfl reads)

theorem Passes.not_closes (passes : Passes lead marker true line) : ¬ Closes lead line := by
  intro closes
  have effect := passes 0
  rw [effect_of_closes closes] at effect
  cases effect

theorem Passes.sound (passes : Passes lead marker isOpen line) :
    ¬ Malformed lead line ∧ ¬ ClosesNothing lead line := by
  constructor
  · intro malformed
    obtain ⟨defect, found⟩ := malformed_iff.mp malformed
    exact not_offends_of_ok (passes 0) (.malformed (breaks_iff.mpr found))
  · rintro ⟨column, reads⟩
    exact not_offends_of_ok (passes 0) (.namelessEnd reads)

/-- **The lines that are passed over**, by what they are not. -/
theorem passes_iff :
    Passes lead marker isOpen line ↔ ¬ Malformed lead line ∧ ¬ ClosesNothing lead line ∧
      ¬ Opens lead marker line ∧ (isOpen = true → ¬ Closes lead line) := by
  constructor
  · intro passes
    refine ⟨passes.sound.1, passes.sound.2, passes.not_opens, ?_⟩
    rintro rfl
    exact passes.not_closes
  · rintro ⟨formed, named, other, open_still⟩
    rcases effect_cases lead marker line isOpen 0 with
      passes | ⟨-, opens⟩ | ⟨isOpen, closes⟩ | ⟨e, offends⟩
    · exact passes
    · exact absurd opens other
    · exact absurd closes (open_still isOpen)
    · cases offends with
      | malformed breaks => exact absurd (malformed_iff.mpr ⟨_, breaks_iff.mp breaks⟩) formed
      | namelessEnd reads => exact absurd ⟨_, reads⟩ named
      | nested already reads => exact absurd ⟨_, reads⟩ other

/-- **Outside a region** a line is passed over unless it is malformed, closes without a name, or opens
the region. -/
theorem passes_closed_iff : Passes lead marker false line ↔
    ¬ Malformed lead line ∧ ¬ ClosesNothing lead line ∧ ¬ Opens lead marker line := by
  rw [passes_iff]
  simp

/-- **In an open region** exactly the harmless lines are passed over. -/
theorem passes_open_iff : Passes lead marker true line ↔ (kind lead line).isHarmless marker := by
  refine ⟨fun passes => ?_, .of_harmless⟩
  have effect := passes 0
  cases found : kind lead line with
  | text | blank => rfl
  | malformed defect => simp [found, Kind.effect] at effect
  | bare command column =>
    cases command with
    | opening => rfl
    | closing => simp [found, Kind.effect] at effect
  | named command name column =>
    cases command with
    | opening =>
      by_cases wanted : name = marker
      · simp [found, Kind.effect, wanted] at effect
      · simp [Kind.isHarmless, wanted]
    | closing => simp [found, Kind.effect] at effect

/-- **Contents are inert** if no line of theirs is malformed, closes, with or without a name, or
opens the region. -/
theorem isInert_iff {ending : LineEnding} {contents : Bytes} :
    IsInert lead marker ending contents ↔
      ∀ line ∈ cut ending contents, ¬ Malformed lead line ∧ ¬ ClosesNothing lead line ∧
        ¬ Opens lead marker line ∧ ¬ Closes lead line := by
  have passes (line : Bytes) : (kind lead line).isHarmless marker ↔ ¬ Malformed lead line ∧
      ¬ ClosesNothing lead line ∧ ¬ Opens lead marker line ∧ ¬ Closes lead line := by
    rw [← passes_open_iff, passes_iff]
    simp
  simp only [IsInert, passes]

/-! ## The named lines are in order -/

theorem sound_of_named {command : Command} {name : Bytes} {column : Nat}
    (reads : Reads lead line (.named command name column)) :
    ¬ Malformed lead line ∧ ¬ ClosesNothing lead line := by
  have found := kind_eq_of_reads reads
  simp [malformed_iff, closesNothing_iff, found]

theorem Opens.sound (opens : Opens lead marker line) :
    ¬ Malformed lead line ∧ ¬ ClosesNothing lead line := by
  obtain ⟨column, reads⟩ := opens
  exact sound_of_named reads

theorem Closes.sound (closes : Closes lead line) :
    ¬ Malformed lead line ∧ ¬ ClosesNothing lead line := by
  obtain ⟨name, column, reads⟩ := closes
  exact sound_of_named reads

end Line

end MarkedRegions
