import Mathlib.Data.List.Induction
import MarkedRegions.Proofs.Scan.Survey

/-!
# The course of a scan

A scan passes over lines until one matters. What it remembers of the lines behind it is whether one
of them has opened the wanted region, and which; with that, three things can happen. A line closes
the region, and it is found. A line offends, and its offence is the verdict. Or the lines are over,
and the verdict is the marker line that is missing. The three courses exclude each other and leave
out nothing, so each verdict can be read backwards: what was found, or what was wrong, determines
the lines up to the point of decision.

## Main definitions

* `Underway lead marker lines opened`: the scan goes on after all of these lines
* `Course query ending lines verdict`: the three courses

## Main results

* `find_eq_iff_course`: the verdict of a scan is that of its course
* `underway_some_iff`: an open region was opened by one line, between lines that were passed over
-/

namespace MarkedRegions

namespace Scan

open Line (Passes Opens Closes Offends extent)

/-! ## The lines behind a scan -/

/-- **The scan goes on** after these lines. `opened` is the index of the line among them that has
opened the wanted region, if one has. -/
inductive Underway (lead marker : Bytes) : List Bytes → Option Nat → Prop
  | start : Underway lead marker [] none
  | pass {lines : List Bytes} {opened : Option Nat} {line : Bytes}
    (behind : Underway lead marker lines opened)
    (passes : Passes lead marker opened.isSome line) :
    Underway lead marker (lines ++ [line]) opened
  | opens {lines : List Bytes} {line : Bytes} (behind : Underway lead marker lines none)
    (opens : Opens lead marker line) : Underway lead marker (lines ++ [line]) (some lines.length)

section Underway

variable {lead marker : Bytes} {lines more : List Bytes} {opened : Option Nat} {index : Nat}

theorem Underway.append (behind : Underway lead marker lines opened)
    (passes : ∀ line ∈ more, Passes lead marker opened.isSome line) :
    Underway lead marker (lines ++ more) opened := by
  induction more generalizing lines with
  | nil => rwa [List.append_nil]
  | cons line more ih =>
    have next := behind.pass (passes line List.mem_cons_self)
    rw [← List.singleton_append, ← List.append_assoc]
    apply ih next
    intro line' inside
    exact passes line' (List.mem_cons_of_mem line inside)

theorem underway_none_iff :
    Underway lead marker lines none ↔ ∀ line ∈ lines, Passes lead marker false line := by
  constructor
  · intro behind
    generalize nowhere : (none : Option Nat) = opened at behind
    induction behind with
    | start => simp
    | @pass lines opened line behind passes ih =>
      subst nowhere
      intro line' inside
      rcases List.mem_append.mp inside with earlier | last
      · exact ih rfl line' earlier
      · rw [List.mem_singleton.mp last]
        exact passes
    | opens => cases nowhere
  · intro passes
    simpa using Underway.start.append passes

/-- **An open region has been opened by one line**; the lines before it were passed over outside
the region, and those after it inside. -/
theorem underway_some_iff :
    Underway lead marker lines (some index) ↔
      ∃ before opening inner, lines = before ++ opening :: inner ∧ before.length = index ∧
        (∀ line ∈ before, Passes lead marker false line) ∧ Opens lead marker opening ∧
        ∀ line ∈ inner, Passes lead marker true line := by
  constructor
  · intro behind
    generalize somewhere : some index = opened at behind
    induction behind with
    | start => cases somewhere
    | @pass lines opened line behind passes ih =>
      subst somewhere
      obtain ⟨before, opening, inner, rfl, length, idle, opens, inert⟩ := ih rfl
      refine ⟨before, opening, inner ++ [line], by simp, length, idle, opens, ?_⟩
      intro line' inside
      rcases List.mem_append.mp inside with earlier | last
      · exact inert line' earlier
      · rw [List.mem_singleton.mp last]
        exact passes
    | @opens lines line behind opens =>
      cases somewhere
      exact ⟨lines, line, [], rfl, rfl, underway_none_iff.mp behind, opens, by simp⟩
  · rintro ⟨before, opening, inner, rfl, rfl, idle, opens, inert⟩
    have found := (underway_none_iff.mpr idle).opens opens
    rw [← List.singleton_append, ← List.append_assoc]
    exact found.append inert

/-- The line that has opened a region is among those behind. -/
theorem Underway.index_lt (behind : Underway lead marker lines (some index)) :
    index < lines.length := by
  obtain ⟨before, opening, inner, rfl, rfl, -⟩ := underway_some_iff.mp behind
  rw [List.length_append, List.length_cons]
  omega

/-- **A survey goes on after the lines behind it** with their number, their extent, and the end of
the line that has opened the region. -/
theorem survey_of_underway {query : Query} (ending : LineEnding)
    (behind : Underway query.lead query.marker lines opened) (more : List Bytes) :
    survey query ending 0 0 none (lines ++ more) =
      survey query ending lines.length (extent ending lines)
        (opened.map fun index => extent ending (lines.take (index + 1))) more := by
  induction behind generalizing more with
  | start => rfl
  | @pass lines opened line behind passes ih =>
    rw [List.append_assoc, ih, List.singleton_append, survey, Option.isSome_map, passes]
    have unmoved : (opened.map fun index => extent ending ((lines ++ [line]).take (index + 1))) =
        opened.map fun index => extent ending (lines.take (index + 1)) := by
      -- The line that has opened the region is among those behind, so one line more is no matter.
      cases opened with
      | none => rfl
      | some index =>
        obtain ⟨before, opening, inner, rfl, rfl, -⟩ := underway_some_iff.mp behind
        simp [List.take_append]
    simp [unmoved, Nat.add_assoc]
  | @opens lines line behind opens ih =>
    rw [List.append_assoc, ih, List.singleton_append, survey, Option.isSome_map, Option.isSome_none,
      Line.effect_of_opens opens]
    -- The region starts at the end of the line, which is the extent of all lines so far.
    have whole : (lines ++ [line]).take (lines.length + 1) = lines ++ [line] :=
      List.take_length_add_append 1
    simp [whole, Nat.add_assoc]

end Underway

/-! ## The three courses -/

/-- The verdict on a text that is over before the region is closed. -/
def missing (query : Query) (opened : Option Nat) : ScanError :=
  if opened.isSome then .unterminated query.marker query.lead else .notFound query.marker

/-- **The three courses of a scan** over lines of a style. -/
inductive Course (query : Query) (ending : LineEnding) (lines : List Bytes) :
    Except ScanError Region → Prop
  -- A line closes the region: it starts after the line that opened it.
  | closes {before after : List Bytes} {line : Bytes} {index : Nat}
    (parts : lines = before ++ line :: after)
    (behind : Underway query.lead query.marker before (some index))
    (closes : Closes query.lead line) :
    Course query ending lines
      (.ok (.upTo ending (extent ending (before.take (index + 1))) (extent ending before)))
  | offends {before after : List Bytes} {line : Bytes} {opened : Option Nat} {e : ScanError}
    (parts : lines = before ++ line :: after)
    (behind : Underway query.lead query.marker before opened)
    (offends : Offends query.lead query.marker (opened.isSome = true) (before.length + 1) line e) :
    Course query ending lines (.error e)
  -- The lines are over.
  | ends {opened : Option Nat} (behind : Underway query.lead query.marker lines opened) :
    Course query ending lines (.error (missing query opened))

variable {query : Query} {ending : LineEnding} {lines : List Bytes}
  {verdict : Except ScanError Region}

/-- The verdict of a survey is that of any of its courses. -/
theorem Course.survey_eq (course : Course query ending lines verdict) :
    survey query ending 0 0 none lines = verdict := by
  cases course with
  | closes parts behind closes =>
    rw [parts, survey_of_underway ending behind, survey, Option.map_some, Option.isSome_some,
      Line.effect_of_closes closes]
    rfl
  | offends parts behind offends =>
    rw [parts, survey_of_underway ending behind, survey, Option.isSome_map,
      Line.effect_of_offends offends]
  | @ends opened behind =>
    have none_left := survey_of_underway ending behind []
    rw [List.append_nil] at none_left
    rw [none_left, survey, Option.isSome_map, missing]

/-- **Every survey takes a course.** The induction adds the last line: either the scan has come to
it, or it has been decided before. -/
theorem exists_course (query : Query) (lines : List Bytes) :
    (∃ opened, Underway query.lead query.marker lines opened) ∨
      ∃ before line after opened, lines = before ++ line :: after ∧
        Underway query.lead query.marker before opened ∧
        (opened.isSome = true ∧ Closes query.lead line ∨
          ∃ e,
            Offends query.lead query.marker (opened.isSome = true) (before.length + 1) line e) := by
  induction lines using List.reverseRecOn with
  | nil => exact .inl ⟨none, .start⟩
  | append_singleton lines line ih =>
    rcases ih with ⟨opened, behind⟩ | ⟨before, line', after, opened, rfl, behind, decided⟩
    · -- What the added line does decides.
      rcases Line.effect_cases query.lead query.marker line opened.isSome (lines.length + 1) with
        passes | ⟨closed, opens⟩ | closes | offends
      · exact .inl ⟨opened, behind.pass passes⟩
      · rw [Option.isSome_eq_false_iff, Option.isNone_iff_eq_none] at closed
        subst closed
        exact .inl ⟨_, behind.opens opens⟩
      · exact .inr ⟨lines, line, [], opened, rfl, behind, .inl closes⟩
      · exact .inr ⟨lines, line, [], opened, rfl, behind, .inr offends⟩
    · -- What has been decided stays decided.
      exact .inr ⟨before, line', after ++ [line], opened, by simp, behind, decided⟩

/-- **The verdict of a survey is that of its course**, and it has no other course. -/
theorem survey_eq_iff_course :
    survey query ending 0 0 none lines = verdict ↔ Course query ending lines verdict := by
  refine ⟨?_, Course.survey_eq⟩
  rintro rfl
  -- Any course has the verdict of the survey, so it is enough that there is one.
  suffices ∃ verdict, Course query ending lines verdict by
    obtain ⟨verdict, course⟩ := this
    rwa [course.survey_eq]
  rcases exists_course query lines with
    ⟨opened, behind⟩ | ⟨before, line, after, opened, parts, behind, ⟨isOpen, closes⟩ | ⟨e, offends⟩⟩
  · exact ⟨_, .ends behind⟩
  · obtain ⟨index, rfl⟩ := Option.isSome_iff_exists.mp isOpen
    exact ⟨_, .closes parts behind closes⟩
  · exact ⟨_, .offends parts behind offends⟩

/-- **The verdict of a scan is that of its course** over the lines of the text. -/
theorem find_eq_iff_course {text : Bytes} :
    find query text = verdict ↔
      Course query (.ofText text) (Line.cut (.ofText text) text) verdict := by
  rw [find_eq_survey, survey_eq_iff_course]

end Scan

end MarkedRegions
