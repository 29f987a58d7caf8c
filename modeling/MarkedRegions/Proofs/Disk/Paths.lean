import MarkedRegions.Disk.Path
import Mathlib.Data.List.TakeWhile
import Mathlib.Tactic.Common

/-!
# The two readings of a path agree

A path is read by name, to find what stands beside a file and above it, and by steps, to follow it.
The readings are made from the same parts, but by name a path loses parts that lead nowhere and by
steps it loses where it starts, so neither can be computed from the other. What they agree on is
what editing a file rests on: the parent of a path is the front of it that takes all steps but the
last ones, and a name put below a directory is one step more.

## Main definitions

* `Path.IsName`: what can be the name of an entry

## Main results

* `not_mem_of_mem_splitOn`, `infix_intercalate`, `intercalate_fore`: runs between separators
* `Path.parent?_leading`, `Path.prefix_of_mem_ancestors`: parents are fronts, in either reading
* `Path.exists_parent`: a path whose last step is by name has that name, and takes the other steps
  to its parent
* `Path.steps_join`: one step more
-/

namespace MarkedRegions

/-! ## Runs between separators -/

section Runs

variable {separator : UInt8} {text run : Bytes} {runs fore aft : List Bytes}

/-- No run holds the separator. -/
theorem not_mem_of_mem_splitOn (mem : run ∈ text.splitOn separator) : separator ∉ run := by
  induction text generalizing run with
  | nil =>
    obtain rfl := List.mem_singleton.mp mem
    exact List.not_mem_nil
  | cons byte rest ih =>
    rw [List.splitOn_cons_eq_if_modifyHead] at mem
    split at mem
    · rcases List.mem_cons.mp mem with rfl | mem
      · exact List.not_mem_nil
      · exact ih mem
    · next other =>
      obtain ⟨first, more, eq⟩ := List.exists_cons_of_ne_nil (List.splitOn_ne_nil separator rest)
      rw [eq] at mem ih
      rcases List.mem_cons.mp mem with rfl | mem
      · rw [List.mem_cons, not_or]
        exact ⟨fun same => other (beq_iff_eq.mpr same.symm), ih List.mem_cons_self⟩
      · exact ih (List.mem_cons_of_mem _ mem)

/-- Every run stands in what is made of the runs. -/
theorem infix_intercalate (separator : Bytes) (mem : run ∈ runs) :
    run <:+: separator.intercalate runs := by
  induction runs with
  | nil => exact absurd mem List.not_mem_nil
  | cons first more ih =>
    by_cases last : more = []
    · subst last
      obtain rfl := List.mem_singleton.mp mem
      simp only [List.intercalate_singleton, List.infix_rfl]
    · rw [List.intercalate_cons_of_ne_nil last]
      rcases List.mem_cons.mp mem with rfl | mem
      · rw [List.append_assoc]
        exact (List.prefix_append _ _).isInfix
      · exact (ih mem).trans (List.suffix_append _ _).isInfix

theorem mem_of_mem_splitOn {byte : UInt8} (mem : run ∈ text.splitOn separator)
    (inside : byte ∈ run) : byte ∈ text := by
  have within := (infix_intercalate [separator] mem).subset inside
  rwa [List.intercalate_splitOn] at within

theorem intercalate_append (separator : Bytes) (fore_ne : fore ≠ []) (aft_ne : aft ≠ []) :
    separator.intercalate (fore ++ aft) =
      separator.intercalate fore ++ (separator ++ separator.intercalate aft) := by
  induction fore with
  | nil => exact absurd rfl fore_ne
  | cons first fore ih =>
    by_cases last : fore = []
    · rw [last, List.singleton_append, List.intercalate_cons_of_ne_nil aft_ne,
        List.intercalate_singleton, List.append_assoc]
    · rw [List.cons_append, List.intercalate_cons_of_ne_nil (List.append_ne_nil_of_left_ne_nil last _),
        ih last, List.intercalate_cons_of_ne_nil last, List.append_assoc (first ++ separator)]

/-- **The first runs of a text** make a front of it. -/
theorem intercalate_fore (split : text.splitOn separator = fore ++ aft) :
    [separator].intercalate fore <+: text := by
  have whole : text = [separator].intercalate (fore ++ aft) := by
    rw [← split, List.intercalate_splitOn]
  rw [whole]
  by_cases fore_eq : fore = []
  · rw [fore_eq]
    exact List.nil_prefix
  · by_cases aft_eq : aft = []
    · simp only [aft_eq, List.append_nil, List.prefix_rfl]
    · rw [intercalate_append _ fore_eq aft_eq]
      exact List.prefix_append _ _

end Runs

namespace Path

variable {path parent : Path} {name : Bytes}

/-! ## Steps -/

theorem steps_nil : steps [] = [] := by decide

theorem steps_slash : steps [slash] = [] := by decide

theorem steps_dot : steps [dot] = [.stay] := by decide

/-- The steps before a slash, and those after it. -/
theorem steps_append (front back : Path) :
    steps (front ++ slash :: back) = steps front ++ steps back := by
  rw [steps, parts, splitAll, List.splitOn_append_cons_self, List.filterMap_append]
  rfl

theorem steps_intercalate {runs : List Bytes} (free : ∀ run ∈ runs, slash ∉ run) :
    steps ([slash].intercalate runs) = runs.filterMap stepOf? := by
  cases runs with
  | nil => rfl
  | cons run runs =>
    rw [steps, parts, splitAll, List.splitOn_intercalate slash free (List.cons_ne_nil _ _)]

theorem stepOf?_of_isMoving {part : Bytes} (moving : isMoving part = true) :
    stepOf? part = some (if part = [dot, dot] then .up else .enter part) := by
  rw [isMoving, Bool.not_eq_true', Bool.or_eq_false_iff, decide_eq_false_iff_not] at moving
  rw [stepOf?, if_neg (by simpa using moving.1), if_neg moving.2, apply_ite some]

/-- Parts that lead nowhere write steps to where one stands, or none. -/
theorem filterMap_stepOf?_of_still {parts : List Bytes}
    (still : ∀ part ∈ parts, isMoving part = false) :
    ∃ count, parts.filterMap stepOf? = List.replicate count .stay := by
  induction parts with
  | nil => exact ⟨0, rfl⟩
  | cons part parts ih =>
    obtain ⟨count, eq⟩ := ih fun other mem => still other (List.mem_cons_of_mem _ mem)
    have here := still part List.mem_cons_self
    rw [isMoving, Bool.not_eq_false', Bool.or_eq_true, decide_eq_true_eq] at here
    rw [List.filterMap_cons, stepOf?]
    rcases here with empty | single
    · rw [if_pos empty]
      exact ⟨count, eq⟩
    · rw [single, if_neg (by decide), if_pos rfl]
      exact ⟨count + 1, by rw [eq, List.replicate_succ]⟩

/-! ## Parts that lead nowhere -/

theorem exists_dropUnmoving (parts : List Bytes) :
    ∃ idle, parts = dropUnmoving parts ++ idle ∧ ∀ part ∈ idle, isMoving part = false := by
  refine ⟨(parts.reverse.takeWhile fun part => !isMoving part).reverse, ?_, ?_⟩
  · rw [dropUnmoving, ← List.reverse_append, List.takeWhile_append_dropWhile, List.reverse_reverse]
  · intro part mem
    simpa using List.mem_takeWhile_imp (List.mem_reverse.mp mem)

theorem isMoving_of_getLast? {parts : List Bytes} {part : Bytes}
    (last : (dropUnmoving parts).getLast? = some part) : isMoving part = true := by
  rw [dropUnmoving, List.getLast?_reverse] at last
  have first := List.head?_dropWhile_not (fun part => !isMoving part) parts.reverse
  rw [last] at first
  simpa using first

/-! ## Where a path starts -/

theorem origin_cases (path : Path) :
    (path.originLength = 0 ∧ path.isAbsolute = false) ∨
    (∃ rest, path = slash :: rest ∧ path.originLength = 1) ∨
    path = [dot] ∨ ∃ rest, path = dot :: slash :: rest := by
  match path with
  | [] => exact .inl ⟨rfl, rfl⟩
  | [byte] =>
    by_cases root : byte = slash
    · subst root
      exact .inr (.inl ⟨[], rfl, rfl⟩)
    · by_cases here : byte = dot
      · subst here
        exact .inr (.inr (.inl rfl))
      · exact .inl ⟨by simp [originLength, root, here], by simp [isAbsolute, root]⟩
  | first :: second :: rest =>
    by_cases root : first = slash
    · subst root
      exact .inr (.inl ⟨second :: rest, rfl, rfl⟩)
    · by_cases here : first = dot ∧ second = slash
      · obtain ⟨rfl, rfl⟩ := here
        exact .inr (.inr (.inr ⟨rest, rfl⟩))
      · exact .inl ⟨by simp [originLength, root, here], by simp [isAbsolute, root]⟩

/-- **The origin is read apart**: cutting a path short anywhere behind it changes neither its step
nor whether the path is absolute. -/
theorem steps_origin (path : Path) {front : Bytes}
    (before : front <+: path.drop path.originLength) :
    steps (path.take path.originLength ++ front) =
        steps (path.take path.originLength) ++ steps front ∧
      isAbsolute (path.take path.originLength ++ front) = isAbsolute path := by
  rcases origin_cases path with ⟨none, relative⟩ | ⟨rest, rfl, one⟩ | rfl | ⟨rest, rfl⟩
  · rw [none, List.drop_zero] at before
    simp only [none, List.take_zero, List.nil_append, steps_nil, true_and]
    cases front with
    | nil => exact relative.symm
    | cons first front =>
      obtain ⟨more, rfl⟩ := before
      rfl
  · simp only [one, List.take_succ_cons, List.take_zero]
    exact ⟨steps_append [] front, rfl⟩
  · have nothing : front = [] := List.prefix_nil.mp before
    subst nothing
    exact ⟨by decide, rfl⟩
  · have one : originLength (dot :: slash :: rest) = 1 := rfl
    rw [one] at before ⊢
    cases front with
    | nil => exact ⟨by simp [steps_nil], rfl⟩
    | cons first front =>
      -- What follows the dot is the slash, so the dot stays a part of its own.
      obtain ⟨rfl, -⟩ := List.cons_prefix_cons.mp before
      exact ⟨(steps_append [dot] front).trans (congrArg _ (steps_append [] front).symm), rfl⟩

/-! ## Parents -/

/-- **The runs of a path** that names something: those of its parent, parts that lead nowhere, the
last part that moves, and again parts that lead nowhere. -/
theorem exists_runs (moves : path.body ≠ []) :
    ∃ runs idle name more, dropUnmoving path.body.dropLast = runs ∧
      path.body.getLast? = some name ∧
      parts (path.drop path.originLength) = runs ++ (idle ++ [name] ++ more) ∧
      (∀ part ∈ idle, isMoving part = false) ∧ ∀ part ∈ more, isMoving part = false := by
  obtain ⟨idle, split, still⟩ := exists_dropUnmoving path.body.dropLast
  obtain ⟨more, split', still'⟩ :=
    exists_dropUnmoving (parts (path.drop path.originLength))
  have last : path.body.getLast? = some (path.body.getLast moves) :=
    List.getLast?_eq_some_getLast moves
  have whole := (List.dropLast_concat_getLast moves).symm
  generalize path.body.getLast moves = name at last whole
  generalize dropUnmoving path.body.dropLast = runs at split ⊢
  refine ⟨runs, idle, name, more, rfl, last, ?_, still, still'⟩
  rw [split', ← body, whole, split]
  simp only [List.append_assoc]

/-- **The anatomy of a path** that names something: the steps of its parent, and behind them steps
that lead nowhere, the step of the last part that moves, and again steps that lead nowhere. -/
theorem exists_anatomy (moves : path.body ≠ []) :
    ∃ parent name before after, path.parent? = some parent ∧ path.body.getLast? = some name ∧
      isMoving name = true ∧ parent <+: path ∧ parent.isAbsolute = path.isAbsolute ∧
      path.steps = parent.steps ++ List.replicate before .stay ++ (stepOf? name).toList ++
        List.replicate after .stay := by
  obtain ⟨runs, idle, name, more, above, last, parts_eq, still, still'⟩ := exists_runs moves
  obtain ⟨before, stays⟩ := filterMap_stepOf?_of_still still
  obtain ⟨after, stays'⟩ := filterMap_stepOf?_of_still still'
  have front := intercalate_fore parts_eq
  have free : ∀ run ∈ runs, slash ∉ run := by
    intro run mem
    exact not_mem_of_mem_splitOn (parts_eq ▸ List.mem_append_left _ mem)
  obtain ⟨steps_parent, absolute⟩ := steps_origin path front
  obtain ⟨steps_path, -⟩ := steps_origin path (List.prefix_refl _)
  rw [List.take_append_drop] at steps_path
  have step : [name].filterMap stepOf? = (stepOf? name).toList := by
    rw [List.filterMap_cons]
    cases stepOf? name <;> rfl
  have steps_rest : steps (path.drop path.originLength) = runs.filterMap stepOf? ++
      (List.replicate before .stay ++ (stepOf? name).toList ++ List.replicate after .stay) := by
    rw [steps, parts_eq, ← stays, ← stays', ← step]
    simp only [List.filterMap_append]
  refine ⟨path.take path.originLength ++ [slash].intercalate runs, name, before, after, ?_, last,
    isMoving_of_getLast? last, ?_, absolute, ?_⟩
  · rw [parent?, if_neg (by simpa using moves), above]
  · obtain ⟨back, eq⟩ := front
    exact ⟨back, by rw [List.append_assoc, eq, List.take_append_drop]⟩
  · rw [steps_parent, steps_path, steps_rest, steps_intercalate free]
    simp only [List.append_assoc]

/-- A path that names nothing stays where it starts. -/
theorem steps_of_body_eq_nil (still : path.body = []) :
    ∃ count, path.steps = List.replicate count .stay := by
  obtain ⟨idle, split, all_still⟩ :=
    exists_dropUnmoving (parts (path.drop path.originLength))
  rw [← body, still, List.nil_append] at split
  obtain ⟨count, stays⟩ := filterMap_stepOf?_of_still all_still
  obtain ⟨eq, -⟩ := steps_origin path (List.prefix_refl _)
  have rest : steps (path.drop path.originLength) = List.replicate count .stay := by
    rw [steps, split, stays]
  rw [List.take_append_drop, rest] at eq
  rcases origin_cases path with ⟨none, -⟩ | ⟨more, rfl, one⟩ | rfl | ⟨more, rfl⟩
  · rw [none, List.take_zero, steps_nil, List.nil_append] at eq
    exact ⟨count, eq⟩
  · rw [one, List.take_succ_cons, List.take_zero, steps_slash, List.nil_append] at eq
    exact ⟨count, eq⟩
  · exact ⟨1, steps_dot⟩
  · exact ⟨count + 1, eq.trans (congrArg (· ++ _) steps_dot)⟩

/-- **The parent is a front of the path**, in either reading. -/
theorem parent?_leading (above : path.parent? = some parent) :
    parent <+: path ∧ parent.steps <+: path.steps := by
  by_cases still : path.body = []
  · rw [parent?, still] at above
    simp only [List.isEmpty_nil, if_true] at above
    split at above
    · cases above
      exact ⟨List.nil_prefix, List.nil_prefix⟩
    · cases above
  · obtain ⟨other, name, before, after, above', -, -, front, -, eq⟩ := exists_anatomy still
    cases above.symm.trans above'
    refine ⟨front, ?_⟩
    rw [eq, List.append_assoc, List.append_assoc]
    exact List.prefix_append _ _

/-- **A path whose last step is by name** has that name, and takes the steps before to its parent,
up to some that lead nowhere. -/
theorem exists_parent (last : path.steps.getLast? = some (.enter name)) :
    path.fileName? = some name ∧ ∃ parent count, path.parent? = some parent ∧ parent <+: path ∧
      parent.isAbsolute = path.isAbsolute ∧
      path.steps = parent.steps ++ List.replicate count .stay ++ [.enter name] := by
  by_cases still : path.body = []
  · obtain ⟨count, eq⟩ := steps_of_body_eq_nil still
    rw [eq] at last
    cases (List.mem_replicate.mp (List.mem_of_getLast? last)).2
  · obtain ⟨parent, part, before, after, above, named, moving, front, absolute, eq⟩ :=
      exists_anatomy still
    rw [stepOf?_of_isMoving moving, Option.toList_some] at eq
    cases after with
    | succ after =>
      -- A part behind the name would have been the last step.
      rw [eq, List.replicate_succ', ← List.append_assoc, List.getLast?_concat] at last
      cases last
    | zero =>
      rw [List.replicate_zero, List.append_nil] at eq
      rw [eq, List.getLast?_concat] at last
      split at last
      · cases last
      · next ordinary =>
        cases last
        rw [if_neg ordinary] at eq
        refine ⟨?_, parent, before, above, front, absolute, eq⟩
        simp only [fileName?, named, if_neg ordinary]

/-- **Everything above a path** is a front of it, in either reading. -/
theorem prefix_of_mem_ancestors {leading : Path} (mem : leading ∈ path.ancestors) :
    leading ≠ [] ∧ leading <+: path ∧ leading.steps <+: path.steps := by
  rw [ancestors] at mem
  generalize path.length = fuel at mem
  induction fuel generalizing path with
  | zero => exact absurd mem List.not_mem_nil
  | succ fuel ih =>
    rw [ancestors.go] at mem
    split at mem
    · exact absurd mem List.not_mem_nil
    · next some_path =>
      rcases List.mem_cons.mp mem with rfl | mem
      · exact ⟨by simpa using some_path, List.prefix_refl _, List.prefix_refl _⟩
      · split at mem
        · next parent above =>
          obtain ⟨some_leading, front, front_steps⟩ := ih mem
          obtain ⟨whole, whole_steps⟩ := parent?_leading above
          exact ⟨some_leading, front.trans whole, front_steps.trans whole_steps⟩
        · exact absurd mem List.not_mem_nil

/-! ## Names below a directory -/

/-- **What can be the name of an entry**: a part that is a step by name. -/
structure IsName (name : Bytes) : Prop where
  free : slash ∉ name
  step : stepOf? name = some (.enter name)

namespace IsName

theorem ne_nil (ordinary : IsName name) : name ≠ [] := by
  rintro rfl
  cases ordinary.step

theorem steps_eq (ordinary : IsName name) : steps name = [.enter name] := by
  rw [steps, parts, splitAll, List.splitOn_eq_singleton ordinary.free, List.filterMap_cons,
    ordinary.step]
  rfl

end IsName

/-- **A name below a directory is one step more.** -/
theorem steps_join (directory : Path) (ordinary : IsName name) :
    (directory.join name).steps = directory.steps ++ [.enter name] := by
  rw [join]
  split
  · next flush =>
    rw [Bool.or_eq_true, List.isEmpty_iff, decide_eq_true_eq] at flush
    rcases flush with rfl | ends
    · rw [steps_nil, List.nil_append, List.nil_append, ordinary.steps_eq]
    · obtain ⟨front, rfl⟩ := List.getLast?_eq_some_iff.mp ends
      rw [List.append_assoc, List.singleton_append, steps_append, steps_append, steps_nil,
        List.append_nil, ordinary.steps_eq]
  · rw [List.append_assoc, List.singleton_append, steps_append, ordinary.steps_eq]

theorem isAbsolute_join (directory : Path) (ordinary : IsName name) :
    (directory.join name).isAbsolute = directory.isAbsolute := by
  cases directory with
  | nil =>
    have free := ordinary.free
    cases name with
    | nil => rfl
    | cons first name =>
      have other : first ≠ slash := fun eq => free (eq ▸ List.mem_cons_self)
      simp [join, isAbsolute, other]
  | cons first directory =>
    rw [join]
    split <;> rfl

theorem not_endsInSlash_join (directory : Path) (ordinary : IsName name) :
    (directory.join name).endsInSlash = false := by
  have final : ∀ front : Bytes, (front ++ name).getLast? = some slash → False := by
    intro front ends
    have last := List.getLast?_eq_some_getLast ordinary.ne_nil
    rw [List.getLast?_append, last, Option.some_or, ← last] at ends
    exact ordinary.free (List.mem_of_getLast? ends)
  rw [endsInSlash, decide_eq_false_iff_not, join]
  split
  · exact final directory
  · exact final (directory ++ [slash])

/-- **The path beside a file** whose path ends in a step by name: the same steps to its parent, and
then the other name. -/
theorem exists_beside {new : Bytes} (last : path.steps.getLast? = some (.enter name))
    (ordinary : IsName new) :
    ∃ parent count, path.parent? = some parent ∧ parent <+: path ∧
      path.steps = parent.steps ++ List.replicate count .stay ++ [.enter name] ∧
      (path.withFileName new).steps = parent.steps ++ [.enter new] ∧
      parent.isAbsolute = path.isAbsolute ∧
      (path.withFileName new).isAbsolute = path.isAbsolute ∧
      (path.withFileName new).endsInSlash = false := by
  obtain ⟨named, parent, count, above, front, absolute, eq⟩ := exists_parent last
  have beside : path.withFileName new = parent.join new := by
    rw [withFileName, named, above]
  rw [beside]
  exact ⟨parent, count, above, front, eq, steps_join parent ordinary, absolute,
    (isAbsolute_join parent ordinary).trans absolute, not_endsInSlash_join parent ordinary⟩

/-- **The name of a file is a part of its path**, or nothing. -/
theorem fileName_mem (path : Path) :
    path.fileName?.getD [] ∈ [] :: parts (path.drop path.originLength) := by
  rw [fileName?]
  split
  · next part last =>
    split
    · exact List.mem_cons_self
    · obtain ⟨idle, split, -⟩ := exists_dropUnmoving (parts (path.drop path.originLength))
      rw [split]
      exact List.mem_cons_of_mem _ (List.mem_append_left _ (List.mem_of_getLast? last))
  · exact List.mem_cons_self

theorem slash_not_mem_fileName (path : Path) : slash ∉ path.fileName?.getD [] := by
  rcases List.mem_cons.mp (fileName_mem path) with nothing | mem
  · rw [nothing]
    exact List.not_mem_nil
  · exact not_mem_of_mem_splitOn mem

theorem mem_of_mem_fileName {byte : UInt8} (inside : byte ∈ path.fileName?.getD []) :
    byte ∈ path := by
  rcases List.mem_cons.mp (fileName_mem path) with nothing | mem
  · rw [nothing] at inside
    exact absurd inside List.not_mem_nil
  · exact List.mem_of_mem_drop (mem_of_mem_splitOn mem inside)

theorem mem_of_mem_join {directory : Path} {byte : UInt8} (inside : byte ∈ directory.join name) :
    byte ∈ directory ∨ byte = slash ∨ byte ∈ name := by
  rw [join] at inside
  split at inside
  · exact (List.mem_append.mp inside).imp_right .inr
  · simpa [or_assoc] using inside

/-! ## Paths that are not empty -/

/-- A relative path takes a step. -/
theorem steps_ne_nil (some_path : path ≠ []) (relative : path.isAbsolute = false) :
    path.steps ≠ [] := by
  cases path with
  | nil => exact absurd rfl some_path
  | cons first rest =>
    have other : first ≠ slash := by
      rintro rfl
      cases relative
    have step : ∀ run : Bytes, ∃ step, stepOf? (first :: run) = some step := by
      intro run
      rw [stepOf?, if_neg (by simp)]
      split_ifs <;> exact ⟨_, rfl⟩
    -- The first byte stands in the first part.
    obtain ⟨run, runs, eq⟩ := List.exists_cons_of_ne_nil (List.splitOn_ne_nil slash rest)
    obtain ⟨written, eq'⟩ := step run
    rw [steps, parts, splitAll, List.splitOn_cons_eq_if_modifyHead,
      if_neg (mt beq_iff_eq.mp other), eq, List.modifyHead_cons, List.filterMap_cons, eq']
    exact List.cons_ne_nil _ _

theorem ancestors_eq_cons (some_path : path ≠ []) : ∃ rest, path.ancestors = path :: rest := by
  cases path with
  | nil => exact absurd rfl some_path
  | cons first rest => exact ⟨_, rfl⟩

end Path

end MarkedRegions
