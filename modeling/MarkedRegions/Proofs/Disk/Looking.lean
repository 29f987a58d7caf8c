import MarkedRegions.Disk.Files
import MarkedRegions.Proofs.Stateful

/-!
# Actions on a desk that only look

What the library does on a desk is put together from calls. Most of it only looks: it asks the tree,
adds reports to the journal, and leaves all files as they are. Such an action is described by a
function of the tree alone, for the reports made so far are nowhere asked for. Actions that look may
be run one after the other, and their functions with them, so what a whole task finds out on its way
can be computed on the tree it started from.

## Main definitions

* `Desk.Action`: what answers or fails on a desk
* `Desk.Looks`: an action that leaves the tree as it is, and the function it computes

## Main results

* `Desk.Looks.bind`, `Desk.Looks.adapt`: looking again, and failing in other words
* `Files.looks_read`: reading a file
-/

namespace MarkedRegions

namespace Desk

/-- **What is done on a desk**: it answers or fails, and leaves a desk behind. -/
abbrev Action (ε α : Type) := ExceptT ε (StateM Desk) α

variable {ε ε' α β : Type} {desk : Desk} {action : Action ε α} {next : α → Action ε β}

theorem run_lift (call : StateM Desk α) :
    (liftM call : Action ε α).run desk = (.ok (call desk).1, (call desk).2) := rfl

theorem run_adapt (wrap : ε → ε') : (ExceptT.adapt wrap action).run desk =
    ((action.run desk).1.mapError wrap, (action.run desk).2) := rfl

/-! ## Looking -/

/-- **An action that only looks** answers by a function of the tree and adds nothing but reports. -/
def Looks (action : Action ε α) (answer : Disk → Except ε α) : Prop :=
  ∀ desk, ∃ journal, action.run desk = (answer desk.disk, { desk with journal })

theorem looks_pure (a : α) : Looks (pure a : Action ε α) fun _ => .ok a :=
  fun desk => ⟨desk.journal, rfl⟩

theorem looks_throw (e : ε) : Looks (throw e : Action ε α) fun _ => .error e :=
  fun desk => ⟨desk.journal, rfl⟩

theorem looks_report (events : List Event) :
    Looks (liftM (Host.report events : StateM Desk Unit) : Action ε Unit) fun _ => .ok () :=
  fun desk => ⟨desk.journal ++ events, rfl⟩

namespace Looks

variable {answer answer' : Disk → Except ε α} {answers : α → Disk → Except ε β}

theorem of_eq (looks : Looks action answer) (same : ∀ disk, answer disk = answer' disk) :
    Looks action answer' := by
  obtain rfl : answer = answer' := funext same
  exact looks

/-- **Looking again**: both actions see the same tree. -/
theorem bind (looks : Looks action answer) (looks_next : ∀ a, Looks (next a) (answers a)) :
    Looks (action >>= next) fun disk => answer disk >>= fun a => answers a disk := by
  intro desk
  obtain ⟨journal, done⟩ := looks desk
  cases eq : answer desk.disk with
  | error e =>
    rw [eq] at done
    refine ⟨journal, ?_⟩
    rw [run_bind_of_error done]
    simp only [eq]
    rfl
  | ok a =>
    rw [eq] at done
    obtain ⟨journal', done'⟩ := looks_next a { desk with journal }
    refine ⟨journal', ?_⟩
    rw [run_bind_of_ok done, done']
    simp only [eq]
    rfl

theorem adapt (looks : Looks action answer) (wrap : ε → ε') :
    Looks (ExceptT.adapt wrap action) fun disk => (answer disk).mapError wrap := by
  intro desk
  obtain ⟨journal, done⟩ := looks desk
  exact ⟨journal, by rw [run_adapt, done]⟩

end Looks

end Desk

namespace Files

open Desk

variable {α : Type}

theorem run_about (path : Path) (call : StateM Desk (Except FileFault α)) (desk : Desk) :
    (about path call).run desk = ((call desk).1.mapError (FileError.mk path), (call desk).2) := by
  rw [about, run_bind_of_ok (run_lift call)]
  rcases call desk with ⟨_ | _, after⟩ <;> rfl

theorem looks_note (message : String) (path : Path) (contents : Bytes) :
    Looks (note message path contents : Action FileError Unit) fun _ => .ok () :=
  looks_report _

theorem looks_readFile (path : Path) : Looks (about path (Host.readFile path))
    fun disk => (disk.readFile path).mapError (FileError.mk path) :=
  fun desk => ⟨desk.journal, run_about path (Host.readFile path) desk⟩

/-- **Reading a file** only looks. -/
theorem looks_read (path : Path) : Looks (read path : Action FileError Bytes)
    fun disk => (disk.readFile path).mapError (FileError.mk path) := by
  refine ((looks_readFile path).bind fun contents =>
    (looks_note "Loaded file" path contents).bind fun _ => looks_pure contents).of_eq ?_
  intro disk
  cases disk.readFile path <;> rfl

end Files

end MarkedRegions
