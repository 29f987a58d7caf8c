import Mathlib.Tactic.Common

/-!
# Actions on a state

An action on a state answers or fails, and in either case it leaves a state behind: what has been
done before a failure stays done. Of two actions in turn the second is run on what the first has
left, unless the first has failed.

## Main results

* `run_bind_of_ok`, `run_bind_of_error`: one action after another
* `exists_of_run_bind`: both have answered if the two together have
-/

namespace MarkedRegions

variable {σ ε α β : Type} {state between : σ} {action : ExceptT ε (StateM σ) α}
  {next : α → ExceptT ε (StateM σ) β}

/-- **One action after another**, on what the first has left. -/
theorem run_bind_of_ok {a : α} (done : action.run state = (.ok a, between)) :
    (action >>= next).run state = (next a).run between := by
  change (ExceptT.bindCont next) (action.run state).1 (action.run state).2 = _
  rw [done]
  rfl

theorem run_bind_of_error {e : ε} (failed : action.run state = (.error e, between)) :
    (action >>= next).run state = (.error e, between) := by
  change (ExceptT.bindCont next) (action.run state).1 (action.run state).2 = _
  rw [failed]
  rfl

/-- **Two actions in turn have answered** only if both have, the second on what the first has left. -/
theorem exists_of_run_bind {after : σ} {b : β} (done : (action >>= next).run state = (.ok b, after)) :
    ∃ a between, action.run state = (.ok a, between) ∧ (next a).run between = (.ok b, after) := by
  rcases first : action.run state with ⟨e | a, between⟩
  · cases (run_bind_of_error first).symm.trans done
  · exact ⟨a, between, rfl, (run_bind_of_ok first).symm.trans done⟩

end MarkedRegions
