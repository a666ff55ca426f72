import Mathlib.Dynamics.PeriodicPts.Lemmas

/-!
# Words over reversible letters

Each letter acts on the states by an injective step. On finitely many states a letter can then
be undone by repeating it, so a state is reached when the state after it is
(`Reachable.back`). An observation of words that never tells apart two words with one end is a
potential on the states that are reached (`exists_potential`).
-/

namespace Foundation

namespace Words

variable {σ β M : Type*} {act : σ → β → σ} {s x : σ} {b : β}

/-- The end of a word. -/
def run (act : σ → β → σ) (s : σ) (word : List β) : σ := word.foldl act s

/-- Some word ends there. -/
def Reachable (act : σ → β → σ) (s x : σ) : Prop := ∃ word, run act s word = x

theorem run_concat (word : List β) : run act s (word ++ [b]) = act (run act s word) b := by
  rw [run, run, List.foldl_concat]

theorem Reachable.start : Reachable act s s := ⟨[], rfl⟩

theorem Reachable.step (reached : Reachable act s x) : Reachable act s (act x b) := by
  rcases reached with ⟨word, rfl⟩
  exact ⟨word ++ [b], run_concat word⟩

theorem Reachable.iterate (reached : Reachable act s x) (n : Nat) :
    Reachable act s ((fun x => act x b)^[n] x) := by
  induction n with
  | zero => exact reached
  | succ n ih =>
      rw [Function.iterate_succ_apply']
      exact Reachable.step ih

/-- The letter is repeated until it is back. -/
theorem Reachable.back [Finite σ] (reversible : Function.Injective fun x => act x b)
    (reached : Reachable act s (act x b)) : Reachable act s x := by
  rcases reversible.mem_periodicPts x with ⟨n, positive, back⟩
  have again : (fun x => act x b)^[n - 1] (act x b) = x := by
    rw [← Function.iterate_succ_apply (fun x => act x b), Nat.succ_eq_add_one,
      Nat.sub_add_cancel positive]
    exact back
  rw [← again]
  exact reached.iterate _

/-- **Potentials.** An observation that only depends on the end of a word is a function of the
state, which each letter changes in the same way. -/
theorem exists_potential {observe : List β → M} (change : M → σ → β → M)
    (grows : ∀ word b, observe (word ++ [b]) = change (observe word) (run act s word) b)
    (same : ∀ word word', run act s word = run act s word' → observe word = observe word') :
    ∃ F : σ → M, ∀ x b, Reachable act s x → F (act x b) = change (F x) x b := by
  have factors : observe.FactorsThrough (run act s) := fun word word' => same word word'
  refine ⟨Function.extend (run act s) observe fun _ => observe [], ?_⟩
  intro x b reached
  rcases reached with ⟨word, rfl⟩
  have longer : act (run act s word) b = run act s (word ++ [b]) := (run_concat word).symm
  rw [longer, factors.extend_apply, factors.extend_apply, grows]

end Words

end Foundation
