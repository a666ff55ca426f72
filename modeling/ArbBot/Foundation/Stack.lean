import ArbBot.Foundation.Runs
import Mathlib.Data.List.Infix

/-!
# Stacks over a run

A machine keeps a stack when each of its steps leaves it, pushes one element or pops one.
`Trace.pushed` traces an element back to the step that pushed it: it lies on the stack as
that step found it, and has not been touched since.
-/

namespace Foundation

namespace Machine

variable {σ ι α : Type*} {M : Machine σ ι}

/-- A step leaves the stack, pushes or pops. -/
def StackStep (stack : σ → List α) (s s' : σ) : Prop :=
  stack s' = stack s ∨ (∃ a, stack s' = a :: stack s) ∨ ∃ a, stack s = a :: stack s'

/-- **Last in.** An element of the stack and all that is below it: the last step that pushed
the element found what is below it, and every later step left them there. -/
theorem Trace.pushed {stack : σ → List α} (steps_ok : ∀ s i s', M.step s i s' →
      StackStep stack s s') {s t : σ} {steps : List (Entry σ ι)} (trace : M.Trace s steps t)
    (empty : stack s = []) {a : α} {rest : List α} (inside : (a :: rest) <:+ stack t) :
    ∃ earlier push later, steps = earlier ++ push :: later ∧ stack push.before = rest ∧
      stack push.after = a :: rest ∧ ∀ entry ∈ later, (a :: rest) <:+ stack entry.after := by
  induction trace with
  | nil =>
      rw [empty, List.suffix_nil] at inside
      cases inside
  | @snoc t u i steps trace taken ih =>
      have earlier : (a :: rest) <:+ stack t → ∃ earlier push later,
          steps ++ [⟨t, i, u⟩] = earlier ++ push :: later ∧ stack push.before = rest ∧
            stack push.after = a :: rest ∧
              ∀ entry ∈ later, (a :: rest) <:+ stack entry.after := by
        intro before
        rcases ih before with ⟨earlier, push, later, rfl, found, pushed, kept⟩
        refine ⟨earlier, push, later ++ [⟨t, i, u⟩], by simp, found, pushed, ?_⟩
        exact List.forall_mem_append.mpr ⟨kept, List.forall_mem_singleton.mpr inside⟩
      rcases steps_ok t i u taken with same | ⟨b, pushes⟩ | ⟨b, pops⟩
      · exact earlier (same ▸ inside)
      · rw [pushes, List.suffix_cons_iff] at inside
        rcases inside with top | below
        · obtain ⟨rfl, rfl⟩ := List.cons.inj top
          exact ⟨steps, ⟨t, i, u⟩, [], rfl, rfl, pushes, fun entry none =>
            absurd none List.not_mem_nil⟩
        · exact earlier below
      · rw [pops] at earlier
        exact earlier (inside.trans (List.suffix_cons b _))

end Machine

end Foundation
