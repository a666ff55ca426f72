import ArbBot.Foundation.Runs
import Mathlib.Data.List.Perm.Basic

/-!
# Linearizable histories

The calls of a shared object overlap in time. An `Operation` is a call that has ended, with its
interval and its reply. A history is `Linearizable` when its operations, in some order that real
time permits, are a run of the object one call at a time, with the same replies and the same
content.

`linearizable_of_commits` is the rule for an object whose calls take effect in the step in which
they end: the order is the order of the ends.
-/

namespace Foundation

/-- A call that has ended. -/
structure Operation (Call Reply : Type*) where
  call : Call
  start : Nat
  finish : Nat
  reply : Reply

variable {Call Reply σ : Type*}

namespace Operation

/-- The first one ends before the second one starts. -/
def Precedes (a b : Operation Call Reply) : Prop := a.finish < b.start

/-- What a sequential run says of an operation. -/
def label (op : Operation Call Reply) : Call × Reply := (op.call, op.reply)

end Operation

/-- Some order of the operations that real time permits is a sequential run. -/
def Linearizable (M : Machine σ (Call × Reply)) (first : σ) (history : List (Operation Call Reply))
    (last : σ) : Prop :=
  ∃ order : List (Operation Call Reply), order.Perm history ∧
    order.Pairwise (fun a b => ¬ b.Precedes a) ∧
    ∃ steps, M.Trace first steps last ∧
      steps.map Machine.Entry.label = order.map Operation.label

/-! ## Effects at the end of the call -/

/-- What is observed of a concurrent object: its content, the time, and the calls that have
ended, oldest first. -/
structure Observation (S σ Call Reply : Type*) where
  content : S → σ
  clock : S → Nat
  ended : S → List (Operation Call Reply)

namespace Observation

variable {S ι : Type*} (view : Observation S σ Call Reply) (M : Machine σ (Call × Reply))

/-- A step leaves the content alone, or it is the end of one call and its whole effect. -/
inductive Commits (s s' : S) : Prop
  | silent (content : view.content s' = view.content s) (ended : view.ended s' = view.ended s)
  | ends (op : Operation Call Reply) (ended : view.ended s' = view.ended s ++ [op])
    (interval : op.start ≤ op.finish) (now : op.finish = view.clock s)
    (effect : M.step (view.content s) op.label (view.content s'))

/-- The history so far, in the order of the ends. -/
structure Committed (first : σ) (s : S) : Prop where
  intervals : ∀ op ∈ view.ended s, op.start ≤ op.finish
  past : ∀ op ∈ view.ended s, op.finish < view.clock s
  ordered : (view.ended s).Pairwise fun a b => a.finish < b.finish
  run : ∃ steps, M.Trace first steps (view.content s) ∧
    steps.map Machine.Entry.label = (view.ended s).map Operation.label

variable {view} {M} {first : σ} {s s' : S}

theorem Committed.next (before : view.Committed M first s) (later : view.clock s < view.clock s')
    (commits : view.Commits M s s') : view.Committed M first s' := by
  cases commits with
  | silent content ended =>
      constructor
      · rw [ended]
        exact before.intervals
      · rw [ended]
        exact fun op member => Nat.lt_trans (before.past op member) later
      · rw [ended]
        exact before.ordered
      · rw [ended, content]
        exact before.run
  | ends op ended interval now effect =>
      constructor
      · rw [ended]
        exact List.forall_mem_append.mpr
          ⟨before.intervals, List.forall_mem_singleton.mpr interval⟩
      · rw [ended]
        refine List.forall_mem_append.mpr
          ⟨fun op member => Nat.lt_trans (before.past op member) later, ?_⟩
        exact List.forall_mem_singleton.mpr (now ▸ later)
      · rw [ended]
        refine List.pairwise_append.mpr ⟨before.ordered, List.pairwise_singleton .., ?_⟩
        intro a member b last
        obtain rfl := List.mem_singleton.mp last
        rw [now]
        exact before.past a member
      · rcases before.run with ⟨steps, trace, labels⟩
        refine ⟨_, trace.snoc effect, ?_⟩
        rw [ended, List.map_append, List.map_append, labels]
        rfl

theorem Committed.linearizable (committed : view.Committed M first s) :
    Linearizable M first (view.ended s) (view.content s) := by
  refine ⟨view.ended s, .refl _, ?_, committed.run⟩
  refine committed.ordered.imp_of_mem ?_
  intro a b inside _ ordered overtaken
  have starts := committed.intervals a inside
  have ends : b.finish < a.start := overtaken
  omega

/-- **The rule of linearizability.** When time passes with every step, and each step leaves the
content alone or is the end of one call with its whole effect, every history is linearizable. -/
theorem linearizable_of_commits {N : Machine S ι} {guard : S → ι → Prop}
    (empty : ∀ s, N.start s → view.ended s = [] ∧ view.content s = first)
    (commits : ∀ s i s', N.Reach guard s → N.step s i s' →
      view.clock s < view.clock s' ∧ view.Commits M s s')
    (reached : N.Reach guard s) : Linearizable M first (view.ended s) (view.content s) := by
  have committed : view.Committed M first s := by
    refine reached.invariant_of_reach (view.Committed M first) ?_ ?_
    · intro s started
      obtain ⟨none, same⟩ := empty s started
      have nothing : ∀ op, op ∉ view.ended s := by
        intro op
        rw [none]
        exact List.not_mem_nil
      refine ⟨fun op member => absurd member (nothing op),
        fun op member => absurd member (nothing op), ?_, [], ?_, ?_⟩
      · rw [none]
        exact .nil
      · rw [same]
        exact .nil first
      · rw [none]
        rfl
    · intro s i s' earlier before _ taken
      obtain ⟨later, commit⟩ := commits s i s' earlier taken
      exact before.next later commit
  exact committed.linearizable

end Observation

end Foundation
