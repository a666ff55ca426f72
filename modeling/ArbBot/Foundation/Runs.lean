import Mathlib.Logic.Relation
import Mathlib.Data.List.Basic

/-!
# Guarded runs of a labelled machine

A `Machine` is a start predicate and a labelled step relation. `Reach M guard s`
says that `s` ends a run all of whose steps meet `guard`; the guard names the
inputs a group of results is about, so one machine serves results about every
run and results about restricted runs alike.

* `Machine.Reach.invariant` is the induction rule for reachable states.
* `Machine.Trace` keeps the steps of a run. `Machine.Trace.all_iff` is the rule
  for an *exact* guard: when each step keeps a property just when it meets the
  guard, a run keeps the property throughout just when all its steps meet it.
-/

namespace Foundation

/-- A labelled transition system with start states. -/
structure Machine (σ ι : Type*) where
  start : σ → Prop
  step : σ → ι → σ → Prop

namespace Machine

variable {σ ι : Type*} {M : Machine σ ι} {guard : σ → ι → Prop}

/-- One step that meets the guard. -/
def GuardedStep (M : Machine σ ι) (guard : σ → ι → Prop) (s s' : σ) : Prop :=
  ∃ i, guard s i ∧ M.step s i s'

/-- The state ends a run from a start state whose steps all meet the guard. -/
def Reach (M : Machine σ ι) (guard : σ → ι → Prop) (s : σ) : Prop :=
  ∃ s₀, M.start s₀ ∧ Relation.ReflTransGen (M.GuardedStep guard) s₀ s

/-- No restriction on the steps of a run. -/
def anyStep : σ → ι → Prop := fun _ _ => True

instance (s : σ) (i : ι) : Decidable (anyStep s i) := isTrue trivial

theorem Reach.ofStart {s : σ} (started : M.start s) : M.Reach guard s :=
  ⟨s, started, .refl⟩

theorem Reach.step {s s' : σ} {i : ι} (reached : M.Reach guard s)
    (allowed : guard s i) (taken : M.step s i s') : M.Reach guard s' := by
  obtain ⟨s₀, started, run⟩ := reached
  exact ⟨s₀, started, run.tail ⟨i, allowed, taken⟩⟩

/-- A property of start states that every guarded step keeps holds of every
reachable state. -/
theorem Reach.invariant (Inv : σ → Prop) (atStart : ∀ s, M.start s → Inv s)
    (kept : ∀ s i s', Inv s → guard s i → M.step s i s' → Inv s')
    {s : σ} (reached : M.Reach guard s) : Inv s := by
  obtain ⟨s₀, started, run⟩ := reached
  induction run with
  | refl => exact atStart _ started
  | tail _ last ih =>
      obtain ⟨i, allowed, taken⟩ := last
      exact kept _ i _ ih allowed taken

/-- The rule of invariance, for a step that rests on another fact about reachable states. -/
theorem Reach.invariant_of_reach (Inv : σ → Prop) (atStart : ∀ s, M.start s → Inv s)
    (kept : ∀ s i s', M.Reach guard s → Inv s → guard s i → M.step s i s' → Inv s')
    {s : σ} (reached : M.Reach guard s) : Inv s := by
  have both : M.Reach guard s ∧ Inv s := by
    refine reached.invariant (fun s => M.Reach guard s ∧ Inv s) ?_ ?_
    · exact fun s started => ⟨.ofStart started, atStart s started⟩
    · rintro s i s' ⟨earlier, before⟩ allowed taken
      exact ⟨earlier.step allowed taken, kept s i s' earlier before allowed taken⟩
  exact both.2

theorem Reach.mono {weaker : σ → ι → Prop} {s : σ}
    (weaken : ∀ s i, guard s i → weaker s i) (reached : M.Reach guard s) :
    M.Reach weaker s := by
  obtain ⟨s₀, started, run⟩ := reached
  refine ⟨s₀, started, Relation.ReflTransGen.mono (fun a b step => ?_) s₀ s run⟩
  obtain ⟨i, allowed, taken⟩ := step
  exact ⟨i, weaken _ _ allowed, taken⟩

/-! ## Runs with their steps -/

/-- One step of a run: the state before, the label and the state after. -/
structure Entry (σ ι : Type*) where
  before : σ
  label : ι
  after : σ

/-- A run from the first to the last state, with its steps in order. -/
inductive Trace (M : Machine σ ι) : σ → List (Entry σ ι) → σ → Prop
  | nil (s : σ) : Trace M s [] s
  | snoc {s t u : σ} {i : ι} {steps : List (Entry σ ι)} :
    Trace M s steps t → M.step t i u → Trace M s (steps ++ [⟨t, i, u⟩]) u

theorem Trace.invariant {Inv : σ → Prop}
    (kept : ∀ s i s', Inv s → M.step s i s' → Inv s')
    {s t : σ} {steps : List (Entry σ ι)} (trace : M.Trace s steps t) (first : Inv s) :
    Inv t := by
  induction trace with
  | nil => exact first
  | snoc _ taken ih => exact kept _ _ _ ih taken

theorem Trace.forall_after {Inv : σ → Prop}
    (kept : ∀ s i s', Inv s → M.step s i s' → Inv s')
    {s t : σ} {steps : List (Entry σ ι)} (trace : M.Trace s steps t) (first : Inv s) :
    ∀ entry ∈ steps, Inv entry.after := by
  induction trace with
  | nil => exact fun _ member => absurd member List.not_mem_nil
  | snoc earlier taken ih =>
      have last := kept _ _ _ (earlier.invariant kept first) taken
      exact List.forall_mem_append.mpr ⟨ih, List.forall_mem_singleton.mpr last⟩

theorem Trace.reach_guarded {s t : σ} {steps : List (Entry σ ι)} (trace : M.Trace s steps t)
    (started : M.start s) (allowed : ∀ entry ∈ steps, guard entry.before entry.label) :
    M.Reach guard t := by
  induction trace with
  | nil => exact .ofStart started
  | snoc _ taken ih =>
      obtain ⟨earlier, last⟩ := List.forall_mem_append.mp allowed
      exact (ih earlier).step (last _ (List.mem_singleton_self _)) taken

/-- Each step of a guarded run starts in a state that such a run reaches. -/
theorem Trace.reach_before_guarded {s t : σ} {steps : List (Entry σ ι)}
    (trace : M.Trace s steps t) (started : M.start s)
    (allowed : ∀ entry ∈ steps, guard entry.before entry.label) :
    ∀ entry ∈ steps, M.Reach guard entry.before := by
  induction trace with
  | nil => exact fun _ member => absurd member List.not_mem_nil
  | snoc earlier _ ih =>
      obtain ⟨before, _⟩ := List.forall_mem_append.mp allowed
      have last := earlier.reach_guarded started before
      exact List.forall_mem_append.mpr ⟨ih before, List.forall_mem_singleton.mpr last⟩

theorem Trace.reach {s t : σ} {steps : List (Entry σ ι)} (trace : M.Trace s steps t)
    (started : M.start s) : M.Reach anyStep t :=
  trace.reach_guarded started fun _ _ => trivial

theorem Trace.reach_before {s t : σ} {steps : List (Entry σ ι)} (trace : M.Trace s steps t)
    (started : M.start s) : ∀ entry ∈ steps, M.Reach anyStep entry.before :=
  trace.reach_before_guarded started fun _ _ => trivial

theorem Trace.cons {s t u : σ} {i : ι} {steps : List (Entry σ ι)} (taken : M.step s i t)
    (trace : M.Trace t steps u) : M.Trace s (⟨s, i, t⟩ :: steps) u := by
  induction trace with
  | nil => exact .snoc (.nil s) taken
  | snoc _ last ih => exact .snoc ih last

/-- The last state of a run is its first one or the state after one of its steps. -/
theorem Trace.last_mem {s t : σ} {steps : List (Entry σ ι)} (trace : M.Trace s steps t) :
    t = s ∨ ∃ entry ∈ steps, entry.after = t := by
  cases trace with
  | nil => exact Or.inl rfl
  | snoc _ _ => exact Or.inr ⟨_, List.mem_append_right _ (List.mem_singleton_self _), rfl⟩

/-- **The rule of an exact guard.** If, from a state with the invariant and the
property, a step keeps the property just when it meets the guard, then a run
keeps the property in every state it reaches just when all its steps meet the
guard. -/
theorem Trace.all_iff (Inv Prp : σ → Prop)
    (kept : ∀ s i s', Inv s → M.step s i s' → Inv s')
    (exactly : ∀ s i s', Inv s → Prp s → M.step s i s' → (Prp s' ↔ guard s i))
    {s t : σ} {steps : List (Entry σ ι)} (trace : M.Trace s steps t)
    (firstInv : Inv s) (firstPrp : Prp s) :
    (∀ entry ∈ steps, Prp entry.after) ↔
      ∀ entry ∈ steps, guard entry.before entry.label := by
  induction trace with
  | nil => simp
  | @snoc t u i steps trace taken ih =>
      have midInv : Inv t := trace.invariant kept firstInv
      simp only [List.forall_mem_append, List.forall_mem_singleton, ← ih]
      apply and_congr_right
      intro earlier
      have midPrp : Prp t := by
        rcases trace.last_mem with same | ⟨entry, member, same⟩
        · rw [same]; exact firstPrp
        · rw [← same]; exact earlier entry member
      exact exactly t i u midInv midPrp taken

/-! ## Step functions -/

section Play

/-- The machine of a step function. -/
def ofFun (start : σ → Prop) (step : σ → ι → Option σ) : Machine σ ι where
  start := start
  step s i s' := step s i = some s'

/-- A schedule, as long as its steps meet the guard. -/
def play (step : σ → ι → Option σ) (guard : σ → ι → Prop) [∀ s i, Decidable (guard s i)] (s : σ)
    (schedule : List ι) : Option σ :=
  schedule.foldlM (fun s i => if guard s i then step s i else none) s

variable {start : σ → Prop} {step : σ → ι → Option σ} {guard : σ → ι → Prop}
  [∀ s i, Decidable (guard s i)] {s s' : σ} {schedule : List ι}

theorem play_cons {i : ι} (played : play step guard s (i :: schedule) = some s') :
    ∃ t, guard s i ∧ step s i = some t ∧ play step guard t schedule = some s' := by
  rw [play, List.foldlM_cons] at played
  rcases Option.bind_eq_some_iff.mp played with ⟨t, first, later⟩
  split at first
  · rename_i allowed
    exact ⟨t, allowed, first, later⟩
  · cases first

theorem play_reach (reached : (ofFun start step).Reach guard s)
    (played : play step guard s schedule = some s') : (ofFun start step).Reach guard s' := by
  induction schedule generalizing s with
  | nil =>
      obtain rfl := Option.some.inj played
      exact reached
  | cons i rest ih =>
      rcases play_cons played with ⟨t, allowed, taken, later⟩
      exact ih (reached.step allowed taken) later

theorem play_trace (played : play step guard s schedule = some s') :
    ∃ steps, (ofFun start step).Trace s steps s' ∧
      ∀ entry ∈ steps, guard entry.before entry.label := by
  induction schedule generalizing s with
  | nil =>
      obtain rfl := Option.some.inj played
      exact ⟨[], .nil s, by simp⟩
  | cons i rest ih =>
      rcases play_cons played with ⟨t, allowed, taken, later⟩
      rcases ih later with ⟨steps, trace, all⟩
      have first : (ofFun start step).step s i t := taken
      exact ⟨_, trace.cons first, List.forall_mem_cons.mpr ⟨allowed, all⟩⟩

end Play

end Machine

end Foundation
