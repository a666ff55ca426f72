import ArbBot.Foundation.Runs
import Mathlib.Algebra.BigOperators.Group.List.Basic
import Mathlib.Algebra.Order.Monoid.Defs

/-!
# Interleaved tasks and their ledgers

A `System` says what one task does to the shared state, given a choice of its
environment, and which tasks continue it. In a run of a `Pool` any task may go next.

`System.next_keeps_allowed` is the rule of stable assertions, one assertion for each task. A
ledger books a value of the shared state and what each task owes to it. When no task
changes the sum of the two in one of its steps, no run does (`Reach.total_eq`); when no
task raises it, no run does (`Reach.total_le`). `System.exec` plays a given schedule.
-/

namespace Foundation

/-- A program of tasks over a shared state. -/
structure System (σ τ ι : Type*) where
  run : σ → τ → ι → Option (σ × List τ)

/-- The shared state and the tasks. -/
structure Pool (σ τ : Type*) where
  shared : σ
  tasks : List τ

namespace System

variable {σ τ ι : Type*}

/-- The task at position `i` goes next and is replaced by what continues it. -/
def next (sys : System σ τ ι) (p : Pool σ τ) (i : Nat) (choice : ι) : Option (Pool σ τ) :=
  match p.tasks[i]? with
  | none => none
  | some task =>
      match sys.run p.shared task choice with
      | none => none
      | some (shared, tasks) =>
          some { shared := shared, tasks := p.tasks.take i ++ tasks ++ p.tasks.drop (i + 1) }

/-- Any task goes next. -/
def machine (sys : System σ τ ι) (start : Pool σ τ → Prop) : Machine (Pool σ τ) (Nat × ι) where
  start := start
  step p label p' := sys.next p label.1 label.2 = some p'

/-- A schedule, as long as its steps meet the guard. -/
def exec (sys : System σ τ ι) (guard : Pool σ τ → Nat × ι → Prop)
    [∀ p label, Decidable (guard p label)] (p : Pool σ τ) (schedule : List (Nat × ι)) :
    Option (Pool σ τ) :=
  schedule.foldlM (fun p label => if guard p label then sys.next p label.1 label.2 else none) p

theorem exec_reach {sys : System σ τ ι} {start : Pool σ τ → Prop}
    {guard : Pool σ τ → Nat × ι → Prop} [∀ p label, Decidable (guard p label)]
    {p p' : Pool σ τ} {schedule : List (Nat × ι)}
    (reached : (sys.machine start).Reach guard p)
    (played : sys.exec guard p schedule = some p') : (sys.machine start).Reach guard p' :=
  Machine.play_reach reached played

theorem exec_trace {sys : System σ τ ι} {start : Pool σ τ → Prop}
    {guard : Pool σ τ → Nat × ι → Prop} [∀ p label, Decidable (guard p label)]
    {p p' : Pool σ τ} {schedule : List (Nat × ι)}
    (played : sys.exec guard p schedule = some p') :
    ∃ steps, (sys.machine start).Trace p steps p' ∧
      ∀ entry ∈ steps, guard entry.before entry.label :=
  Machine.play_trace played

/-- What a step of the pool is: a step of one of its tasks. -/
theorem next_eq_some_iff {sys : System σ τ ι} {p p' : Pool σ τ} {i : Nat} {choice : ι} :
    sys.next p i choice = some p' ↔ ∃ task shared tasks, p.tasks[i]? = some task ∧
      sys.run p.shared task choice = some (shared, tasks) ∧
        p' = { shared := shared, tasks := p.tasks.take i ++ tasks ++ p.tasks.drop (i + 1) } := by
  unfold next
  constructor
  · intro taken
    split at taken
    · cases taken
    · rename_i task found
      split at taken
      · cases taken
      · rename_i shared tasks ran
        exact ⟨task, shared, tasks, found, ran, (Option.some.inj taken).symm⟩
  · intro given
    rcases given with ⟨task, shared, tasks, found, ran, rfl⟩
    simp only [found, ran]

/-- A step of a task that one task continues. -/
def Alone (sys : System σ τ ι) (before after : σ × τ) : Prop :=
  ∃ choice, sys.run before.1 before.2 choice = some (after.1, [after.2])

/-- The pool, when one of its tasks goes all the way alone. -/
theorem Reach.alone {sys : System σ τ ι} {start : Pool σ τ → Prop} {p : Pool σ τ} {i : Nat}
    {task task' : τ} {shared : σ} (reached : (sys.machine start).Reach Machine.anyStep p)
    (found : p.tasks[i]? = some task)
    (run : Relation.ReflTransGen sys.Alone (p.shared, task) (shared, task')) :
    (sys.machine start).Reach Machine.anyStep
      { shared := shared, tasks := p.tasks.set i task' } := by
  have inside := (List.getElem?_eq_some_iff.mp found).1
  have along : ∀ after : σ × τ, Relation.ReflTransGen sys.Alone (p.shared, task) after →
      (sys.machine start).Reach Machine.anyStep
        { shared := after.1, tasks := p.tasks.set i after.2 } := by
    intro after run
    induction run with
    | refl =>
        rw [← (List.getElem?_eq_some_iff.mp found).2, List.set_getElem_self]
        exact reached
    | @tail before after _ step ih =>
        rcases step with ⟨choice, ran⟩
        refine ih.step (i := (i, choice)) trivial (next_eq_some_iff.mpr
          ⟨before.2, after.1, [after.2], List.getElem?_set_self inside, ran, ?_⟩)
        rw [List.take_set_of_le (Nat.le_refl i), List.drop_set_of_lt (Nat.lt_succ_self i),
          List.append_assoc, List.singleton_append, List.set_eq_take_append_cons_drop,
          if_pos inside]
  exact along _ run

/-- A property of the shared state that every step of a task keeps. -/
theorem Reach.shared {sys : System σ τ ι} {start : Pool σ τ → Prop}
    {guard : Pool σ τ → Nat × ι → Prop} {p : Pool σ τ} (Inv : σ → Prop)
    (atStart : ∀ p, start p → Inv p.shared)
    (kept : ∀ s t choice s' new, sys.run s t choice = some (s', new) → Inv s → Inv s')
    (reached : (sys.machine start).Reach guard p) : Inv p.shared := by
  refine reached.invariant (fun p => Inv p.shared) atStart ?_
  intro p label p' before _ taken
  rcases next_eq_some_iff.mp taken with ⟨task, shared, tasks, _, ran, rfl⟩
  exact kept _ _ _ _ _ ran before

/-- **The rule of stable assertions.** An invariant of the shared state and an assertion of
each task are kept, when a step that its task allows establishes those of its successors and
leaves those of the other tasks stable. -/
theorem next_keeps_allowed {sys : System σ τ ι} {p p' : Pool σ τ} {i : Nat} {choice : ι}
    {Inv : σ → Prop} {Assert : σ → τ → Prop} {Allowed : τ → ι → Prop}
    (kept : ∀ s t choice s' new, Allowed t choice → sys.run s t choice = some (s', new) →
      Inv s → Assert s t → Inv s' ∧ (∀ t' ∈ new, Assert s' t') ∧ ∀ t', Assert s t' → Assert s' t')
    (allowed : ∀ t, p.tasks[i]? = some t → Allowed t choice)
    (taken : sys.next p i choice = some p')
    (before : Inv p.shared ∧ ∀ t ∈ p.tasks, Assert p.shared t) :
    Inv p'.shared ∧ ∀ t ∈ p'.tasks, Assert p'.shared t := by
  rcases next_eq_some_iff.mp taken with ⟨task, shared, tasks, found, ran, rfl⟩
  obtain ⟨inv, assert⟩ := before
  have own := assert task (List.mem_of_getElem? found)
  obtain ⟨inv', created, stable⟩ := kept _ _ _ _ _ (allowed task found) ran inv own
  refine ⟨inv', ?_⟩
  intro t member
  rw [List.mem_append, List.mem_append] at member
  rcases member with (earlier | new) | later
  · exact stable t (assert t (List.mem_of_mem_take earlier))
  · exact created t new
  · exact stable t (assert t (List.mem_of_mem_drop later))

/-- The rule of stable assertions, where every step is allowed. -/
theorem next_keeps {sys : System σ τ ι} {p p' : Pool σ τ} {i : Nat} {choice : ι}
    {Inv : σ → Prop} {Assert : σ → τ → Prop}
    (kept : ∀ s t choice s' new, sys.run s t choice = some (s', new) → Inv s → Assert s t →
      Inv s' ∧ (∀ t' ∈ new, Assert s' t') ∧ ∀ t', Assert s t' → Assert s' t')
    (taken : sys.next p i choice = some p')
    (before : Inv p.shared ∧ ∀ t ∈ p.tasks, Assert p.shared t) :
    Inv p'.shared ∧ ∀ t ∈ p'.tasks, Assert p'.shared t := by
  exact @next_keeps_allowed _ _ _ sys p p' i choice Inv Assert (fun _ _ => True)
    (fun s t choice s' new _ => kept s t choice s' new) (fun _ _ => trivial) taken before

end System

/-! ## Ledgers -/

section Ledger

variable {σ τ ι M : Type*} [AddCommMonoid M]

/-- The value of the shared state with what all tasks owe. -/
def Pool.total (value : σ → M) (owed : τ → M) (p : Pool σ τ) : M :=
  value p.shared + (p.tasks.map owed).sum

variable {sys : System σ τ ι} {start : Pool σ τ → Prop} {guard : Pool σ τ → Nat × ι → Prop}
  {value : σ → M} {owed : τ → M} {p p' : Pool σ τ} {i : Nat} {task : τ} {shared : σ}
  {tasks : List τ}

/-- The total, with one task set apart. -/
theorem Pool.total_eq_add (found : p.tasks[i]? = some task) :
    p.total value owed = value p.shared + owed task +
      (((p.tasks.take i).map owed).sum + ((p.tasks.drop (i + 1)).map owed).sum) := by
  rcases List.getElem?_eq_some_iff.mp found with ⟨inside, rfl⟩
  have split : p.tasks = p.tasks.take i ++ p.tasks[i] :: p.tasks.drop (i + 1) := by
    rw [List.cons_getElem_drop_succ, List.take_append_drop]
  have sums : (p.tasks.map owed).sum = ((p.tasks.take i).map owed).sum +
      (owed p.tasks[i] + ((p.tasks.drop (i + 1)).map owed).sum) := by
    conv_lhs => rw [split]
    rw [List.map_append, List.sum_append, List.map_cons, List.sum_cons]
  rw [Pool.total, sums, add_left_comm ((p.tasks.take i).map owed).sum, ← add_assoc]

theorem Pool.total_replaced :
    Pool.total value owed
        { shared := shared, tasks := p.tasks.take i ++ tasks ++ p.tasks.drop (i + 1) } =
      value shared + (tasks.map owed).sum +
        (((p.tasks.take i).map owed).sum + ((p.tasks.drop (i + 1)).map owed).sum) := by
  rw [Pool.total, List.map_append, List.map_append, List.sum_append, List.sum_append,
    add_comm ((p.tasks.take i).map owed).sum, add_assoc, add_assoc]

/-- The rule of a balanced ledger, for steps that balance where the books do. -/
theorem System.Reach.total_eq_of_total {c : M}
    (balanced : ∀ p t choice s' new, (sys.machine start).Reach guard p →
      p.total value owed = c → t ∈ p.tasks → sys.run p.shared t choice = some (s', new) →
        value s' + (new.map owed).sum = value p.shared + owed t)
    (atStart : ∀ p, start p → p.total value owed = c)
    (reached : (sys.machine start).Reach guard p) : p.total value owed = c := by
  refine reached.invariant_of_reach (fun p => p.total value owed = c) atStart ?_
  intro p label p' earlier before _ taken
  rcases System.next_eq_some_iff.mp taken with ⟨task, shared, tasks, found, ran, rfl⟩
  have own := List.mem_of_getElem? found
  rw [Pool.total_replaced, balanced _ _ _ _ _ earlier before own ran, ← Pool.total_eq_add found]
  exact before

/-- **The rule of a balanced ledger.** -/
theorem System.Reach.total_eq {c : M}
    (balanced : ∀ s t choice s' new, sys.run s t choice = some (s', new) →
      value s' + (new.map owed).sum = value s + owed t)
    (atStart : ∀ p, start p → p.total value owed = c)
    (reached : (sys.machine start).Reach guard p) : p.total value owed = c :=
  System.Reach.total_eq_of_total (fun _ _ _ _ _ _ _ _ ran => balanced _ _ _ _ _ ran) atStart reached

variable [PartialOrder M] [IsOrderedAddMonoid M]

/-- **The rule of a ledger that no step raises.** -/
theorem System.Reach.total_le {c : M}
    (settled : ∀ p t choice s' new, (sys.machine start).Reach guard p →
      sys.run p.shared t choice = some (s', new) →
        value s' + (new.map owed).sum ≤ value p.shared + owed t)
    (atStart : ∀ p, start p → p.total value owed ≤ c)
    (reached : (sys.machine start).Reach guard p) : p.total value owed ≤ c := by
  refine reached.invariant_of_reach (fun p => p.total value owed ≤ c) atStart ?_
  intro p label p' earlier before _ taken
  rcases System.next_eq_some_iff.mp taken with ⟨task, shared, tasks, found, ran, rfl⟩
  refine le_trans ?_ before
  rw [Pool.total_replaced, Pool.total_eq_add found]
  exact add_le_add_left (settled _ _ _ _ _ earlier ran) _

/-- The rule of a ledger over the steps of a run: no step raises the total by more than is
booked for it. -/
theorem Machine.Trace.total_le {booked : Machine.Entry (Pool σ τ) (Nat × ι) → M} {q : Pool σ τ}
    {steps : List (Machine.Entry (Pool σ τ) (Nat × ι))}
    (trace : (sys.machine start).Trace q steps p)
    (settled : ∀ entry ∈ steps, ∀ t s' new, entry.before.tasks[entry.label.1]? = some t →
      sys.run entry.before.shared t entry.label.2 = some (s', new) →
        value s' + (new.map owed).sum ≤ value entry.before.shared + owed t + booked entry) :
    p.total value owed ≤ q.total value owed + (steps.map booked).sum := by
  induction trace with
  | nil => rw [List.map_nil, List.sum_nil, add_zero]
  | @snoc t u label steps earlier taken ih =>
      obtain ⟨before, last⟩ := List.forall_mem_append.mp settled
      rcases System.next_eq_some_iff.mp taken with ⟨task, shared, tasks, found, ran, rfl⟩
      have step := last _ (List.mem_singleton_self _) task shared tasks found ran
      rw [List.map_append, List.sum_append, List.map_singleton, List.sum_singleton,
        Pool.total_replaced]
      refine le_trans (add_le_add_left step _) ?_
      rw [add_right_comm, ← Pool.total_eq_add found, ← add_assoc]
      exact add_le_add_left (ih before) _

end Ledger

end Foundation
