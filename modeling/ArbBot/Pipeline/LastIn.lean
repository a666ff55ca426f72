import ArbBot.Foundation.Stack
import ArbBot.Pipeline.Permits

/-!
# The order of the queue

The queue is a stack, and a requeue is a push. A worker pops the item that was pushed last,
so it is as fresh as the items that stay exactly when no fresher one was there as it was
pushed (`pops_last_pushed`). An item that is pushed in the instant it arrived finds no
fresher one; an item that comes back may.
-/

namespace ArbBot

open Foundation

/-! ## No item is from the future -/

/-- The item is with the task: held, or on its way into the queue. -/
def Task.Carries (task : Task) (item : ReadyInstruction) : Prop :=
  (∃ action ∈ task.pending, action.pushes? = some item) ∨ task.stage.item? = some item

/-- The items of the queue arrived by now. -/
def QueuedByNow (s : Shared) : Prop := ∀ item ∈ s.lifo, item.arrivedAt ≤ s.now

def CarriedByNow (s : Shared) (task : Task) : Prop :=
  ∀ item, task.Carries item → item.arrivedAt ≤ s.now

section Step

variable {cfg : Settings} {s s' : Shared} {stage : Stage} {choice : Choice} {tasks : List Task}

/-- A task that carries nothing. -/
def Task.Empty (task : Task) : Prop :=
  (∀ action ∈ task.pending, action.pushes? = none) ∧ task.stage.item? = none

theorem Task.Empty.byNow {task : Task} (empty : task.Empty) : CarriedByNow s task := by
  intro item carries
  rcases carries with ⟨action, member, pushes⟩ | holds
  · rw [empty.1 action member] at pushes
    cases pushes
  · rw [empty.2] at holds
    cases holds

theorem pushes_of_free {pending : List Action} (free : Free pending) :
    ∀ action ∈ pending, action.pushes? = none := by
  intro action member
  have none := free action member
  cases action <;> first | rfl | cases none

theorem item_of_holdsPair (holds : stage.holdsPair) : stage.item? = none := by
  cases stage <;> first | rfl | cases holds

/-- A task that has its item and pushes nothing else. -/
theorem carriedByNow_of_item {pending : List Action} {item : ReadyInstruction}
    (free : Free pending) (holds : stage.item? = some item) (arrived : item.arrivedAt ≤ s.now) :
    CarriedByNow s { pending := pending, stage := stage } := by
  intro item' carries
  rcases carries with ⟨action, member, pushes⟩ | holds'
  · rw [pushes_of_free free action member] at pushes
    cases pushes
  · obtain rfl : item = item' := Option.some.inj (holds.symm.trans holds')
    exact arrived

theorem carriedByNow_requeued {item : ReadyInstruction} (arrived : item.arrivedAt ≤ s.now) :
    CarriedByNow s (requeued item) := by
  intro item' carries
  rcases carries with ⟨action, member, pushes⟩ | holds
  · have pending : action = .push { item with waitedForSlot := true } := by
      cases action with
      | push other =>
          simp only [requeued, List.mem_append, List.mem_cons, List.not_mem_nil] at member
          rcases member with first | same | other | other | none
          · split at first <;> simp at first
          · exact same
          · cases other
          · cases other
          · exact none.elim
      | _ => cases pushes
    subst pending
    obtain rfl := Option.some.inj pushes
    exact arrived
  · cases holds

theorem carriedByNow_task_of_item {item : ReadyInstruction} (holds : stage.item? = some item)
    (arrived : item.arrivedAt ≤ s.now) : CarriedByNow s stage.task :=
  carriedByNow_of_item (fun _ none => absurd none List.not_mem_nil) holds arrived

theorem carriedByNow_of_free {task : Task} (free : Free task.pending)
    (none : task.stage.item? = none) : CarriedByNow s task :=
  Task.Empty.byNow ⟨pushes_of_free free, none⟩

theorem carriedByNow_task_of_none (none : stage.item? = none) : CarriedByNow s stage.task :=
  carriedByNow_of_free (fun _ none => absurd none List.not_mem_nil) none

/-- What a move leaves with the tasks arrived by now. -/
theorem carriedByNow_of_move (move : Move cfg s stage s' tasks) (queued : QueuedByNow s)
    (held : ∀ item, stage.item? = some item → item.arrivedAt ≤ s.now) :
    ∀ task ∈ tasks, CarriedByNow s task := by
  cases move with
  | check tokenMint amount onlyDirect =>
      intro task member
      rcases List.mem_cons.mp member with rfl | member
      · exact carriedByNow_of_free (by simp [Free, Action.permits]) rfl
      · rw [List.mem_singleton.mp member]
        exact carriedByNow_task_of_none rfl
  | spawn merged =>
      intro task member
      rcases List.mem_cons.mp member with rfl | member
      · exact carriedByNow_task_of_none rfl
      · rw [List.mem_singleton.mp member]
        exact carriedByNow_task_of_none rfl
  | quoted tokenMint amount onlyDirect outcome =>
      exact List.forall_mem_singleton.mpr (carriedByNow_of_free (free_quoted tokenMint outcome) rfl)
  | descend store counters holds next scan =>
      exact List.forall_mem_singleton.mpr
        (carriedByNow_of_free (free_counters counters) (item_of_holdsPair next))
  | ramHit store merged sig patched holds =>
      have free : Free (ArbBot.ramHit merged sig patched).pending := by
        simp [Free, ArbBot.ramHit, Action.permits]
      exact List.forall_mem_singleton.mpr (carriedByNow_of_free free rfl)
  | answered merged fetchMs result =>
      have none : (metisAnswer cfg merged fetchMs result).stage.item? = none := by
        cases result <;> rfl
      exact List.forall_mem_singleton.mpr
        (carriedByNow_of_free (free_metisAnswer cfg merged fetchMs result) none)
  | push item arrives next id arrivedAt =>
      rw [List.forall_mem_singleton]
      intro item' carries
      rcases carries with ⟨action, member, pushes⟩ | holds
      · have same : item = item' := by
          simp only [List.mem_cons, List.not_mem_nil, or_false] at member
          rcases member with rfl | rfl | rfl | rfl
          · exact Option.some.inj pushes
          · cases pushes
          · cases pushes
          · cases pushes
        rw [← same]
        exact Nat.le_of_eq arrivedAt
      · rcases next with rfl | rfl <;> cases holds
  | @pop item rest top =>
      have arrived := queued item (top ▸ List.mem_cons_self)
      exact List.forall_mem_singleton.mpr
        (carriedByNow_of_item (by simp [Free, Action.permits]) rfl arrived)
  | noGrpc item absent =>
      exact List.forall_mem_singleton.mpr (carriedByNow_requeued (held item rfl))
  | refuseGrpc item present refused =>
      exact List.forall_mem_singleton.mpr (carriedByNow_requeued (held item rfl))
  | fresh item | refuseRest item refused | grantRest item granted =>
      exact List.forall_mem_singleton.mpr (carriedByNow_task_of_item rfl (held item rfl))
  | grantGrpc item present granted =>
      exact List.forall_mem_singleton.mpr (carriedByNow_task_of_item rfl (held item rfl))
  | send item grant =>
      exact List.forall_mem_singleton.mpr (carriedByNow_task_of_item rfl (held item rfl))
  | built item grant =>
      exact List.forall_mem_singleton.mpr
        (carriedByNow_of_item (by simp [Free, Action.permits]) rfl (held item rfl))
  | dropPair _ _ | noServe _ | stale _ | dropBuild _ _ _ | sendFailed _ =>
      exact List.forall_mem_singleton.mpr (carriedByNow_of_free (free_drop _) rfl)
  | sent item =>
      exact List.forall_mem_singleton.mpr
        (carriedByNow_of_free (by simp [Free, Action.permits]) rfl)
  | _ => exact List.forall_mem_singleton.mpr (carriedByNow_task_of_none rfl)

/-- A move lets time pass, and takes the top item or leaves the queue. -/
theorem queue_of_move (move : Move cfg s stage s' tasks) :
    s.now ≤ s'.now ∧ (s'.lifo = s.lifo ∨ ∃ item, s.lifo = item :: s'.lifo) := by
  cases move with
  | wait nanoseconds => exact ⟨Nat.le_add_right _ _, Or.inl rfl⟩
  | pop top => exact ⟨Nat.le_refl _, Or.inr ⟨_, top⟩⟩
  | _ => exact ⟨Nat.le_refl _, Or.inl rfl⟩

theorem perform_now (cfg : Settings) (s : Shared) (action : Action) :
    (perform cfg s action).now = s.now := by
  cases action <;> rfl

theorem perform_lifo (cfg : Settings) (s : Shared) (action : Action) :
    (perform cfg s action).lifo = action.pushes?.toList ++ s.lifo := by
  cases action <;> rfl

/-- **One step** of a task lets time pass, and leaves the queue, pushes or pops. -/
theorem queue_of_run {task : Task} (ran : (pipeline cfg).run s task choice = some (s', tasks)) :
    s.now ≤ s'.now ∧ Machine.StackStep Shared.lifo s s' := by
  rcases run_cases ran with ⟨action, rest, -, rfl, rfl⟩ | ⟨-, move⟩
  · refine ⟨Nat.le_of_eq (perform_now cfg s action).symm, ?_⟩
    have lifo := perform_lifo cfg s action
    cases pushes : action.pushes? with
    | none => exact Or.inl (by rw [lifo, pushes]; rfl)
    | some item => exact Or.inr (Or.inl ⟨item, by rw [lifo, pushes]; rfl⟩)
  · obtain ⟨later, same | pops⟩ := queue_of_move move
    · exact ⟨later, Or.inl same⟩
    · exact ⟨later, Or.inr (Or.inr pops)⟩

theorem byNow_of_run {task : Task} (ran : (pipeline cfg).run s task choice = some (s', tasks))
    (queued : QueuedByNow s) (carried : CarriedByNow s task) :
    QueuedByNow s' ∧ (∀ t ∈ tasks, CarriedByNow s' t) ∧
      ∀ t, CarriedByNow s t → CarriedByNow s' t := by
  have later := (queue_of_run ran).1
  refine ⟨?_, ?_, fun t carried' item carries => (carried' item carries).trans later⟩
  · rcases run_cases ran with ⟨action, rest, pending, rfl, rfl⟩ | ⟨-, move⟩
    · intro item member
      rw [perform_lifo, List.mem_append, Option.mem_toList] at member
      rcases member with pushed | queued'
      · have first : action ∈ task.pending := pending ▸ List.mem_cons_self
        exact (carried item (Or.inl ⟨action, first, pushed⟩)).trans later
      · exact (queued item queued').trans later
    · intro item member
      rcases (queue_of_move move).2 with same | ⟨top, pops⟩
      · exact (queued item (same ▸ member)).trans later
      · exact (queued item (pops ▸ List.mem_cons_of_mem _ member)).trans later
  · rcases run_cases ran with ⟨action, rest, pending, rfl, rfl⟩ | ⟨-, move⟩
    · rw [List.forall_mem_singleton]
      intro item carries
      refine (carried item ?_).trans later
      rcases carries with ⟨other, member, pushes⟩ | holds
      · exact Or.inl ⟨other, pending ▸ List.mem_cons_of_mem _ member, pushes⟩
      · exact Or.inr holds
    · intro t member item carries
      have held : ∀ item, task.stage.item? = some item → item.arrivedAt ≤ s.now :=
        fun item holds => carried item (Or.inr holds)
      exact (carriedByNow_of_move move queued held t member item carries).trans later

end Step

/-! ## Runs -/

section Runs

variable {cfg : Settings} {guard : Pool Shared Task → Nat × Choice → Prop} {p : Pool Shared Task}

theorem queuedByNow_reach (reached : (pipelineMachine cfg).Reach guard p) :
    QueuedByNow p.shared ∧ ∀ task ∈ p.tasks, CarriedByNow p.shared task := by
  refine reached.invariant
    (fun p => QueuedByNow p.shared ∧ ∀ task ∈ p.tasks, CarriedByNow p.shared task) ?_ ?_
  · intro p spawned
    rcases spawned with ⟨now, store, -, rfl⟩
    refine ⟨fun item none => absurd none List.not_mem_nil, ?_⟩
    exact cfg.forall_spawn now store (carriedByNow_task_of_none rfl)
      (carriedByNow_task_of_none rfl) (carriedByNow_task_of_none rfl)
      (carriedByNow_task_of_none rfl)
  · intro p label p' before _ taken
    have kept : ∀ s t choice s' new, (pipeline cfg).run s t choice = some (s', new) →
        QueuedByNow s → CarriedByNow s t → QueuedByNow s' ∧ (∀ t' ∈ new, CarriedByNow s' t') ∧
          ∀ t', CarriedByNow s t' → CarriedByNow s' t' :=
      fun _ _ _ _ _ ran queued carried => byNow_of_run ran queued carried
    exact System.next_keeps kept taken before

/-- The step found the queue without a fresher item. -/
def FreshestAt (item : ReadyInstruction) (entry : Machine.Entry (Pool Shared Task) (Nat × Choice)) :
    Prop :=
  ∀ other ∈ entry.before.shared.lifo, other.arrivedAt ≤ item.arrivedAt

/-- **Last pushed, first popped.** In every run that ends with items in the queue, the one
that a worker pops next is the one that was pushed last, a requeue being a push: the items
below it are those its last push found, and no step since has touched them. So it is as
fresh as each of them exactly when that push found no fresher item, as it did if it was made
in the instant the item arrived. -/
theorem pops_last_pushed {start : Pool Shared Task} {steps : List (Machine.Entry _ _)}
    (spawned : Spawned cfg start) (trace : (pipelineMachine cfg).Trace start steps p)
    {item : ReadyInstruction} {rest : List ReadyInstruction}
    (top : p.shared.lifo = item :: rest) :
    ∃ earlier push later, steps = earlier ++ push :: later ∧
      push.before.shared.lifo = rest ∧ push.after.shared.lifo = item :: rest ∧
      (∀ entry ∈ later, (item :: rest) <:+ entry.after.shared.lifo) ∧
      ((∀ other ∈ rest, other.arrivedAt ≤ item.arrivedAt) ↔ FreshestAt item push) ∧
      (push.before.shared.now = item.arrivedAt → FreshestAt item push) := by
  have empty : start.shared.lifo = [] := by
    rcases spawned with ⟨now, store, -, rfl⟩
    rfl
  have stack : ∀ p label p', (pipelineMachine cfg).step p label p' →
      Machine.StackStep (fun p => p.shared.lifo) p p' := by
    intro p label p' taken
    rcases System.next_eq_some_iff.mp taken with ⟨task, shared, tasks, -, ran, rfl⟩
    exact (queue_of_run ran).2
  have inside : (item :: rest) <:+ p.shared.lifo := top ▸ List.suffix_rfl
  rcases trace.pushed stack empty inside with
    ⟨earlier, push, later, split, found, pushed, kept⟩
  refine ⟨earlier, push, later, split, found, pushed, kept, ?_, ?_⟩
  · rw [FreshestAt, found]
  · intro prompt other member
    have member' : push ∈ steps :=
      split ▸ List.mem_append_right _ List.mem_cons_self
    have reached := trace.reach_before spawned push member'
    rw [← prompt]
    exact (queuedByNow_reach reached).1 other member

end Runs

/-! ### A requeue on a fresher item -/

/-- The first item takes the slot of the second. The worker at position 8 finds no slot for
the second item; a nanosecond later the third one arrives, and the worker puts the second
back on it and takes a permit again. -/
def overtaking : List (Nat × Choice) :=
  arrival 1 ++ acquisition 5 ++ arrival 2 ++ List.replicate 6 (8, .go) ++ (0, .wait 1) ::
    arrival 3 ++ List.replicate 6 (10, .go)

/-- The second item was pushed last, on the fresher third one. -/
theorem pops_last_pushed_overtaking :
    ∃ steps p item other, (pipelineMachine oneSlot).Trace (oneSlot.spawn oneSecond .new) steps p ∧
      p.shared.lifo = [item, other] ∧ item.arrivedAt < other.arrivedAt ∧
      ∃ earlier push later, steps = earlier ++ push :: later ∧
        push.before.shared.lifo = [other] ∧ push.after.shared.lifo = [item, other] ∧
        (∀ entry ∈ later, [item, other] <:+ entry.after.shared.lifo) ∧
        ((∀ below ∈ [other], below.arrivedAt ≤ item.arrivedAt) ↔ FreshestAt item push) ∧
        (push.before.shared.now = item.arrivedAt → FreshestAt item push) := by
  have ended : ((pipeline oneSlot).exec Machine.anyStep (oneSlot.spawn oneSecond .new)
      overtaking).any fun p =>
        p.shared.lifo.map ReadyInstruction.arrivedAt = [1000000000, 1000000001] := by decide
  rcases (Option.any_eq_true _ _).mp ended with ⟨p, played, checked⟩
  rw [decide_eq_true_eq] at checked
  rcases System.exec_trace played with ⟨steps, trace, -⟩
  rcases List.map_eq_cons_iff.mp checked with ⟨item, rest, top, arrived, checked⟩
  rcases List.map_eq_cons_iff.mp checked with ⟨other, behind, rfl, arrived', checked⟩
  obtain rfl := List.map_eq_nil_iff.mp checked
  refine ⟨steps, p, item, other, trace, top, ?_, pops_last_pushed spawned_oneSlot trace top⟩
  rw [arrived, arrived']
  decide

/-- A worker with a permit finds the second item on the third, which is fresher. -/
theorem older_item_first :
    ¬ ∀ (cfg : Settings) (p : Pool Shared Task), (pipelineMachine cfg).Reach Machine.anyStep p →
      p.tasks.any Task.holdsPermit → ∀ item rest, p.shared.lifo = item :: rest →
        ∀ other ∈ rest, other.arrivedAt ≤ item.arrivedAt := by
  intro freshest
  have ended : ((pipeline oneSlot).exec Machine.anyStep (oneSlot.spawn oneSecond .new)
      overtaking).any fun p => p.tasks.any Task.holdsPermit ∧
        p.shared.lifo.map ReadyInstruction.arrivedAt = [1000000000, 1000000001] := by decide
  rcases (Option.any_eq_true _ _).mp ended with ⟨p, played, checked⟩
  rw [decide_eq_true_eq] at checked
  have reached : (pipelineMachine oneSlot).Reach Machine.anyStep p :=
    System.exec_reach (.ofStart spawned_oneSlot) played
  rcases queue : p.shared.lifo with _ | ⟨item, _ | ⟨other, rest⟩⟩
  · rw [queue] at checked
    exact absurd checked.2 (by simp)
  · rw [queue] at checked
    exact absurd checked.2 (by simp)
  · have arrived := checked.2
    rw [queue, List.map_cons, List.map_cons, List.cons.injEq, List.cons.injEq] at arrived
    have first := freshest oneSlot p reached checked.1 item _ queue other List.mem_cons_self
    rw [arrived.1, arrived.2.1] at first
    exact absurd first (by decide)

end ArbBot
