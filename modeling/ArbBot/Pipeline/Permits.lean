import ArbBot.Pipeline.Slots
import Mathlib.Algebra.Order.BigOperators.Group.List
import Mathlib.Tactic.Ring

/-!
# Permits and items

The queue and its semaphore are two objects. A push comes before its permit, and a permit
is taken before its item, so the semaphore alone is behind the queue; what it lacks are the
workers between `acquire` and `pop` and the pushers between `push` and `add_permits`
(`permits_match`).
-/

namespace ArbBot

open Foundation

/-! ## Pending permits -/

/-- What an action does to the permits over the items. -/
def Action.permits : Action → Int
  | .addPermit => 1
  | .push _ => -1
  | _ => 0

def Action.isPush : Action → Bool
  | .push _ => true
  | _ => false

def Action.isAddPermit : Action → Bool
  | .addPermit => true
  | _ => false

/-- The task has pushed and has not added the permit. -/
def Task.owesPermit (task : Task) : Bool :=
  task.pending.any Action.isAddPermit && !task.pending.any Action.isPush

/-- The task has a permit and has not popped. -/
def Task.holdsPermit (task : Task) : Bool :=
  match task.stage with
  | .pop => true
  | _ => false

/-- Neither a push nor a permit. -/
def Free (pending : List Action) : Prop := ∀ action ∈ pending, action.permits = 0

/-- What a task may have before it: nothing of the queue, a permit, or a push and its
permit. -/
inductive PermitsPending : List Action → Prop
  | free {pending : List Action} : Free pending → PermitsPending pending
  | owed {before : List Action} : Free before → PermitsPending (before ++ [.addPermit])
  | push {before after : List Action} (item : ReadyInstruction) :
    Free before → Free after → PermitsPending (before ++ .push item :: (after ++ [.addPermit]))

section Pending

variable {pending before after rest : List Action} {action : Action}

theorem Free.tail (free : Free (action :: rest)) : Free rest :=
  fun a member => free a (List.mem_cons_of_mem _ member)

theorem Free.sum (free : Free pending) : (pending.map Action.permits).sum = 0 := by
  apply List.sum_eq_zero
  intro n member
  rcases List.mem_map.mp member with ⟨a, inside, rfl⟩
  exact free a inside

theorem Free.any_isPush (free : Free pending) : pending.any Action.isPush = false := by
  rw [List.any_eq_false]
  intro a member
  have none := free a member
  cases a <;> first | exact Bool.false_ne_true | cases none

theorem Free.any_isAddPermit (free : Free pending) :
    pending.any Action.isAddPermit = false := by
  rw [List.any_eq_false]
  intro a member
  have none := free a member
  cases a <;> first | exact Bool.false_ne_true | cases none

/-- What remains after the first action. -/
theorem PermitsPending.tail (shape : PermitsPending (action :: rest)) : PermitsPending rest := by
  generalize whole : action :: rest = pending at shape
  cases shape with
  | free free =>
      subst whole
      exact .free free.tail
  | @owed before free =>
      cases before with
      | nil =>
          obtain rfl : rest = [] := (List.cons.inj whole).2
          exact .free fun _ none => absurd none List.not_mem_nil
      | cons first before =>
          obtain rfl : rest = before ++ [.addPermit] := (List.cons.inj whole).2
          exact .owed free.tail
  | @push before after item free free' =>
      cases before with
      | nil =>
          obtain rfl : rest = after ++ [.addPermit] := (List.cons.inj whole).2
          exact .owed free'
      | cons first before =>
          obtain rfl := (List.cons.inj whole).2
          exact .push item free.tail free'

/-- The pending actions change the books by the permit that is owed. -/
theorem PermitsPending.sum {stage : Stage} (shape : PermitsPending pending) :
    (pending.map Action.permits).sum =
      if Task.owesPermit { pending := pending, stage := stage } then 1 else 0 := by
  unfold Task.owesPermit
  cases shape with
  | free free => rw [free.sum, free.any_isAddPermit, Bool.false_and, if_neg Bool.false_ne_true]
  | owed free =>
      simp [free.sum, free.any_isPush, Action.permits, Action.isAddPermit, Action.isPush]
  | push item free free' =>
      simp [free.sum, free'.sum, Action.permits, Action.isPush]

end Pending

/-! ## One step -/

/-- The permits of the semaphore over the items of the queue. -/
def permitsOver (s : Shared) : Int := s.lifoSem - s.lifo.length

/-- The permits a task takes from the books, or will add to them. -/
def Task.permits (task : Task) : Int :=
  (task.pending.map Action.permits).sum + if task.holdsPermit then 1 else 0

section Step

variable {cfg : Settings} {s s' : Shared} {stage : Stage} {choice : Choice} {tasks : List Task}

theorem permitsOver_perform (cfg : Settings) (s : Shared) (action : Action) :
    permitsOver (perform cfg s action) = permitsOver s + action.permits := by
  cases action <;> simp [permitsOver, perform, Action.permits] <;> omega

theorem free_drop (counter : Counter) : Free (drop counter) := by
  simp [Free, drop, Action.permits]

theorem free_quoted (tokenMint : String) (outcome : QuoteOutcome) :
    Free (outcome.pending tokenMint) := by
  cases outcome <;> simp [Free, QuoteOutcome.pending, Action.permits]

theorem free_metisAnswer (cfg : Settings) (merged : Merged) (fetchMs : Nat)
    (result : Except SwapIxError SwapInstructionsResponse) :
    Free (metisAnswer cfg merged fetchMs result).pending := by
  cases result with
  | error e => simp [Free, metisAnswer, drop, Action.permits]
  | ok swapIxs =>
      rw [metisAnswer]
      split <;> simp [Free, Action.permits]

theorem free_counters (counters : List (Counter × Int)) :
    Free (counters.map fun e => .add e.1 e.2) := by
  intro action member
  rcases List.mem_map.mp member with ⟨e, -, rfl⟩
  rfl

/-- What a push or a requeue leaves to be done. -/
theorem pending_push (item : ReadyInstruction) :
    PermitsPending [.push item, .add .queueIn 1, .add .queueDepth 1, .addPermit] := by
  have nothing : Free [] := by simp [Free]
  have counts : Free [.add .queueIn 1, .add .queueDepth 1] := by simp [Free, Action.permits]
  exact .push item nothing counts

theorem pending_requeued (item : ReadyInstruction) : PermitsPending (requeued item).pending := by
  have first : Free (if item.waitedForSlot then [] else [.add .rateRequeued 1]) := by
    split <;> simp [Free, Action.permits]
  have depth : Free [.add .queueDepth 1] := by simp [Free, Action.permits]
  exact .push _ first depth

/-- A task that a move leaves owes no permit, as long as it has not pushed. -/
structure Fresh (task : Task) : Prop where
  pending : PermitsPending task.pending
  sum : (task.pending.map Action.permits).sum = 0

theorem Fresh.of_free {task : Task} (free : Free task.pending) : Fresh task where
  pending := .free free
  sum := free.sum

theorem fresh_task (stage : Stage) : Fresh stage.task :=
  .of_free fun _ none => absurd none List.not_mem_nil

theorem fresh_requeued (item : ReadyInstruction) : Fresh (requeued item) where
  pending := pending_requeued item
  sum := by
    rw [requeued]
    split <;> simp [Action.permits]

theorem fresh_of_move (move : Move cfg s stage s' tasks) : ∀ task ∈ tasks, Fresh task := by
  cases move with
  | check tokenMint amount onlyDirect =>
      simp only [List.forall_mem_cons, List.not_mem_nil, false_implies, implies_true, and_true]
      exact ⟨.of_free (by simp [Free, Action.permits]), fresh_task _⟩
  | quoted tokenMint amount onlyDirect outcome =>
      exact List.forall_mem_singleton.mpr (.of_free (free_quoted tokenMint outcome))
  | descend store counters holds next scan =>
      exact List.forall_mem_singleton.mpr (.of_free (free_counters counters))
  | ramHit store merged sig patched holds =>
      exact List.forall_mem_singleton.mpr (.of_free (by simp [Free, ramHit, Action.permits]))
  | spawn merged =>
      simp only [List.forall_mem_cons, List.not_mem_nil, false_implies, implies_true, and_true]
      exact ⟨fresh_task _, fresh_task _⟩
  | answered merged fetchMs result =>
      exact List.forall_mem_singleton.mpr (.of_free (free_metisAnswer cfg merged fetchMs result))
  | push item arrives next id arrivedAt =>
      exact List.forall_mem_singleton.mpr ⟨pending_push item, by simp [Action.permits]⟩
  | noGrpc item absent => exact List.forall_mem_singleton.mpr (fresh_requeued item)
  | refuseGrpc item present refused => exact List.forall_mem_singleton.mpr (fresh_requeued item)
  | dropPair _ _ | noServe _ | stale _ | dropBuild _ _ _ | sendFailed _ =>
      exact List.forall_mem_singleton.mpr (.of_free (free_drop _))
  | pop top => exact List.forall_mem_singleton.mpr (.of_free (by simp [Free, Action.permits]))
  | built item grant =>
      exact List.forall_mem_singleton.mpr (.of_free (by simp [Free, Action.permits]))
  | sent item => exact List.forall_mem_singleton.mpr (.of_free (by simp [Free, Action.permits]))
  | _ => exact List.forall_mem_singleton.mpr (fresh_task _)

/-- Only `acquire` and `pop` touch the queue or its semaphore, or leave a permit with a
worker. -/
theorem still_of_move (move : Move cfg s stage s' tasks) (noAcquire : stage ≠ .acquire)
    (noPop : stage ≠ .pop) :
    permitsOver s' = permitsOver s ∧ ∀ task ∈ tasks, task.holdsPermit = false := by
  cases move with
  | permit => exact absurd rfl noAcquire
  | pop top => exact absurd rfl noPop
  | popNone => exact absurd rfl noPop
  | @descend _ stage' store counters holds next scan =>
      refine ⟨rfl, List.forall_mem_singleton.mpr ?_⟩
      cases stage' <;> first | rfl | cases next
  | check tokenMint amount onlyDirect => exact ⟨rfl, by simp [Task.holdsPermit, Stage.task]⟩
  | spawn merged => exact ⟨rfl, by simp [Task.holdsPermit, Stage.task]⟩
  | answered merged fetchMs result =>
      refine ⟨rfl, List.forall_mem_singleton.mpr ?_⟩
      cases result <;> rfl
  | push item arrives next id arrivedAt =>
      refine ⟨rfl, List.forall_mem_singleton.mpr ?_⟩
      rcases next with rfl | rfl <;> rfl
  | _ => exact ⟨rfl, List.forall_mem_singleton.mpr rfl⟩

/-- A worker that acquires takes a permit of the semaphore. -/
theorem run_acquire (ran : (pipeline cfg).run s Stage.acquire.task choice = some (s', tasks)) :
    0 < s.lifoSem ∧ s' = { s with lifoSem := s.lifoSem - 1 } ∧ tasks = [Stage.pop.task] := by
  cases choice with
  | go =>
      simp only [pipeline, Stage.task, decideStage, workerStep] at ran
      split at ran
      · rename_i enough
        cases ran
        exact ⟨enough, rfl, rfl⟩
      · cases ran
  | _ => cases ran

/-- A worker that pops takes the top item, if there is one. -/
theorem run_pop (ran : (pipeline cfg).run s Stage.pop.task choice = some (s', tasks)) :
    (∃ item rest, s.lifo = item :: rest ∧ s' = { s with lifo := rest } ∧
        tasks = [{ pending := [.add .queueDepth (-1)], stage := .popped item }]) ∨
      s.lifo = [] := by
  cases choice with
  | go =>
      cases queue : s.lifo with
      | nil => exact Or.inr rfl
      | cons item rest =>
          simp only [pipeline, Stage.task, decideStage, workerStep, queue] at ran
          cases ran
          exact Or.inl ⟨item, rest, rfl, rfl, rfl⟩
  | _ => cases ran

/-- **One step** keeps the books, as long as a worker with a permit finds an item. -/
theorem permits_run {task : Task} (ran : (pipeline cfg).run s task choice = some (s', tasks))
    (found : task.holdsPermit → s.lifo ≠ []) :
    permitsOver s' + (tasks.map Task.permits).sum = permitsOver s + task.permits := by
  rcases run_cases ran with ⟨action, rest, pending, rfl, rfl⟩ | ⟨pending, move⟩
  · have same : Task.holdsPermit { pending := rest, stage := task.stage } = task.holdsPermit := rfl
    rw [permitsOver_perform, List.map_singleton, List.sum_singleton, Task.permits, Task.permits,
      same, pending, List.map_cons, List.sum_cons]
    ring
  · rcases task with ⟨actions, stage⟩
    obtain rfl : actions = [] := pending
    by_cases acquires : stage = .acquire
    · subst acquires
      rcases run_acquire ran with ⟨enough, rfl, rfl⟩
      simp only [permitsOver, Task.permits, Task.holdsPermit, Stage.task, List.map_cons,
        List.map_nil, List.sum_cons, List.sum_nil, if_true, Bool.false_eq_true, if_false]
      omega
    · by_cases pops : stage = .pop
      · subst pops
        rcases run_pop ran with ⟨item, rest, top, rfl, rfl⟩ | empty
        · simp only [permitsOver, Task.permits, Task.holdsPermit, List.map_cons, List.map_nil,
            List.sum_cons, List.sum_nil, Action.permits, top, List.length_cons, if_true,
            Bool.false_eq_true, if_false]
          omega
        · exact absurd empty (found rfl)
      · obtain ⟨same, idle⟩ := still_of_move move acquires pops
        have fresh := fresh_of_move move
        have nothing : (tasks.map Task.permits).sum = 0 := by
          apply List.sum_eq_zero
          intro n member
          rcases List.mem_map.mp member with ⟨task, inside, rfl⟩
          rw [Task.permits, (fresh task inside).sum, idle task inside]
          rfl
        have held : Task.holdsPermit { pending := [], stage := stage } = false := by
          cases stage <;> first | rfl | exact absurd rfl pops
        rw [nothing, same, Task.permits, held]
        rfl

end Step

/-! ## Runs -/

section Runs

variable {cfg : Settings} {guard : Pool Shared Task → Nat × Choice → Prop} {p : Pool Shared Task}

theorem permitsPending_reach (reached : (pipelineMachine cfg).Reach guard p) :
    ∀ task ∈ p.tasks, PermitsPending task.pending := by
  have kept : ∀ s t choice s' new, (pipeline cfg).run s t choice = some (s', new) → True →
      PermitsPending t.pending → True ∧ (∀ t' ∈ new, PermitsPending t'.pending) ∧
        ∀ t' : Task, PermitsPending t'.pending → PermitsPending t'.pending := by
    intro s t choice s' new ran _ shape
    refine ⟨trivial, ?_, fun _ shape' => shape'⟩
    rcases run_cases ran with ⟨action, rest, pending, rfl, rfl⟩ | ⟨-, move⟩
    · rw [pending] at shape
      exact List.forall_mem_singleton.mpr shape.tail
    · exact fun t' member => (fresh_of_move move t' member).pending
  refine reached.invariant (fun p => ∀ task ∈ p.tasks, PermitsPending task.pending) ?_ ?_
  · intro p spawned
    rcases spawned with ⟨now, store, -, rfl⟩
    have idle : PermitsPending [] := .free fun _ none => absurd none List.not_mem_nil
    exact cfg.forall_spawn now store idle idle idle idle
  · intro p label p' before _ taken
    exact (System.next_keeps kept taken ⟨trivial, before⟩).2

/-- The permits of a task, as counts. -/
theorem PermitsPending.permits {task : Task} (shape : PermitsPending task.pending) :
    task.permits = (if task.owesPermit then 1 else 0) + if task.holdsPermit then 1 else 0 := by
  have sum : (task.pending.map Action.permits).sum = if task.owesPermit then 1 else 0 := shape.sum
  rw [Task.permits, sum]

theorem sum_permits {tasks : List Task} (shapes : ∀ task ∈ tasks, PermitsPending task.pending) :
    (tasks.map Task.permits).sum =
      (tasks.countP Task.owesPermit : Int) + tasks.countP Task.holdsPermit := by
  induction tasks with
  | nil => rfl
  | cons task rest ih =>
      rw [List.forall_mem_cons] at shapes
      rw [List.map_cons, List.sum_cons, ih shapes.2, shapes.1.permits, List.countP_cons,
        List.countP_cons]
      push_cast
      ring

theorem permits_total (reached : (pipelineMachine cfg).Reach guard p) :
    p.total permitsOver Task.permits = 0 := by
  refine System.Reach.total_eq_of_total ?_ ?_ reached
  · intro p task choice s' new reached total own ran
    apply permits_run ran
    intro holds empty
    have counts := sum_permits (permitsPending_reach reached)
    have one : 0 < p.tasks.countP Task.holdsPermit := List.countP_pos_iff.mpr ⟨task, own, holds⟩
    rw [Pool.total, counts, permitsOver, empty, List.length_nil] at total
    omega
  · intro p spawned
    rcases spawned with ⟨now, store, -, rfl⟩
    exact cfg.total_spawn now store rfl rfl rfl rfl

/-- **Permits match items** at every step of every run: the permits of the semaphore, those
that workers took and have not used, and those that pushers owe are as many as the items.
So a worker that pops has an item to pop. -/
theorem permits_match (cfg : Settings) {p : Pool Shared Task}
    (reached : (pipelineMachine cfg).Reach Machine.anyStep p) :
    p.shared.lifoSem + p.tasks.countP Task.holdsPermit + p.tasks.countP Task.owesPermit =
        p.shared.lifo.length ∧
      ∀ task ∈ p.tasks, task.holdsPermit → p.shared.lifo ≠ [] := by
  have total := permits_total reached
  rw [Pool.total, sum_permits (permitsPending_reach reached), permitsOver] at total
  refine ⟨by omega, ?_⟩
  intro task member holds empty
  have one : 0 < p.tasks.countP Task.holdsPermit := List.countP_pos_iff.mpr ⟨task, member, holds⟩
  rw [empty, List.length_nil] at total
  omega

end Runs

/-- An item has been queued, and a worker has taken its permit. -/
theorem permits_match_acquired :
    ∃ p, (pipeline oneSlot).exec Machine.anyStep (oneSlot.spawn oneSecond .new)
        (arrival 1 ++ [(5, .go)]) = some p ∧
      p.tasks.countP Task.holdsPermit = 1 ∧
        p.shared.lifoSem + p.tasks.countP Task.holdsPermit + p.tasks.countP Task.owesPermit =
          p.shared.lifo.length ∧
        ∀ task ∈ p.tasks, task.holdsPermit → p.shared.lifo ≠ [] := by
  have ended : ((pipeline oneSlot).exec Machine.anyStep (oneSlot.spawn oneSecond .new)
      (arrival 1 ++ [(5, .go)])).any fun p => p.tasks.countP Task.holdsPermit = 1 := by decide
  rcases (Option.any_eq_true _ _).mp ended with ⟨p, played, one⟩
  have reached : (pipelineMachine oneSlot).Reach Machine.anyStep p :=
    System.exec_reach (.ofStart spawned_oneSlot) played
  exact ⟨p, played, of_decide_eq_true one, permits_match oneSlot reached⟩

end ArbBot
