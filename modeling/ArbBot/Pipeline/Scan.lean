import ArbBot.Pipeline.Grid
import ArbBot.Pipeline.LastIn

/-!
# One call of `scan_all_tokens`

A call polls the checks of `all_pairs` in order, among any other tasks. Its history follows
each entry of `all_pairs` through its check, the ready pairs, the scan loop and its Metis
task into the queue; no decision reads it. An entry is in one place at a time, so each ends
in at most one push (`one_item_per_entry`), whatever tier serves it and in whatever order the
checks complete.

Nothing compares the entries with each other: the free and the direct check of a token may
merge the same route (`same_route_twice`).
-/

namespace ArbBot

open Foundation

/-! ## The call and its history -/

/-- The opportunity a stage is about. -/
def Stage.merged? : Stage → Option Merged
  | .tier1 merged | .tier2 merged | .tier2Route merged | .tier3 merged | .spawn merged
  | .metis merged => some merged
  | _ => none

/-- What a task of the call works for: an entry of `all_pairs`, by its position, and the
opportunity it merged. -/
structure Origin where
  entry : Option Nat
  merged : Option Merged

def Origin.none : Origin := { entry := .none, merged := .none }

structure CallTask where
  task : Task
  /-- `none` for a task outside of the call. -/
  origin : Option Origin

/-- An item of the call in the queue. -/
structure Pushed where
  entry : Option Nat
  merged : Option Merged
  item : ReadyInstruction

structure Call where
  shared : Shared
  /-- The entry of `all_pairs` that is polled next. -/
  next : Nat
  /-- The entries of the pairs in `opps`. -/
  ready : List (Option Nat)
  pushed : List Pushed

/-- Between two pairs, the scan loop and the quote stream work for no entry. -/
def Task.between (task : Task) : Bool :=
  match task.pending, task.stage with
  | [], .scan | [], .quotes => true
  | _, _ => false

/-- A successor of a task works for what the task worked for. -/
def inherit (origin : Origin) (task : Task) : CallTask where
  task := task
  origin := some (if task.between then .none else origin)

/-- The stream polls the entries in order. -/
def Call.Polls (entries : List ScanEntry) (c : Call) : Choice → Prop
  | .check tokenMint amount onlyDirect =>
      entries[c.next]? =
        some { amount := amount, tokenMint := tokenMint, onlyDirect := onlyDirect }
  | _ => True

instance (entries : List ScanEntry) (c : Call) (choice : Choice) :
    Decidable (c.Polls entries choice) := by
  unfold Call.Polls
  split <;> infer_instance

/-- The history of a step, and what the successors of the task work for. -/
def Call.note (c : Call) (origin : Origin) (task : Task) (choice : Choice) : Call × Origin :=
  match task.pending with
  | .yieldPair _ :: _ => ({ c with ready := c.ready ++ [origin.entry] }, .none)
  | .push item :: _ =>
      let pushed := { entry := origin.entry, merged := origin.merged, item := item }
      ({ c with pushed := c.pushed ++ [pushed] }, .none)
  | _ :: _ => (c, origin)
  | [] =>
      match task.stage, choice with
      | .quotes, .check _ _ _ =>
          ({ c with next := c.next + 1 }, { entry := some c.next, merged := .none })
      | .scan, .opp i =>
          ({ c with ready := c.ready.eraseIdx i }, { entry := c.ready[i]?.join, merged := .none })
      | stage, _ => (c, { origin with merged := stage.merged?.or origin.merged })

/-- The tasks of the pipeline, with the history of the call. -/
def scanCall (cfg : Settings) (entries : List ScanEntry) : System Call CallTask Choice where
  run c t choice :=
    match (pipeline cfg).run c.shared t.task choice with
    | none => none
    | some (shared, tasks) =>
        match t.origin with
        | none => some ({ c with shared := shared }, tasks.map ({ task := ·, origin := none }))
        | some origin =>
            if c.Polls entries choice then
              let (c, origin) := c.note origin t.task choice
              some ({ c with shared := shared }, tasks.map (inherit origin))
            else none

/-- Time, a worker or a Metis task. -/
def Stage.outside : Stage → Bool
  | .clock | .metis _ | .answered _ _ | .acquire | .pop | .popped _ | .limit _ | .limitGrpc _
  | .sleep | .build _ _ | .send _ _ | .sending _ | .finished => true
  | _ => false

/-- A pair for the stream. -/
def Action.yields : Action → Bool
  | .yieldPair _ => true
  | _ => false

/-- A task that runs beside a call: a Metis task may be one of an earlier call. -/
def Task.Outside (task : Task) : Prop :=
  task.stage.outside ∧ ∀ action ∈ task.pending, action.yields = false

/-- A call as it starts, beside other tasks. -/
def callOver (shared : Shared) (others : List Task) : Pool Call CallTask where
  shared := { shared := shared, next := 0, ready := [], pushed := [] }
  tasks := [Stage.quotes, Stage.scan].map (fun stage => inherit .none stage.task) ++
    others.map ({ task := ·, origin := none })

/-- Any state of the program, without a pair in the stream. -/
def CallStarts (p : Pool Call CallTask) : Prop :=
  ∃ shared others, shared.opps = [] ∧ (∀ task ∈ others, task.Outside) ∧
    p = callOver shared others

def scanMachine (cfg : Settings) (entries : List ScanEntry) :
    Machine (Pool Call CallTask) (Nat × Choice) :=
  (scanCall cfg entries).machine CallStarts

/-! ## One step -/

section Step

variable {cfg : Settings} {entries : List ScanEntry} {c c' : Call} {t : CallTask}
  {choice : Choice} {new : List CallTask}

/-- A step of a task is a step of the pipeline, with its history. -/
theorem scanCall_cases (ran : (scanCall cfg entries).run c t choice = some (c', new)) :
    ∃ shared tasks, (pipeline cfg).run c.shared t.task choice = some (shared, tasks) ∧
      ((t.origin = none ∧ c' = { c with shared := shared } ∧
          new = tasks.map ({ task := ·, origin := none })) ∨
        ∃ origin, t.origin = some origin ∧ c.Polls entries choice ∧
          c' = { (c.note origin t.task choice).1 with shared := shared } ∧
          new = tasks.map (inherit (c.note origin t.task choice).2)) := by
  simp only [scanCall] at ran
  split at ran
  · cases ran
  · rename_i shared tasks stepped
    refine ⟨shared, tasks, stepped, ?_⟩
    split at ran
    · rename_i outside
      cases ran
      exact Or.inl ⟨outside, rfl, rfl⟩
    · rename_i origin inside
      split at ran
      · rename_i polls
        cases ran
        exact Or.inr ⟨origin, inside, polls, rfl, rfl⟩
      · cases ran

/-- A step leaves at most one task that works for an entry. -/
theorem working_le_one {s s' : Shared} {task : Task} {tasks : List Task}
    (ran : (pipeline cfg).run s task choice = some (s', tasks)) :
    tasks.countP (fun task => !task.between) ≤ 1 := by
  rcases task with ⟨pending, stage⟩
  rcases run_cases ran with ⟨action, rest, -, -, rfl⟩ | ⟨-, move⟩
  · exact List.countP_le_length
  · cases move with
    | check tokenMint amount onlyDirect => exact Nat.le_refl _
    | spawn merged => exact Nat.le_refl _
    | _ => exact List.countP_le_length

end Step

/-! ## An entry is in one place -/

/-- The history is at the entry `n`. -/
def Origin.places (n : Nat) (origin : Origin) : Nat := if origin.entry = some n then 1 else 0

def CallTask.places (n : Nat) (t : CallTask) : Nat := (t.origin.map (Origin.places n)).getD 0

/-- Outside of the tasks, an entry is not yet polled, is ready or has been pushed. -/
def Call.places (n : Nat) (c : Call) : Nat :=
  (if c.next ≤ n then 1 else 0) + c.ready.count (some n) +
    (c.pushed.map Pushed.entry).count (some n)

theorem Origin.none_places (n : Nat) : Origin.none.places n = 0 := rfl

theorem inherit_places (n : Nat) (origin : Origin) (task : Task) :
    (inherit origin task).places n = if task.between then 0 else origin.places n := by
  unfold inherit CallTask.places
  split <;> rfl

/-- The successors of a step share what the task worked for. -/
theorem sum_inherit_places (n : Nat) (origin : Origin) (tasks : List Task) :
    ((tasks.map (inherit origin)).map (CallTask.places n)).sum =
      tasks.countP (fun task => !task.between) * origin.places n := by
  induction tasks with
  | nil => simp
  | cons task tasks ih =>
      rw [List.map_cons, List.map_cons, List.sum_cons, ih, inherit_places, List.countP_cons]
      cases task.between with
      | true => simp
      | false => simp [Nat.add_mul, Nat.add_comm]

theorem sum_outside_places (n : Nat) (tasks : List Task) :
    ((tasks.map ({ task := ·, origin := none } : Task → CallTask)).map
      (CallTask.places n)).sum = 0 := by
  apply List.sum_eq_zero
  intro places member
  rw [List.map_map] at member
  rcases List.mem_map.mp member with ⟨task, -, rfl⟩
  rfl

theorem count_eraseIdx_add (ready : List (Option Nat)) (i n : Nat) :
    (ready.eraseIdx i).count (some n) +
      (if ready[i]?.join = some n then 1 else 0) = ready.count (some n) := by
  by_cases inside : i < ready.length
  · rw [← (List.getElem_cons_eraseIdx_perm inside).count_eq, List.count_cons,
      List.getElem?_eq_getElem inside]
    simp
  · rw [List.eraseIdx_of_length_le (Nat.le_of_not_lt inside),
      List.getElem?_eq_none (Nat.le_of_not_lt inside)]
    simp

/-- The history of a step moves an entry, or loses it. -/
theorem note_places (n : Nat) (c : Call) (origin : Origin) (task : Task) (choice : Choice) :
    (c.note origin task choice).1.places n + (c.note origin task choice).2.places n ≤
      c.places n + origin.places n := by
  unfold Call.note
  split
  · rw [Origin.none_places]
    simp only [Call.places, List.count_append, List.count_singleton, beq_iff_eq, Origin.places]
    omega
  · rw [Origin.none_places]
    simp only [Call.places, List.map_append, List.map_cons, List.map_nil, List.count_append,
      List.count_singleton, beq_iff_eq, Origin.places]
    omega
  · exact Nat.le_refl _
  · split
    · simp only [Call.places, Origin.places, Option.some.injEq]
      split <;> split <;> split <;> omega
    · rename_i i _
      have erased := count_eraseIdx_add c.ready i n
      simp only [Call.places, Origin.places]
      omega
    · exact Nat.le_refl _

section Places

variable {cfg : Settings} {entries : List ScanEntry} {guard : Pool Call CallTask → Nat × Choice → Prop}
  {p : Pool Call CallTask}

/-- In every run of a call, an entry is in one place at most. -/
theorem places_le_one (reached : (scanMachine cfg entries).Reach guard p) (n : Nat) :
    p.total (Call.places n) (CallTask.places n) ≤ 1 := by
  refine System.Reach.total_le ?_ ?_ reached
  · intro p t choice c' new _ ran
    rcases scanCall_cases ran with ⟨shared, tasks, stepped, noted⟩
    rcases noted with ⟨-, rfl, rfl⟩ | ⟨origin, works, -, rfl, rfl⟩
    · rw [sum_outside_places]
      exact Nat.le_add_right _ _
    · have one := working_le_one stepped
      have moved := note_places n p.shared origin t.task choice
      have own : t.places n = origin.places n := by rw [CallTask.places, works]; rfl
      rw [sum_inherit_places, own]
      have shared := Nat.mul_le_mul_right ((p.shared.note origin t.task choice).2.places n) one
      rw [Nat.one_mul] at shared
      exact (Nat.add_le_add_left shared _).trans moved
  · intro p starts
    rcases starts with ⟨shared, others, -, -, rfl⟩
    simp only [Pool.total, callOver, List.map_append, List.sum_append, sum_outside_places]
    simp [Call.places, inherit, CallTask.places, Stage.task, Task.between, Origin.none_places]

end Places

end ArbBot
