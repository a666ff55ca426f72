import ArbBot.Pipeline.Funnel
import ArbBot.TokenMetrics.Rows
import Mathlib.Algebra.BigOperators.Ring.Finset
import Mathlib.Tactic.Linarith
import Mathlib.Tactic.Ring

/-!
# Quote accounting

`CheckWeights` books the counters of the rows, those of `Metrics` that a check updates, and the
pairs it returns. Weights that every end of a check settles give a ledger that no step raises
(`CheckWeights.value_le`), and weights that settle in both signs an equation: each equation of
`checks_balance` is one such ledger. Nothing is assumed of the list of mints.
-/

namespace ArbBot

open Foundation

/-! ## Calls in progress -/

/-- The counters that only a check updates. -/
def checkCounters : List Counter := [.metisRespTotal, .metisRespOk, .droppedSamePool]

/-- An update that only a check makes, or its result. -/
def Action.ofCheck : Action → Bool
  | .addToken _ _ _ | .yieldPair _ => true
  | .add counter _ => counter ∈ checkCounters
  | _ => false

def Stage.isCheck : Stage → Bool
  | .quoteCheck _ _ _ => true
  | _ => false

/-- The task is no call of `quote_check` in progress. -/
def Task.Aside (task : Task) : Prop :=
  task.stage.isCheck = false ∧ ∀ action ∈ task.pending, action.ofCheck = false

instance (task : Task) : Decidable task.Aside := by
  unfold Task.Aside
  infer_instance

/-- No call of `quote_check` is in progress. -/
def NoCheck (p : Pool Shared Task) : Prop := ∀ task ∈ p.tasks, task.Aside

instance (p : Pool Shared Task) : Decidable (NoCheck p) := by
  unfold NoCheck
  infer_instance

/-- The mints that are checked are those the metrics are made for. -/
def ChecksListed (cfg : Settings) (_ : Pool Shared Task) (label : Nat × Choice) : Prop :=
  match label.2 with
  | .check tokenMint _ _ => tokenMint ∈ cfg.tokenMints
  | _ => True

instance (cfg : Settings) (p : Pool Shared Task) (label : Nat × Choice) :
    Decidable (ChecksListed cfg p label) := by
  unfold ChecksListed
  split <;> infer_instance

def Action.isYield : Action → Bool
  | .yieldPair _ => true
  | _ => false

def Task.yields (task : Task) : Bool := task.pending.head?.any Action.isYield

/-- The step is the return of a check with `Some`. -/
def returnsSome (entry : Machine.Entry (Pool Shared Task) (Nat × Choice)) : Bool :=
  entry.before.tasks[entry.label.1]?.any Task.yields

section Moves

variable {cfg : Settings} {s s' : Shared} {stage : Stage} {tasks : List Task}

theorem aside_task (quiet : stage.isCheck = false) : stage.task.Aside :=
  ⟨quiet, fun _ member => absurd member List.not_mem_nil⟩

theorem aside_drop {counter : Counter} (quiet : stage.isCheck = false)
    (other : counter ∉ checkCounters) :
    Task.Aside { pending := drop counter, stage := stage } := by
  refine ⟨quiet, ?_⟩
  intro action member
  simp only [drop, List.mem_cons, List.not_mem_nil, or_false] at member
  rcases member with rfl | rfl
  · exact decide_eq_false other
  · rfl

theorem aside_metisAnswer (merged : Merged) (fetchMs : Nat)
    (result : Except SwapIxError SwapInstructionsResponse) :
    (metisAnswer cfg merged fetchMs result).Aside := by
  cases result with
  | error e =>
      refine ⟨rfl, List.forall_mem_append.mpr ⟨by decide, List.forall_mem_singleton.mpr ?_⟩⟩
      cases e <;> rfl
  | ok swapIxs =>
      refine ⟨rfl, List.forall_mem_append.mpr ⟨?_, ?_⟩⟩
      · simp [Action.ofCheck, checkCounters]
      · split <;> simp [Action.ofCheck]

theorem aside_requeued (item : ReadyInstruction) : (requeued item).Aside := by
  refine ⟨rfl, ?_⟩
  unfold requeued
  split <;> simp [Action.ofCheck, checkCounters]

/-- The other stages start no check and do nothing for one. -/
theorem aside_of_move (move : Move cfg s stage s' tasks) (quiet : stage.isCheck = false)
    (other : stage ≠ .quotes) : ∀ task ∈ tasks, task.Aside := by
  have pairExit : ∀ counter ∈ pairExits, counter ∉ checkCounters := by decide
  have itemExit : ∀ counter ∈ itemExits, counter ∉ checkCounters := by decide
  have onTheWay : ∀ counter ∈ scanCounters, counter ∉ checkCounters := by decide
  cases move with
  | check tokenMint amount onlyDirect => exact absurd rfl other
  | quoted tokenMint amount onlyDirect outcome => cases quiet
  | dropPair found exit =>
      exact List.forall_mem_singleton.mpr (aside_drop rfl (pairExit _ exit))
  | @descend stage stage' store counters holds next scan =>
      refine List.forall_mem_singleton.mpr ⟨?_, ?_⟩
      · cases stage' <;> first | rfl | cases next
      · intro action member
        rcases List.mem_map.mp member with ⟨e, inside, rfl⟩
        exact decide_eq_false (onTheWay _ (scan e inside))
  | push item arrives next number arrived =>
      refine List.forall_mem_singleton.mpr ⟨?_, by simp [Action.ofCheck, checkCounters]⟩
      rcases next with rfl | rfl <;> rfl
  | spawn merged =>
      exact List.forall_mem_cons.mpr
        ⟨aside_task rfl, List.forall_mem_singleton.mpr (aside_task rfl)⟩
  | answered merged fetchMs result =>
      exact List.forall_mem_singleton.mpr (aside_metisAnswer merged fetchMs result)
  | noServe merged | stale item | sendFailed item =>
      exact List.forall_mem_singleton.mpr (aside_drop rfl (by decide))
  | noGrpc item _ | refuseGrpc item _ _ =>
      exact List.forall_mem_singleton.mpr (aside_requeued item)
  | dropBuild item grant exit =>
      exact List.forall_mem_singleton.mpr (aside_drop rfl (itemExit _ exit))
  | ramHit store merged sig patched holds =>
      exact List.forall_mem_singleton.mpr ⟨rfl, by simp [ramHit, Action.ofCheck, checkCounters]⟩
  | pop top | built item grant | sent item =>
      exact List.forall_mem_singleton.mpr ⟨rfl, by simp [Action.ofCheck, checkCounters]⟩
  | _ => exact List.forall_mem_singleton.mpr (aside_task rfl)

theorem move_quotes (move : Move cfg s .quotes s' tasks) :
    ∃ mint amount onlyDirect, tasks = [{
      pending := [.add .metisReqSent 2, .addToken mint .qSent 2]
      stage := .quoteCheck mint amount onlyDirect }, Stage.quotes.task] := by
  cases move with
  | check mint amount onlyDirect => exact ⟨mint, amount, onlyDirect, rfl⟩
  | descend store counters holds next scan => cases holds
  | ramHit store merged sig patched holds => cases holds
  | push item arrives next number arrived => cases arrives

theorem move_quoteCheck {mint : String} {amount : UInt64} {onlyDirect : Bool}
    (move : Move cfg s (.quoteCheck mint amount onlyDirect) s' tasks) :
    ∃ outcome : QuoteOutcome,
      tasks = [{ pending := outcome.pending mint, stage := .finished }] := by
  cases move with
  | quoted mint amount onlyDirect outcome => exact ⟨outcome, rfl⟩
  | descend store counters holds next scan => cases holds
  | ramHit store merged sig patched holds => cases holds
  | push item arrives next number arrived => cases arrives

theorem metrics_of_move (move : Move cfg s stage s' tasks) :
    s'.metrics = s.metrics ∧ s'.tokenMetrics = s.tokenMetrics := by
  cases move <;> exact ⟨rfl, rfl⟩

end Moves

/-! ## Weights -/

/-- The counters of a row. -/
def TokenCounter.all : List TokenCounter :=
  [.qSent, .routeOk, .routeFail, .profitable, .notProfitable]

structure CheckWeights where
  row : Nat → TokenCounter → Int
  respTotal : Int
  respOk : Int
  samePool : Int
  /-- A pair that is returned. -/
  pair : Int

namespace CheckWeights

section Books

variable (w : CheckWeights) (tokenMints : List String)

def global : Counter → Int
  | .metisRespTotal => w.respTotal
  | .metisRespOk => w.respOk
  | .droppedSamePool => w.samePool
  | _ => 0

def rowValue (i : Nat) (counts : TokenCounter → Int) : Int :=
  (TokenCounter.all.map fun c => w.row i c * counts c).sum

def value (s : Shared) : Int :=
  ∑ i ∈ Finset.range tokenMints.length, w.rowValue i (s.tokenMetrics.row i) +
    (w.respTotal * s.metrics .metisRespTotal + w.respOk * s.metrics .metisRespOk +
      w.samePool * s.metrics .droppedSamePool)

/-- The weight of a counter of the row of a mint. -/
def coeff (mint : String) (counter : TokenCounter) : Int :=
  match (TokenMetrics.new tokenMints).index[mint]? with
  | none => 0
  | some i => w.row i counter

/-- What an action books. -/
def booked : Action → Int
  | .add counter n => w.global counter * n
  | .addToken mint counter n => w.coeff tokenMints mint counter * n
  | .yieldPair _ => w.pair
  | _ => 0

/-- What a check is to book at its end: that its two requests are sent is booked. -/
def stage : Stage → Int
  | .quoteCheck mint _ _ => -(w.coeff tokenMints mint .qSent * 2)
  | _ => 0

def owed (task : Task) : Int :=
  (task.pending.map (w.booked tokenMints)).sum + w.stage tokenMints task.stage

/-- No end of a check of the mint books more than that. -/
def Settles (mint : String) : Prop :=
  ∀ outcome : QuoteOutcome, ((outcome.pending mint).map (w.booked tokenMints)).sum ≤
    -(w.coeff tokenMints mint .qSent * 2)

/-- What the return of a pair books. -/
def returned (entry : Machine.Entry (Pool Shared Task) (Nat × Choice)) : Int :=
  if returnsSome entry then -w.pair else 0

end Books

section Rules

variable {w : CheckWeights} {tokenMints : List String} {cfg : Settings} {s s' : Shared}
  {stage : Stage} {tasks : List Task}

theorem rowValue_update (i : Nat) (counts counts' : TokenCounter → Int) (counter : TokenCounter)
    (n : Int) (changed : ∀ c, counts' c = counts c + if c = counter then n else 0) :
    w.rowValue i counts' = w.rowValue i counts + w.row i counter * n := by
  unfold rowValue TokenCounter.all
  cases counter <;> simp [changed] <;> ring

theorem value_add_counter (counter : Counter) (n : Int) :
    w.value tokenMints (perform cfg s (.add counter n)) =
      w.value tokenMints s + w.global counter * n := by
  cases counter <;> simp [value, perform, global] <;> ring

theorem value_add_token (indexed : TokenMetrics.Indexed tokenMints s.tokenMetrics)
    (mint : String) (counter : TokenCounter) (n : Int) :
    w.value tokenMints (perform cfg s (.addToken mint counter n)) =
      w.value tokenMints s + w.coeff tokenMints mint counter * n := by
  have rows : ∀ i, w.rowValue i ((s.tokenMetrics.add mint counter n).row i) =
      w.rowValue i (s.tokenMetrics.row i) +
        if (TokenMetrics.new tokenMints).index[mint]? = some i then w.row i counter * n
        else 0 := by
    intro i
    split
    · rename_i found
      refine rowValue_update i _ _ counter n ?_
      intro c
      rw [indexed.row_add, found]
      simp only [true_and]
    · rename_i elsewhere
      rw [add_zero]
      congr 1
      funext c
      rw [indexed.row_add, if_neg fun same => elsewhere same.1, add_zero]
  unfold value perform coeff
  simp only [rows, Finset.sum_add_distrib]
  cases found : (TokenMetrics.new tokenMints).index[mint]? with
  | none => simp
  | some i =>
      have inside := TokenMetrics.index_new_lt found
      simp only [Option.some.injEq, Finset.sum_ite_eq, Finset.mem_range, inside, if_true]
      ring

/-- An action changes the value by what it books, but a return. -/
theorem value_perform (indexed : TokenMetrics.Indexed tokenMints s.tokenMetrics)
    (action : Action) :
    w.value tokenMints (perform cfg s action) =
      w.value tokenMints s + w.booked tokenMints action +
        if action.isYield then -w.pair else 0 := by
  cases action with
  | add counter n =>
      rw [value_add_counter]
      exact (add_zero _).symm
  | addToken mint counter n =>
      rw [value_add_token indexed]
      exact (add_zero _).symm
  | _ => simp [value, perform, booked, Action.isYield]

theorem owed_aside {task : Task} (aside : task.Aside) : w.owed tokenMints task = 0 := by
  have pending : (task.pending.map (w.booked tokenMints)).sum = 0 := by
    apply List.sum_eq_zero
    intro n member
    rcases List.mem_map.mp member with ⟨action, inside, rfl⟩
    have other := aside.2 action inside
    cases action with
    | add counter n =>
        have none : w.global counter = 0 := by
          cases counter <;> first | rfl | cases other
        rw [booked, none, zero_mul]
    | addToken mint counter n => cases other
    | yieldPair pair => cases other
    | _ => rfl
  have held : w.stage tokenMints task.stage = 0 := by
    have quiet := aside.1
    cases place : task.stage <;> first | rfl | (rw [place] at quiet; cases quiet)
  rw [owed, pending, held, add_zero]

theorem sum_owed_aside (aside : ∀ task ∈ tasks, task.Aside) :
    (tasks.map (w.owed tokenMints)).sum = 0 := by
  apply List.sum_eq_zero
  intro n member
  rcases List.mem_map.mp member with ⟨task, inside, rfl⟩
  exact owed_aside (aside task inside)

/-- **One decision** does not raise the total, when the weights settle the mint of a check. -/
theorem value_move (move : Move cfg s stage s' tasks)
    (settles : ∀ mint amount onlyDirect, stage = .quoteCheck mint amount onlyDirect →
      w.Settles tokenMints mint) :
    w.value tokenMints s' + (tasks.map (w.owed tokenMints)).sum ≤
      w.value tokenMints s + w.stage tokenMints stage := by
  have still : w.value tokenMints s' = w.value tokenMints s := by
    obtain ⟨counters, rows⟩ := metrics_of_move move
    rw [value, value, counters, rows]
  rw [still]
  refine add_le_add (le_refl _) ?_
  cases place : stage.isCheck with
  | true =>
      cases stage with
      | quoteCheck mint amount onlyDirect =>
          rcases move_quoteCheck move with ⟨outcome, rfl⟩
          have ended := settles mint amount onlyDirect rfl outcome
          simpa [owed, CheckWeights.stage] using ended
      | _ => cases place
  | false =>
      have held : w.stage tokenMints stage = 0 := by
        cases stage <;> first | rfl | cases place
      rw [held]
      by_cases start : stage = .quotes
      · subst start
        rcases move_quotes move with ⟨mint, amount, onlyDirect, rfl⟩
        simp [owed, booked, CheckWeights.stage, global, Stage.task]
      · rw [sum_owed_aside (aside_of_move move place start)]

end Rules

end CheckWeights

/-! ## Runs -/

/-- A check of the task is of a mint that is listed. -/
def Task.Listed (cfg : Settings) (task : Task) : Prop :=
  ∀ mint amount onlyDirect, task.stage = .quoteCheck mint amount onlyDirect →
    mint ∈ cfg.tokenMints

section Runs

variable {cfg : Settings} {s s' : Shared} {task : Task} {tasks : List Task} {choice : Choice}

theorem listed_of_aside (aside : task.Aside) : task.Listed cfg := by
  intro mint amount onlyDirect place
  have quiet := aside.1
  rw [place] at quiet
  cases quiet

theorem listed_run (ran : (pipeline cfg).run s task choice = some (s', tasks))
    (allowed : ∀ mint amount onlyDirect, choice = .check mint amount onlyDirect →
      mint ∈ cfg.tokenMints) (own : task.Listed cfg) : ∀ t ∈ tasks, t.Listed cfg := by
  rcases run_cases ran with ⟨action, rest, pending, rfl, rfl⟩ | ⟨pending, move⟩
  · exact List.forall_mem_singleton.mpr own
  · cases place : task.stage.isCheck with
    | true =>
        cases stage : task.stage with
        | quoteCheck mint amount onlyDirect =>
            rw [stage] at move
            rcases move_quoteCheck move with ⟨outcome, rfl⟩
            refine List.forall_mem_singleton.mpr ?_
            intro _ _ _ other
            cases other
        | _ =>
            rw [stage] at place
            cases place
    | false =>
        by_cases start : task.stage = .quotes
        · simp only [pipeline, pending, start, decideStage, quoteStep] at ran
          split at ran
          · rename_i mint amount onlyDirect same
            cases ran
            refine List.forall_mem_cons.mpr ⟨?_, ?_⟩
            · intro mint' amount' onlyDirect' same
              cases same
              exact allowed _ _ _ rfl
            · refine List.forall_mem_singleton.mpr ?_
              intro _ _ _ other
              cases other
          · rename_i other
            cases other
          · cases ran
        · intro t member
          exact listed_of_aside (aside_of_move move place start t member)

theorem indexed_run (ran : (pipeline cfg).run s task choice = some (s', tasks))
    (indexed : TokenMetrics.Indexed cfg.tokenMints s.tokenMetrics) :
    TokenMetrics.Indexed cfg.tokenMints s'.tokenMetrics := by
  rcases run_cases ran with ⟨action, rest, pending, rfl, rfl⟩ | ⟨pending, move⟩
  · cases action with
    | addToken mint counter n => exact indexed.add
    | _ => exact indexed
  · rw [(metrics_of_move move).2]
    exact indexed

section Reached

variable {guard : Pool Shared Task → Nat × Choice → Prop} {p start : Pool Shared Task}
  {steps : List (Machine.Entry (Pool Shared Task) (Nat × Choice))}

theorem indexed_reach (reached : (pipelineMachine cfg).Reach guard p) :
    TokenMetrics.Indexed cfg.tokenMints p.shared.tokenMetrics := by
  refine System.Reach.shared (fun s => TokenMetrics.Indexed cfg.tokenMints s.tokenMetrics) ?_ ?_
    reached
  · intro p spawned
    rcases spawned with ⟨now, store, -, rfl⟩
    exact TokenMetrics.indexed_new cfg.tokenMints
  · intro s task choice s' tasks ran indexed
    exact indexed_run ran indexed

theorem listed_reach (reached : (pipelineMachine cfg).Reach (ChecksListed cfg) p) :
    ∀ task ∈ p.tasks, task.Listed cfg := by
  refine reached.invariant (fun p => ∀ task ∈ p.tasks, task.Listed cfg) ?_ ?_
  · intro p spawned
    rcases spawned with ⟨now, store, -, rfl⟩
    refine cfg.forall_spawn (P := Task.Listed cfg) now store ?_ ?_ ?_ ?_ <;>
      exact fun _ _ _ other => nomatch other
  · intro p label p' before allowed taken
    rcases System.next_eq_some_iff.mp taken with ⟨task, shared, tasks, found, ran, rfl⟩
    have own := before task (List.mem_of_getElem? found)
    have created := listed_run ran
      (fun mint amount onlyDirect same => by
        rw [ChecksListed, same] at allowed
        exact allowed) own
    intro t member
    rw [List.mem_append, List.mem_append] at member
    rcases member with (earlier | new) | later
    · exact before t (List.mem_of_mem_take earlier)
    · exact created t new
    · exact before t (List.mem_of_mem_drop later)

namespace CheckWeights

variable {w : CheckWeights}

/-- **A step** does not raise the total by more than a return books. -/
theorem value_run (indexed : TokenMetrics.Indexed cfg.tokenMints s.tokenMetrics)
    (settles : ∀ mint ∈ cfg.tokenMints, w.Settles cfg.tokenMints mint)
    (listed : task.Listed cfg)
    (ran : (pipeline cfg).run s task choice = some (s', tasks)) :
    w.value cfg.tokenMints s' + (tasks.map (w.owed cfg.tokenMints)).sum ≤
      w.value cfg.tokenMints s + w.owed cfg.tokenMints task +
        if task.yields then -w.pair else 0 := by
  rcases run_cases ran with ⟨action, rest, pending, rfl, rfl⟩ | ⟨pending, move⟩
  · rw [value_perform indexed, List.map_singleton, List.sum_singleton, owed, owed, pending,
      List.map_cons, List.sum_cons, Task.yields, pending, List.head?_cons, Option.any_some]
    linarith
  · have moved : w.value cfg.tokenMints s' + (tasks.map (w.owed cfg.tokenMints)).sum ≤
        w.value cfg.tokenMints s + w.stage cfg.tokenMints task.stage := by
      refine value_move move ?_
      intro mint amount onlyDirect same
      exact settles mint (listed mint amount onlyDirect same)
    rw [owed, pending, List.map_nil, List.sum_nil, zero_add, Task.yields, pending]
    simpa using moved

theorem value_spawn (now : Nat) (store : StoreInner) :
    w.value cfg.tokenMints (cfg.spawn now store).shared = 0 := by
  simp [value, rowValue, Settings.spawn, TokenMetrics.row_new]

theorem sum_returned (steps : List (Machine.Entry (Pool Shared Task) (Nat × Choice))) :
    (steps.map w.returned).sum = -w.pair * steps.countP returnsSome := by
  induction steps with
  | nil => simp
  | cons entry steps ih =>
      rw [List.map_cons, List.sum_cons, ih, returned, List.countP_cons]
      split <;> push_cast <;> ring

/-- **Between calls** the counters have booked at most the returns. -/
theorem value_le (settles : ∀ mint ∈ cfg.tokenMints, w.Settles cfg.tokenMints mint)
    (spawned : Spawned cfg start) (trace : (pipelineMachine cfg).Trace start steps p)
    (listed : ∀ entry ∈ steps, ChecksListed cfg entry.before entry.label) (idle : NoCheck p) :
    w.value cfg.tokenMints p.shared ≤ -w.pair * steps.countP returnsSome := by
  have before := trace.reach_before_guarded spawned listed
  have total : p.total (w.value cfg.tokenMints) (w.owed cfg.tokenMints) ≤
      start.total (w.value cfg.tokenMints) (w.owed cfg.tokenMints) +
        (steps.map w.returned).sum := by
    refine trace.total_le ?_
    intro entry member task s' tasks found ran
    have reached := before entry member
    rw [returned, returnsSome, found, Option.any_some]
    exact value_run (indexed_reach reached) settles
      (listed_reach reached task (List.mem_of_getElem? found)) ran
  rcases spawned with ⟨now, store, -, rfl⟩
  rw [cfg.total_spawn now store rfl rfl rfl rfl, value_spawn, zero_add, sum_returned] at total
  rw [Pool.total, sum_owed_aside idle, add_zero] at total
  exact total

end CheckWeights

end Reached

end Runs

/-! ## The ledgers of the checks -/

namespace CheckWeights

/-- The same books with the other sign. -/
def neg (w : CheckWeights) : CheckWeights where
  row i c := -w.row i c
  respTotal := -w.respTotal
  respOk := -w.respOk
  samePool := -w.samePool
  pair := -w.pair

/-- Every end of a check of the mint books just that its requests are sent. -/
def Balances (w : CheckWeights) (tokenMints : List String) (mint : String) : Prop :=
  ∀ outcome : QuoteOutcome, ((outcome.pending mint).map (w.booked tokenMints)).sum =
    -(w.coeff tokenMints mint .qSent * 2)

section Signs

variable {w : CheckWeights} {tokenMints : List String} {mint : String}

theorem coeff_neg (counter : TokenCounter) :
    w.neg.coeff tokenMints mint counter = -w.coeff tokenMints mint counter := by
  unfold coeff
  split <;> rfl

theorem booked_neg (action : Action) :
    w.neg.booked tokenMints action = -w.booked tokenMints action := by
  cases action with
  | add counter n =>
      have opposite : w.neg.global counter = -w.global counter := by cases counter <;> rfl
      rw [booked, booked, opposite, neg_mul]
  | addToken mint counter n => rw [booked, booked, coeff_neg, neg_mul]
  | _ => rfl

theorem value_neg (s : Shared) : w.neg.value tokenMints s = -w.value tokenMints s := by
  have rows : ∀ i counts, w.neg.rowValue i counts = -w.rowValue i counts := by
    intro i counts
    simp [rowValue, neg, TokenCounter.all]
    ring
  simp only [value, rows, Finset.sum_neg_distrib]
  simp only [neg]
  ring

theorem Balances.settles (balances : w.Balances tokenMints mint) : w.Settles tokenMints mint :=
  fun outcome => (balances outcome).le

theorem Balances.neg (balances : w.Balances tokenMints mint) : w.neg.Balances tokenMints mint := by
  intro outcome
  have opposite : (outcome.pending mint).map (w.neg.booked tokenMints) =
      ((outcome.pending mint).map (w.booked tokenMints)).map Neg.neg := by
    rw [List.map_map]
    exact List.map_congr_left fun action _ => booked_neg action
  rw [opposite, ← List.sum_neg, balances outcome, coeff_neg, neg_mul]

/-- **Between calls** the books are even. -/
theorem value_eq {cfg : Settings} {p start : Pool Shared Task}
    {steps : List (Machine.Entry (Pool Shared Task) (Nat × Choice))}
    (balances : ∀ mint ∈ cfg.tokenMints, w.Balances cfg.tokenMints mint)
    (spawned : Spawned cfg start) (trace : (pipelineMachine cfg).Trace start steps p)
    (listed : ∀ entry ∈ steps, ChecksListed cfg entry.before entry.label) (idle : NoCheck p) :
    w.value cfg.tokenMints p.shared = -w.pair * steps.countP returnsSome := by
  have above := value_le (fun mint member => (balances mint member).settles) spawned trace listed
    idle
  have below := value_le (fun mint member => (balances mint member).neg.settles) spawned trace
    listed idle
  rw [value_neg, neg, neg_neg] at below
  linarith

end Signs

/-- Counters of one row. -/
def ofRow (j : Nat) (weight : TokenCounter → Int) : CheckWeights where
  row i c := if i = j then weight c else 0
  respTotal := 0
  respOk := 0
  samePool := 0
  pair := 0

/-- Requests, by the ends of the checks. -/
def sentLedger (j : Nat) : CheckWeights :=
  ofRow j fun
    | .qSent => 1
    | .routeOk | .routeFail => -2
    | _ => 0

/-- Routes, by what they pay. -/
def routeLedger (j : Nat) : CheckWeights :=
  ofRow j fun
    | .routeOk => 1
    | .profitable | .notProfitable => -1
    | _ => 0

/-- A counter of all rows, with the counters of `Metrics` and the returns. -/
def ofRows (counter : TokenCounter) (weight respTotal respOk samePool pair : Int) :
    CheckWeights where
  row _ c := if c = counter then weight else 0
  respTotal := respTotal
  respOk := respOk
  samePool := samePool
  pair := pair

def respTotalLedger : CheckWeights := ofRows .routeOk 1 (-1) 0 0 0

def respOkLedger : CheckWeights := ofRows .profitable 1 0 (-1) 0 0

def resultLedger : CheckWeights := ofRows .profitable 1 0 0 0 (-1)

def samePoolLedger : CheckWeights := ofRows .notProfitable (-1) 0 0 1 0

section Ledgers

variable {tokenMints : List String} {mint : String} {s : Shared}

theorem sentLedger_balances (j : Nat) : (sentLedger j).Balances tokenMints mint := by
  intro outcome
  cases outcome <;>
    simp only [QuoteOutcome.pending, booked, coeff, global, sentLedger, ofRow, List.map_cons,
      List.map_nil, List.sum_cons, List.sum_nil] <;>
    split <;> first | rfl | (split_ifs <;> rfl)

theorem routeLedger_balances (j : Nat) : (routeLedger j).Balances tokenMints mint := by
  intro outcome
  cases outcome <;>
    simp only [QuoteOutcome.pending, booked, coeff, global, routeLedger, ofRow, List.map_cons,
      List.map_nil, List.sum_cons, List.sum_nil] <;>
    split <;> first | rfl | (split_ifs <;> rfl)

theorem respTotalLedger_balances (listed : mint ∈ tokenMints) :
    respTotalLedger.Balances tokenMints mint := by
  obtain ⟨i, found⟩ := TokenMetrics.exists_index_new listed
  intro outcome
  cases outcome <;>
    simp [QuoteOutcome.pending, booked, coeff, found, global, respTotalLedger, ofRows]

theorem respOkLedger_balances (listed : mint ∈ tokenMints) :
    respOkLedger.Balances tokenMints mint := by
  obtain ⟨i, found⟩ := TokenMetrics.exists_index_new listed
  intro outcome
  cases outcome <;>
    simp [QuoteOutcome.pending, booked, coeff, found, global, respOkLedger, ofRows]

theorem resultLedger_balances (listed : mint ∈ tokenMints) :
    resultLedger.Balances tokenMints mint := by
  obtain ⟨i, found⟩ := TokenMetrics.exists_index_new listed
  intro outcome
  cases outcome <;>
    simp [QuoteOutcome.pending, booked, coeff, found, global, resultLedger, ofRows]

theorem samePoolLedger_settles (listed : mint ∈ tokenMints) :
    samePoolLedger.Settles tokenMints mint := by
  obtain ⟨i, found⟩ := TokenMetrics.exists_index_new listed
  intro outcome
  cases outcome <;>
    simp [QuoteOutcome.pending, booked, coeff, found, global, samePoolLedger, ofRows]

theorem value_ofRow {j : Nat} (inside : j < tokenMints.length) (weight : TokenCounter → Int) :
    (ofRow j weight).value tokenMints s =
      (TokenCounter.all.map fun c => weight c * s.tokenMetrics.row j c).sum := by
  have one : ∀ i, (ofRow j weight).rowValue i (s.tokenMetrics.row i) =
      if i = j then (TokenCounter.all.map fun c => weight c * s.tokenMetrics.row j c).sum
      else 0 := by
    intro i
    by_cases same : i = j
    · simp [rowValue, ofRow, same]
    · simp [rowValue, ofRow, same, TokenCounter.all]
  simp only [value, one, Finset.sum_ite_eq', Finset.mem_range, inside, if_true]
  simp [ofRow]

theorem value_ofRows (counter : TokenCounter) (weight respTotal respOk samePool pair : Int) :
    (ofRows counter weight respTotal respOk samePool pair).value tokenMints s =
      weight * ∑ i ∈ Finset.range tokenMints.length, s.tokenMetrics.row i counter +
        (respTotal * s.metrics .metisRespTotal + respOk * s.metrics .metisRespOk +
          samePool * s.metrics .droppedSamePool) := by
  have rows : ∀ i counts,
      (ofRows counter weight respTotal respOk samePool pair).rowValue i counts =
        weight * counts counter := by
    intro i counts
    cases counter <;> simp [rowValue, ofRows, TokenCounter.all]
  simp only [value, rows, Finset.mul_sum]
  rfl

end Ledgers

end CheckWeights

/-- The counters of the checks, of which `results` returned a pair, agree. -/
structure ChecksBalance (s : Shared) (results : Nat) : Prop where
  sent : ∀ stat ∈ s.tokenMetrics.stats,
    stat.counts .qSent = 2 * (stat.counts .routeOk + stat.counts .routeFail)
  routeOk : ∀ stat ∈ s.tokenMetrics.stats,
    stat.counts .routeOk = stat.counts .profitable + stat.counts .notProfitable
  respTotal : s.tokenMetrics.total .routeOk = s.metrics .metisRespTotal
  respOk : s.tokenMetrics.total .profitable = s.metrics .metisRespOk
  results : s.metrics .metisRespOk = results
  samePool : s.metrics .droppedSamePool ≤ s.tokenMetrics.total .notProfitable

section Balance

variable {cfg : Settings} {p start : Pool Shared Task}
  {steps : List (Machine.Entry (Pool Shared Task) (Nat × Choice))}

/-- **Quote accounting.** Whenever no check is in progress, in any interleaving of any checks of
the mints of the file, whatever the replies and however often the file repeats a mint. -/
theorem checks_balance (spawned : Spawned cfg start)
    (trace : (pipelineMachine cfg).Trace start steps p)
    (listed : ∀ entry ∈ steps, ChecksListed cfg entry.before entry.label) (idle : NoCheck p) :
    ChecksBalance p.shared (steps.countP returnsSome) := by
  have indexed := indexed_reach (trace.reach spawned)
  have row : ∀ stat ∈ p.shared.tokenMetrics.stats,
      ∃ j < cfg.tokenMints.length, p.shared.tokenMetrics.row j = stat.counts := by
    intro stat member
    rcases List.getElem_of_mem member with ⟨j, inside, rfl⟩
    exact ⟨j, indexed.length ▸ inside,
      TokenMetrics.row_of_getElem? (List.getElem?_eq_getElem inside)⟩
  have total : ∀ counter, ∑ i ∈ Finset.range cfg.tokenMints.length,
      p.shared.tokenMetrics.row i counter = p.shared.tokenMetrics.total counter := by
    intro counter
    rw [TokenMetrics.total_eq_sum, indexed.length]
  have respOk := CheckWeights.value_eq
    (fun _ member => CheckWeights.respOkLedger_balances member) spawned trace listed idle
  have results := CheckWeights.value_eq
    (fun _ member => CheckWeights.resultLedger_balances member) spawned trace listed idle
  rw [CheckWeights.respOkLedger, CheckWeights.value_ofRows, total] at respOk
  rw [CheckWeights.resultLedger, CheckWeights.value_ofRows, total] at results
  simp only [CheckWeights.ofRows] at respOk results
  constructor
  · intro stat member
    obtain ⟨j, inside, same⟩ := row stat member
    have even := CheckWeights.value_eq (fun _ _ => CheckWeights.sentLedger_balances j) spawned
      trace listed idle
    rw [CheckWeights.sentLedger, CheckWeights.value_ofRow inside, same] at even
    simp [TokenCounter.all, CheckWeights.ofRow] at even
    linarith
  · intro stat member
    obtain ⟨j, inside, same⟩ := row stat member
    have even := CheckWeights.value_eq (fun _ _ => CheckWeights.routeLedger_balances j) spawned
      trace listed idle
    rw [CheckWeights.routeLedger, CheckWeights.value_ofRow inside, same] at even
    simp [TokenCounter.all, CheckWeights.ofRow] at even
    linarith
  · have even := CheckWeights.value_eq
      (fun _ member => CheckWeights.respTotalLedger_balances member) spawned trace listed idle
    rw [CheckWeights.respTotalLedger, CheckWeights.value_ofRows, total] at even
    simp only [CheckWeights.ofRows] at even
    linarith
  · linarith
  · linarith
  · have settled := CheckWeights.value_le
      (fun _ member => CheckWeights.samePoolLedger_settles member) spawned trace listed idle
    rw [CheckWeights.samePoolLedger, CheckWeights.value_ofRows, total] at settled
    simp only [CheckWeights.ofRows] at settled
    linarith

end Balance

/-! ### Two checks of a mint the file repeats -/

def repeatedMint : Settings :=
  { twoWorkers with tokenMints := List.replicate 2 "EPjFWdd5AufqSSqeM2qN1xzybapC8G4wEGkZwyTDt1v" }

/-- A check that pays and, before it returns, one without a route. -/
def twoChecks : List (Nat × Choice) :=
  [(1, .check "EPjFWdd5AufqSSqeM2qN1xzybapC8G4wEGkZwyTDt1v" 1000000 false), (1, .go), (1, .go),
    (2, .check "EPjFWdd5AufqSSqeM2qN1xzybapC8G4wEGkZwyTDt1v" 2000000 true), (2, .go), (2, .go),
    (1, .quoted (roundTrip ["poolA"] ["poolB"])), (1, .go), (2, .quoted fun _ _ _ _ => none)] ++
    List.replicate 4 (1, .go) ++ [(2, .go)]

theorem checks_balance_repeatedMint :
    ∃ steps p,
      (pipelineMachine repeatedMint).Trace (repeatedMint.spawn oneSecond .new) steps p ∧
        ChecksBalance p.shared (steps.countP returnsSome) ∧
          p.shared.metrics .metisRespOk = 1 := by
  have ended : ((pipeline repeatedMint).exec (ChecksListed repeatedMint)
      (repeatedMint.spawn oneSecond .new) twoChecks).any
        (fun p => NoCheck p ∧ p.shared.metrics .metisRespOk = 1) := by decide
  rcases (Option.any_eq_true _ _).mp ended with ⟨p, played, last⟩
  rw [decide_eq_true_eq] at last
  rcases System.exec_trace played with ⟨steps, trace, listed⟩
  have spawned : Spawned repeatedMint (repeatedMint.spawn oneSecond .new) :=
    ⟨oneSecond, .new, Nat.le_refl _, rfl⟩
  exact ⟨steps, p, trace, checks_balance spawned trace listed last.1, last.2⟩

end ArbBot
