import ArbBot.Pipeline.Moves
import Mathlib.Tactic.Ring

/-!
# Funnel conservation

`Weights` books the counters, the ready pairs, the queued items and what the tasks hold.
Weights that meet the laws of `Weights.Balanced`, one law for each kind of exit, give a
balanced ledger of the pipeline (`Weights.total_eq`); each equation of the funnel is the
total of one such ledger (`funnel_conserved`). A ledger for each item number bounds its
sends.
-/

namespace ArbBot

open Foundation Sdk

/-! ## Weights -/

structure Weights where
  counters : List (Counter × Int)
  /-- A pair, ready or held by the scan loop. -/
  pair : Int
  /-- A call of `/swap-instructions`. -/
  call : Int
  /-- An item, queued or held by a worker. -/
  item : Int

namespace Weights

/-- The weight of a counter. -/
def coeff (w : Weights) (counter : Counter) : Int :=
  (w.counters.map fun e => if e.1 = counter then e.2 else 0).sum

/-- What the counters have booked. -/
def counted (w : Weights) (metrics : Counter → Int) : Int :=
  (w.counters.map fun e => e.2 * metrics e.1).sum

def value (w : Weights) (s : Shared) : Int :=
  w.counted s.metrics + w.pair * s.opps.length + w.item * s.lifo.length

/-- What an action books. -/
def booked (w : Weights) : Action → Int
  | .add counter n => w.coeff counter * n
  | .yieldPair _ => w.pair
  | .push _ => w.item
  | _ => 0

/-- What a stage holds. -/
def stage (w : Weights) : Stage → Int
  | .tier1 _ | .tier2 _ | .tier2Route _ | .tier3 _ | .spawn _ => w.pair
  | .serving _ _ | .answered _ _ => w.item + w.coeff .queueIn
  | .metis _ => w.call
  | .popped _ | .limit _ | .limitGrpc _ | .build _ _ | .send _ _ | .sending _ => w.item
  | _ => 0

def owed (w : Weights) (task : Task) : Int :=
  (task.pending.map w.booked).sum + w.stage task.stage

/-- The counters that book nothing in any of the ledgers here. -/
def besides : List Counter := [
  .metisReqSent, .metisRespTotal, .routeTemplateHit, .hopTemplateAllHit, .hopTemplateMissing,
  .swapIxTimeout, .swapIxHttp, .swapIxNetwork, .swapIxParse, .droppedSamePool, .queueDepth,
  .calcDone, .rateRequeued, .txDropped, .metisFetchMsTotal, .metisFetchSamples]

/-- Each exit books what it takes. -/
structure Balanced (w : Weights) : Prop where
  besides : ∀ counter ∈ besides, w.coeff counter = 0
  pairIn : w.coeff .metisRespOk + w.pair = 0
  pairOut : ∀ counter ∈ pairExits, w.coeff counter = w.pair
  call : w.call = w.pair
  callOut : w.coeff .swapIxFailed = w.call
  fromRam : w.coeff .ixFromRam + w.coeff .swapIxOk + (w.item + w.coeff .queueIn) = w.pair
  fromMetis : w.coeff .swapIxOk + w.coeff .ixFromMetis + (w.item + w.coeff .queueIn) = w.call
  itemOut : ∀ counter ∈ itemExits ++ [.jitoSent, .jitoSendFailed], w.coeff counter = w.item

theorem counted_add (w : Weights) (metrics : Counter → Int) (counter : Counter) (n : Int) :
    w.counted (Function.update metrics counter (metrics counter + n)) =
      w.counted metrics + w.coeff counter * n := by
  rw [counted, counted, coeff]
  induction w.counters with
  | nil => simp
  | cons e rest ih =>
      rw [List.map_cons, List.sum_cons, ih, List.map_cons, List.sum_cons, List.map_cons,
        List.sum_cons, Function.update_apply]
      by_cases same : e.1 = counter
      · rw [if_pos same, if_pos same, same]
        ring
      · rw [if_neg same, if_neg same]
        ring

/-- An action books what it does. -/
theorem value_perform (w : Weights) (cfg : Settings) (s : Shared) (action : Action) :
    w.value (perform cfg s action) = w.value s + w.booked action := by
  cases action with
  | add counter n =>
      simp only [value, perform, booked, counted_add]
      ring
  | yieldPair pair =>
      simp only [value, perform, booked, List.length_append, List.length_singleton, Nat.cast_add,
        Nat.cast_one]
      ring
  | push item =>
      simp only [value, perform, booked, List.length_cons, Nat.cast_add, Nat.cast_one]
      ring
  | _ => simp only [value, perform, booked, add_zero]

theorem value_erase_opp (w : Weights) {s : Shared} {i : Nat} {pair : QuotePair}
    (found : s.opps[i]? = some pair) :
    w.value { s with opps := s.opps.eraseIdx i } = w.value s - w.pair := by
  have inside := (List.getElem?_eq_some_iff.mp found).1
  have length : ((s.opps.eraseIdx i).length : Int) = s.opps.length - 1 := by
    rw [List.length_eraseIdx_of_lt inside]
    omega
  simp only [value, length]
  ring

/-! ## The laws are enough -/

/-- The sum of pending actions. -/
def book (w : Weights) (pending : List Action) : Int := (pending.map w.booked).sum

theorem owed_eq (w : Weights) (pending : List Action) (stage : Stage) :
    w.owed { pending := pending, stage := stage } = w.book pending + w.stage stage := rfl

theorem owed_task (w : Weights) (stage : Stage) : w.owed stage.task = w.stage stage := by
  rw [Stage.task, owed_eq, book, List.map_nil, List.sum_nil, zero_add]

theorem stage_of_holdsPair (w : Weights) {stage : Stage} (holds : stage.holdsPair) :
    w.stage stage = w.pair := by
  cases stage <;> first | rfl | cases holds

theorem stage_of_arrives (w : Weights) {stage : Stage} (arrives : stage.arrives) :
    w.stage stage = w.item + w.coeff .queueIn := by
  cases stage <;> first | rfl | cases arrives

section Laws

variable {w : Weights}

theorem Balanced.book_drop (laws : w.Balanced) (counter : Counter) :
    w.book (drop counter) = w.coeff counter := by
  have txDropped := laws.besides .txDropped (by decide)
  simp only [book, drop, List.map_cons, List.map_nil, List.sum_cons, List.sum_nil, booked,
    txDropped, mul_one, add_zero]

theorem Balanced.book_push (laws : w.Balanced) (item : ReadyInstruction) :
    w.book [.push item, .add .queueIn 1, .add .queueDepth 1, .addPermit] =
      w.item + w.coeff .queueIn := by
  have queueDepth := laws.besides .queueDepth (by decide)
  simp only [book, List.map_cons, List.map_nil, List.sum_cons, List.sum_nil, booked,
    queueDepth, mul_one, add_zero]

theorem book_append (first second : List Action) :
    w.book (first ++ second) = w.book first + w.book second := by
  rw [book, List.map_append, List.sum_append, book, book]

theorem Balanced.book_quoted (laws : w.Balanced) (tokenMint : String) (outcome : QuoteOutcome) :
    w.book (outcome.pending tokenMint) = 0 := by
  have total := laws.besides .metisRespTotal (by decide)
  have samePool := laws.besides .droppedSamePool (by decide)
  have pairIn := laws.pairIn
  cases outcome with
  | profitable pair =>
      simp only [book, QuoteOutcome.pending, List.map_cons, List.map_nil, List.sum_cons,
        List.sum_nil, booked, total]
      omega
  | _ =>
      simp only [book, QuoteOutcome.pending, List.map_cons, List.map_nil, List.sum_cons,
        List.sum_nil, booked, total, samePool, mul_one, add_zero]

theorem Balanced.owed_ramHit (laws : w.Balanced) (merged : Merged) (sig : U128)
    (patched : SwapInstructionsResponse) : w.owed (ramHit merged sig patched) = w.pair := by
  have hit := laws.besides .routeTemplateHit (by decide)
  rw [ramHit, owed_eq, ← laws.fromRam]
  simp only [book, List.map_cons, List.map_nil, List.sum_cons, List.sum_nil, booked, stage, hit]
  omega

theorem Balanced.owed_metisAnswer (laws : w.Balanced) (cfg : Settings) (merged : Merged)
    (fetchMs : Nat) (result : Except SwapIxError SwapInstructionsResponse) :
    w.owed (metisAnswer cfg merged fetchMs result) = w.call := by
  cases result with
  | error e =>
      have counter : w.coeff e.counter = 0 := by
        apply laws.besides _
        cases e <;> simp [SwapIxError.counter, Weights.besides]
      rw [metisAnswer, owed_eq, book_append, laws.book_drop, laws.callOut]
      simp only [book, List.map_cons, List.map_nil, List.sum_cons, List.sum_nil, booked, stage,
        counter, zero_mul, add_zero]
  | ok swapIxs =>
      have total := laws.besides .metisFetchMsTotal (by decide)
      have samples := laws.besides .metisFetchSamples (by decide)
      have saved : w.book (if cfg.saveNew then
          [.insertRoute merged swapIxs, .recordHops merged] else []) = 0 := by
        split <;> rfl
      rw [metisAnswer, owed_eq, book_append, saved, ← laws.fromMetis]
      simp only [book, List.map_cons, List.map_nil, List.sum_cons, List.sum_nil, booked, stage,
        total, samples]
      omega

theorem Balanced.book_scan (laws : w.Balanced) {counters : List (Counter × Int)}
    (scan : ∀ e ∈ counters, e.1 ∈ scanCounters) :
    w.book (counters.map fun e => .add e.1 e.2) = 0 := by
  rw [book, List.map_map]
  apply List.sum_eq_zero
  intro booked member
  rcases List.mem_map.mp member with ⟨e, inside, rfl⟩
  have besides : e.1 ∈ Weights.besides := by
    have known := scan e inside
    revert known
    generalize e.1 = counter
    revert counter
    decide
  simp only [Function.comp, Weights.booked, laws.besides _ besides, zero_mul]

theorem Balanced.owed_requeued (laws : w.Balanced) (item : ReadyInstruction) :
    w.owed (requeued item) = w.item := by
  have queueDepth := laws.besides .queueDepth (by decide)
  have requeuedOnce := laws.besides .rateRequeued (by decide)
  rw [requeued, owed_eq, book_append]
  have first : w.book (if item.waitedForSlot then [] else [.add .rateRequeued 1]) = 0 := by
    split
    · rfl
    · simp only [book, List.map_cons, List.map_nil, List.sum_cons, List.sum_nil, booked,
        requeuedOnce, zero_mul, add_zero]
  rw [first]
  simp only [book, List.map_cons, List.map_nil, List.sum_cons, List.sum_nil, booked, queueDepth,
    stage]
  omega

/-- **One decision** leaves the total alone. -/
theorem Balanced.settled {cfg : Settings} {s s' : Shared} {stage : Stage} {tasks : List Task}
    (laws : w.Balanced) (move : Move cfg s stage s' tasks) :
    w.value s' + (tasks.map w.owed).sum = w.value s + w.stage stage := by
  have reqSent := laws.besides .metisReqSent (by decide)
  have queueDepth := laws.besides .queueDepth (by decide)
  have calcDone := laws.besides .calcDone (by decide)
  have singles : ∀ pending next, ([{ pending := pending, stage := next }].map w.owed).sum =
      w.book pending + w.stage next := fun pending next => by
    rw [List.map_singleton, List.sum_singleton, owed_eq]
  have nothing : w.book [] = 0 := rfl
  have one : ∀ counter n, w.book [.add counter n] = w.coeff counter * n := fun counter n => by
    rw [book, List.map_singleton, List.sum_singleton, booked]
  cases move with
  | check tokenMint amount onlyDirect =>
      rw [List.map_cons, List.sum_cons, Stage.task, singles, owed_eq, nothing]
      simp only [book, List.map_cons, List.map_nil, List.sum_cons, List.sum_nil, booked, stage,
        reqSent]
      omega
  | quoted tokenMint amount onlyDirect outcome =>
      rw [singles, laws.book_quoted, zero_add]
      rfl
  | dropPair found exit =>
      rw [singles, laws.book_drop, laws.pairOut _ exit, value_erase_opp w found]
      simp only [stage]
      omega
  | takePair merged found =>
      rw [Stage.task, singles, nothing, value_erase_opp w found]
      simp only [stage]
      omega
  | descend store counters holds next scan =>
      rw [singles, laws.book_scan scan, stage_of_holdsPair w holds, stage_of_holdsPair w next,
        zero_add]
      rfl
  | ramHit store merged sig patched holds =>
      rw [List.map_singleton, List.sum_singleton, laws.owed_ramHit, stage_of_holdsPair w holds]
      rfl
  | noServe merged =>
      rw [singles, laws.book_drop, laws.pairOut _ (by simp [pairExits])]
      simp only [stage, add_zero]
  | spawn merged =>
      rw [List.map_cons, List.sum_cons, owed_task, Stage.task, singles, nothing]
      simp only [stage, laws.call, zero_add]
  | answered merged fetchMs result =>
      rw [List.map_singleton, List.sum_singleton, laws.owed_metisAnswer]
      rfl
  | push item arrives next _ _ =>
      have ended : ∀ next, next = .scan ∨ next = .finished → w.stage next = 0 := by
        rintro next (rfl | rfl) <;> rfl
      rw [singles, laws.book_push, stage_of_arrives w arrives, ended _ next, add_zero]
      rfl
  | @pop item rest top =>
      have length : (s.lifo.length : Int) = rest.length + 1 := by rw [top]; rfl
      rw [singles, one, queueDepth]
      simp only [value, stage, length]
      ring
  | stale item =>
      rw [singles, laws.book_drop, laws.itemOut _ (by simp [itemExits])]
      simp only [stage, add_zero]
  | dropBuild item grant exit =>
      rw [singles, laws.book_drop, laws.itemOut _ (List.mem_append_left _ exit)]
      simp only [stage, add_zero]
  | built item grant =>
      rw [singles, one, calcDone, zero_mul, zero_add]
      rfl
  | sent item =>
      rw [singles, one, laws.itemOut _ (by simp)]
      simp only [stage, mul_one, add_zero]
  | sendFailed item =>
      rw [singles, laws.book_drop, laws.itemOut _ (by simp)]
      simp only [stage, add_zero]
  | noGrpc item _ =>
      rw [List.map_singleton, List.sum_singleton, laws.owed_requeued]
      rfl
  | refuseGrpc item _ _ =>
      rw [List.map_singleton, List.sum_singleton, laws.owed_requeued]
      rfl
  | _ =>
      rw [Stage.task, singles, nothing, zero_add]
      rfl

end Laws

/-- **A balanced ledger of the pipeline.** -/
theorem Balanced.total_eq {w : Weights} (laws : w.Balanced) {cfg : Settings}
    {guard : Pool Shared Task → Nat × Choice → Prop} {p : Pool Shared Task}
    (reached : (pipelineMachine cfg).Reach guard p) : p.total w.value w.owed = 0 := by
  refine System.Reach.total_eq ?_ ?_ reached
  · intro s task choice s' tasks ran
    rcases run_cases ran with ⟨action, rest, pending, rfl, rfl⟩ | ⟨pending, move⟩
    · rw [value_perform, List.map_singleton, List.sum_singleton, owed, owed, pending,
        List.map_cons, List.sum_cons]
      ring
    · rw [laws.settled move, owed, pending, List.map_nil, List.sum_nil, zero_add]
  · intro p given
    rcases given with ⟨now, store, -, rfl⟩
    rw [cfg.total_spawn now store rfl rfl rfl rfl]
    simp [value, counted, Settings.spawn]

end Weights

/-! ## Between the updates -/

/-- No task is between two of its updates: nothing is pending, the scan loop holds no pair
and no instruction is on its way into the queue. -/
def Quiet (p : Pool Shared Task) : Prop :=
  ∀ task ∈ p.tasks, task.pending = [] ∧ task.stage.holdsPair = false ∧
    task.stage.arrives = false

instance (p : Pool Shared Task) : Decidable (Quiet p) :=
  inferInstanceAs (Decidable (∀ task ∈ p.tasks, _ ∧ _ ∧ _))

/-- The calls of `/swap-instructions` in flight. -/
def callsInFlight (tasks : List Task) : Nat := tasks.countP fun task => task.stage.isCall

/-- The items held by workers. -/
def itemsHeld (tasks : List Task) : Nat := tasks.countP fun task => task.stage.item?.isSome

namespace Weights

variable {w : Weights}

theorem owed_quiet (w : Weights) {task : Task} (pending : task.pending = [])
    (free : task.stage.holdsPair = false) (still : task.stage.arrives = false) :
    w.owed task =
      w.call * (if task.stage.isCall then 1 else 0) +
        w.item * (if task.stage.item?.isSome then 1 else 0) := by
  rcases task with ⟨actions, stage⟩
  obtain rfl : actions = [] := pending
  rw [owed_eq, book, List.map_nil, List.sum_nil, zero_add]
  cases stage with
  | tier1 _ | tier2 _ | tier2Route _ | tier3 _ | spawn _ => cases free
  | serving _ _ | answered _ _ => cases still
  | _ => simp [Weights.stage, Stage.isCall, Stage.item?]

theorem sum_owed_quiet (w : Weights) (tasks : List Task)
    (quiet : ∀ task ∈ tasks, task.pending = [] ∧ task.stage.holdsPair = false ∧
      task.stage.arrives = false) :
    (tasks.map w.owed).sum = w.call * callsInFlight tasks + w.item * itemsHeld tasks := by
  induction tasks with
  | nil => simp [callsInFlight, itemsHeld]
  | cons task rest ih =>
      have first := quiet task List.mem_cons_self
      have others := ih fun other member => quiet other (List.mem_cons_of_mem _ member)
      rw [List.map_cons, List.sum_cons, w.owed_quiet first.1 first.2.1 first.2.2, others, callsInFlight,
        callsInFlight, itemsHeld, itemsHeld, List.countP_cons, List.countP_cons]
      push_cast
      ring

/-- A ledger between the updates. -/
theorem Balanced.quiet_eq (laws : w.Balanced) {cfg : Settings}
    {guard : Pool Shared Task → Nat × Choice → Prop} {p : Pool Shared Task}
    (reached : (pipelineMachine cfg).Reach guard p) (quiet : Quiet p) :
    w.counted p.shared.metrics + w.pair * p.shared.opps.length +
        w.item * p.shared.lifo.length +
      (w.call * callsInFlight p.tasks + w.item * itemsHeld p.tasks) = 0 := by
  rw [← w.sum_owed_quiet p.tasks quiet]
  exact laws.total_eq reached

end Weights

/-! ## The ledgers of the funnel -/

/-- Pairs. -/
def pairLedger : Weights where
  counters := [
    (.metisRespOk, 1), (.droppedMultiHop, -1), (.droppedMergeFail, -1), (.droppedNoServe, -1),
    (.swapIxFailed, -1), (.queueIn, -1)]
  pair := -1
  call := -1
  item := 0

/-- Instructions, by their answers. -/
def answerLedger : Weights where
  counters := [(.queueIn, 1), (.swapIxOk, -1)]
  pair := 0
  call := 0
  item := 0

/-- Instructions, by their source. -/
def sourceLedger : Weights where
  counters := [(.swapIxOk, 1), (.ixFromRam, -1), (.ixFromMetis, -1)]
  pair := 0
  call := 0
  item := 0

/-- Items. -/
def itemLedger : Weights where
  counters := [
    (.queueIn, 1), (.droppedStale, -1), (.txBuildFailed, -1), (.txTooLarge, -1),
    (.droppedAccountLocks, -1), (.jitoSent, -1), (.jitoSendFailed, -1)]
  pair := 0
  call := 0
  item := -1

theorem pairLedger_balanced : pairLedger.Balanced := by
  constructor <;> decide

theorem answerLedger_balanced : answerLedger.Balanced := by
  constructor <;> decide

theorem sourceLedger_balanced : sourceLedger.Balanced := by
  constructor <;> decide

theorem itemLedger_balanced : itemLedger.Balanced := by
  constructor <;> decide

/-! ## One send for each item -/

/-- The item a worker holds and has not sent. -/
def Stage.unsent? : Stage → Option ReadyInstruction
  | .sending _ => none
  | stage => stage.item?

/-- The item an action pushes. -/
def Action.pushes? : Action → Option ReadyInstruction
  | .push item => some item
  | _ => none

/-- Whether the item has the number. -/
def numbered (id : Nat) (item : Option ReadyInstruction) : Nat :=
  if item.any (·.id == id) then 1 else 0

/-- Whether the number is still to be given. -/
def unused (id nextId : Nat) : Nat := if nextId ≤ id then 1 else 0

/-- The sends of the number, and the items that may still be sent under it: those in the
queue, and one that is not there yet. -/
def sendable (id : Nat) (s : Shared) : Nat :=
  s.sends.countP (·.id = id) + (s.lifo.countP (·.id = id) + unused id s.nextId)

def pushes (id : Nat) (pending : List Action) : Nat :=
  (pending.map fun action => numbered id action.pushes?).sum

/-- The items a task holds or puts back that may still be sent under the number. -/
def carries (id : Nat) (task : Task) : Nat :=
  pushes id task.pending + numbered id task.stage.unsent?

section Number

variable {id : Nat}

theorem carries_mk (id : Nat) (pending : List Action) (stage : Stage) :
    carries id { pending := pending, stage := stage } =
      pushes id pending + numbered id stage.unsent? := rfl

theorem numbered_none (id : Nat) : numbered id none = 0 := rfl

theorem numbered_some (id : Nat) (item : ReadyInstruction) :
    numbered id (some item) = if item.id = id then 1 else 0 := by
  simp only [numbered, Option.any_some, beq_iff_eq]

/-- A number comes into the queue by a push of its item only. -/
theorem sendable_perform (id : Nat) (cfg : Settings) (s : Shared) (action : Action) :
    sendable id (perform cfg s action) = sendable id s + numbered id action.pushes? := by
  cases action with
  | push item =>
      simp only [sendable, perform, Action.pushes?, numbered_some, List.countP_cons,
        decide_eq_true_eq]
      omega
  | _ => rfl

/-- A number is given once. -/
theorem unused_succ (id nextId : Nat) :
    unused id nextId = unused id (nextId + 1) + if nextId = id then 1 else 0 := by
  rw [unused, unused]
  split_ifs <;> omega

theorem pushes_eq_zero {pending : List Action}
    (none : ∀ action ∈ pending, action.pushes? = none) : pushes id pending = 0 := by
  apply List.sum_eq_zero
  intro count member
  rcases List.mem_map.mp member with ⟨action, inside, rfl⟩
  rw [none action inside, numbered_none]

theorem pushes_drop (id : Nat) (counter : Counter) : pushes id (drop counter) = 0 := rfl

theorem pushes_quoted (id : Nat) (tokenMint : String) (outcome : QuoteOutcome) :
    pushes id (outcome.pending tokenMint) = 0 := by
  cases outcome <;> rfl

theorem pushes_scan (id : Nat) (counters : List (Counter × Int)) :
    pushes id (counters.map fun e => .add e.1 e.2) = 0 := by
  apply pushes_eq_zero
  intro action member
  rcases List.mem_map.mp member with ⟨e, _, rfl⟩
  rfl

theorem carries_metisAnswer (id : Nat) (cfg : Settings) (merged : Merged) (fetchMs : Nat)
    (result : Except SwapIxError SwapInstructionsResponse) :
    carries id (metisAnswer cfg merged fetchMs result) = 0 := by
  cases result with
  | error e => rfl
  | ok swapIxs =>
      rw [metisAnswer, carries_mk]
      split <;> rfl

/-- A refused worker puts back what it holds. -/
theorem carries_requeued (id : Nat) (item : ReadyInstruction) :
    carries id (requeued item) = numbered id (some item) := by
  rw [requeued, carries_mk, numbered_some]
  split <;>
    simp [pushes, Action.pushes?, numbered, Stage.unsent?, Stage.item?]

theorem unsent_of_arrives {stage : Stage} (arrives : stage.arrives) : stage.unsent? = none := by
  cases stage <;> first | rfl | cases arrives

theorem unsent_of_holdsPair {stage : Stage} (holds : stage.holdsPair) : stage.unsent? = none := by
  cases stage <;> first | rfl | cases holds

/-- **One decision** makes nothing new sendable under a number. -/
theorem sendable_move {cfg : Settings} {s s' : Shared} {stage : Stage} {tasks : List Task}
    (move : Move cfg s stage s' tasks) :
    sendable id s' + (tasks.map (carries id)).sum ≤
      sendable id s + numbered id stage.unsent? := by
  have single : ∀ pending next,
      ([{ pending := pending, stage := next }].map (carries id)).sum =
        pushes id pending + numbered id next.unsent? := fun pending next => by
    rw [List.map_singleton, List.sum_singleton, carries_mk]
  have nothing : pushes id [] = 0 := rfl
  cases move with
  | quoted tokenMint amount onlyDirect outcome =>
      rw [single, pushes_quoted]
      exact Nat.le_refl _
  | descend store counters holds next scan =>
      rw [single, pushes_scan, unsent_of_holdsPair holds, unsent_of_holdsPair next]
      exact Nat.le_refl _
  | ramHit store merged sig patched holds =>
      rw [unsent_of_holdsPair holds]
      exact Nat.le_refl _
  | answered merged fetchMs result =>
      rw [List.map_singleton, List.sum_singleton, carries_metisAnswer]
      exact Nat.le_refl _
  | push item arrives next number _ =>
      have ended : ∀ next : Stage, next = .scan ∨ next = .finished →
          numbered id next.unsent? = 0 := by
        rintro next (rfl | rfl) <;> rfl
      have counts : pushes id [.push item, .add .queueIn 1, .add .queueDepth 1, .addPermit] =
          if s.nextId = id then 1 else 0 := by
        rw [← number, ← numbered_some]
        rfl
      rw [single, counts, ended _ next, unsent_of_arrives arrives, numbered_none, sendable,
        sendable, unused_succ id s.nextId]
      dsimp only
      omega
  | @pop item rest top =>
      have taken : numbered id (Stage.popped item).unsent? = if item.id = id then 1 else 0 :=
        numbered_some id item
      have counts : pushes id [.add .queueDepth (-1)] = 0 := rfl
      have empty : numbered id Stage.pop.unsent? = 0 := rfl
      rw [single, taken, counts, empty, sendable, sendable, top, List.countP_cons]
      simp only [decide_eq_true_eq]
      omega
  | stale item | dropBuild item grant exit =>
      rw [single, pushes_drop]
      exact Nat.add_le_add_left (Nat.zero_le _) _
  | noGrpc item _ | refuseGrpc item _ _ =>
      rw [List.map_singleton, List.sum_singleton, carries_requeued]
      exact Nat.le_refl _
  | fresh item | grantRest item _ | refuseRest item _ | grantGrpc item _ _ =>
      rw [Stage.task, single, nothing, Nat.zero_add]
      exact Nat.le_refl _
  | built item grant =>
      have counts : pushes id [.add .calcDone 1] = 0 := rfl
      rw [single, counts, Nat.zero_add]
      exact Nat.le_refl _
  | send item grant =>
      have given : numbered id (Stage.send item grant).unsent? = if item.id = id then 1 else 0 :=
        numbered_some id item
      have sent : numbered id (Stage.sending item).unsent? = 0 := rfl
      have number : (started cfg s.now item grant).id = item.id := rfl
      rw [Stage.task, single, nothing, given, sent, sendable, sendable, List.countP_append,
        List.countP_singleton]
      simp only [decide_eq_true_eq, number]
      omega
  | _ => exact Nat.le_refl _

/-- The sends of a number and what may still be sent under it are one at most. -/
theorem sendable_le_one {cfg : Settings} {guard : Pool Shared Task → Nat × Choice → Prop}
    {p : Pool Shared Task} (id : Nat) (reached : (pipelineMachine cfg).Reach guard p) :
    p.total (sendable id) (carries id) ≤ 1 := by
  refine System.Reach.total_le ?_ ?_ reached
  · intro p task choice s' tasks _ ran
    rcases run_cases ran with ⟨action, rest, pending, rfl, rfl⟩ | ⟨pending, move⟩
    · rw [sendable_perform, List.map_singleton, List.sum_singleton, carries_mk, carries, pushes,
        pushes, pending, List.map_cons, List.sum_cons]
      omega
    · rw [carries, pending]
      exact (sendable_move move).trans (Nat.add_le_add_left (Nat.le_add_left _ _) _)
  · intro p given
    rcases given with ⟨now, store, -, rfl⟩
    rw [cfg.total_spawn now store rfl rfl rfl rfl]
    simp [sendable, unused, Settings.spawn]

end Number

theorem sends_nodup {cfg : Settings} {guard : Pool Shared Task → Nat × Choice → Prop}
    {p : Pool Shared Task} (reached : (pipelineMachine cfg).Reach guard p) :
    (p.shared.sends.map Send.id).Nodup := by
  rw [List.nodup_iff_count_le_one]
  intro id
  have bound := sendable_le_one id reached
  rw [Pool.total, sendable] at bound
  rw [List.count, List.countP_map]
  have same : p.shared.sends.countP ((· == id) ∘ Send.id) =
      p.shared.sends.countP (·.id = id) := List.countP_congr (by simp)
  omega

/-- Each pair and each item is counted where it is. -/
structure Conserved (p : Pool Shared Task) : Prop where
  pairs : p.shared.metrics .metisRespOk =
    p.shared.metrics .droppedMultiHop + p.shared.metrics .droppedMergeFail +
      p.shared.metrics .droppedNoServe + p.shared.metrics .swapIxFailed +
      p.shared.metrics .queueIn + callsInFlight p.tasks + p.shared.opps.length
  answers : p.shared.metrics .queueIn = p.shared.metrics .swapIxOk
  sources : p.shared.metrics .swapIxOk =
    p.shared.metrics .ixFromRam + p.shared.metrics .ixFromMetis
  items : p.shared.metrics .queueIn =
    p.shared.metrics .droppedStale + p.shared.metrics .txBuildFailed +
      p.shared.metrics .txTooLarge + p.shared.metrics .droppedAccountLocks +
      p.shared.metrics .jitoSent + p.shared.metrics .jitoSendFailed +
      p.shared.lifo.length + itemsHeld p.tasks

/-- **The funnel.** In any interleaving nothing is lost or counted twice between the
updates, and no item is sent twice, on whichever path. -/
theorem funnel_conserved {cfg : Settings} {p : Pool Shared Task}
    (reached : (pipelineMachine cfg).Reach Machine.anyStep p) :
    (Quiet p → Conserved p) ∧ (p.shared.sends.map Send.id).Nodup ∧
      ∀ e ∈ p.shared.sends, ∀ e' ∈ p.shared.sends, e.id = e'.id → e.path = e'.path := by
  refine ⟨fun quiet => ?_, sends_nodup reached, ?_⟩
  · have pairs := pairLedger_balanced.quiet_eq reached quiet
    have answers := answerLedger_balanced.quiet_eq reached quiet
    have sources := sourceLedger_balanced.quiet_eq reached quiet
    have items := itemLedger_balanced.quiet_eq reached quiet
    simp only [Weights.counted, pairLedger, answerLedger, sourceLedger, itemLedger,
      List.map_cons, List.map_nil, List.sum_cons, List.sum_nil] at pairs answers sources items
    constructor <;> omega
  · intro e member e' member' same
    rw [List.inj_on_of_nodup_map (sends_nodup reached) member member' same]

/-! A round trip of three hops where only direct routes are asked for. -/

def twoWorkers : Settings where
  codec := Base64.standard
  tokenMints := ["EPjFWdd5AufqSSqeM2qN1xzybapC8G4wEGkZwyTDt1v"]
  minProfitLamports := 6600
  serveRoute := true
  saveNew := true
  serveFromMetis := true
  queueMaxAgeMs := 150
  jitoMaxPerSecond := 5
  grpcMaxPerSecond := some 5
  workerCount := 2

/-- A quote through the given pools. -/
def poolQuote (inputMint outputMint outAmount : String) (pools : List String) :
    QuoteResponse where
  inputMint := inputMint
  inAmount := "1000000"
  outputMint := outputMint
  outAmount := outAmount
  otherAmountThreshold := outAmount
  swapMode := "ExactIn"
  priceImpactPct := "0"
  routePlan := .array (pools.map fun pool =>
    .object [("swapInfo", .object [("ammKey", .string pool)])])
  contextSlot := none
  instructionVersion := none
  extra := []

/-- The answers to the two requests of a round trip that pays. -/
def roundTrip (there back : List String) : GetQuote := fun inputMint outputMint _ _ =>
  if inputMint = wsolMint then some (poolQuote inputMint outputMint "150" there)
  else some (poolQuote inputMint outputMint "1010000" back)

def checkAndDrop : List (Nat × Choice) :=
  [(1, .check "EPjFWdd5AufqSSqeM2qN1xzybapC8G4wEGkZwyTDt1v" 1000000 true), (1, .go), (1, .go),
    (1, .quoted (roundTrip ["poolA", "poolB"] ["poolC"]))] ++ List.replicate 5 (1, .go) ++
    [(3, .opp 0), (3, .go), (3, .go)]

theorem funnel_conserved_threeHops :
    ∃ p, (pipeline twoWorkers).exec Machine.anyStep (twoWorkers.spawn oneSecond .new) checkAndDrop = some p ∧
      Conserved p ∧ p.shared.metrics .droppedMultiHop = 1 ∧ (p.shared.sends.map Send.id).Nodup := by
  have ended : ((pipeline twoWorkers).exec Machine.anyStep (twoWorkers.spawn oneSecond .new) checkAndDrop).any
      (fun p => Quiet p ∧ p.shared.metrics .droppedMultiHop = 1) := by decide
  rcases (Option.any_eq_true _ _).mp ended with ⟨p, played, quiet⟩
  rw [decide_eq_true_eq] at quiet
  have spawned : Spawned twoWorkers (twoWorkers.spawn oneSecond .new) :=
    ⟨oneSecond, .new, Nat.le_refl _, rfl⟩
  have reached : (pipelineMachine twoWorkers).Reach Machine.anyStep p :=
    System.exec_reach (.ofStart spawned) played
  have conserved := funnel_conserved reached
  exact ⟨p, played, conserved.1 quiet.1, quiet.2, conserved.2.1⟩

end ArbBot
