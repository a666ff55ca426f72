import ArbBot.Pipeline.Slots

/-!
# The columns of the report

`funnel_conserved` accounts for the pairs and the items. The columns here break its counters
down further, or run beside them: the four causes of a failed `/swap-instructions`, the two
sources of an instruction, the total of all drops, the sends and the depth of the queue. A
`Column` is a ledger with one law for each block of updates that a task makes together.
-/

namespace ArbBot

open Foundation

/-! ## Ledgers of blocks -/

structure Column where
  counters : List (Counter × Int)
  /-- A queued item. -/
  queued : Int
  /-- A transaction that is built and whose send has not ended. -/
  sending : Int

/-- The counters for the causes of a failed `/swap-instructions`. -/
def swapIxCauses : List Counter := [.swapIxTimeout, .swapIxHttp, .swapIxNetwork, .swapIxParse]

namespace Column

/-- The column as weights that hold neither pairs nor calls. -/
def weights (col : Column) : Weights where
  counters := col.counters
  pair := 0
  call := 0
  item := col.queued

def coeff (col : Column) (counter : Counter) : Int := col.weights.coeff counter

def stage (col : Column) : Stage → Int
  | .send _ _ | .sending _ => col.sending
  | _ => 0

def owed (col : Column) (task : Task) : Int :=
  col.weights.book task.pending + col.stage task.stage

/-- Each block of updates books nothing in total. -/
structure Settles (col : Column) : Prop where
  silent : ∀ counter ∈ ([.metisReqSent, .metisRespTotal, .metisRespOk, .droppedSamePool,
    .hopTemplateAllHit, .hopTemplateMissing, .queueIn, .rateRequeued, .metisFetchMsTotal] :
      List Counter), col.coeff counter = 0
  fromRam : col.coeff .routeTemplateHit + col.coeff .ixFromRam + col.coeff .swapIxOk = 0
  fromMetis : col.coeff .metisFetchSamples + col.coeff .swapIxOk + col.coeff .ixFromMetis = 0
  failed : ∀ cause ∈ swapIxCauses,
    col.coeff .swapIxFailed + col.coeff .txDropped + col.coeff cause = 0
  dropped : ∀ exit ∈ pairExits ++ itemExits, col.coeff exit + col.coeff .txDropped = 0
  queue : col.queued + col.coeff .queueDepth = 0
  built : col.coeff .calcDone + col.sending = 0
  sent : col.coeff .jitoSent = col.sending
  sendFailed : col.coeff .jitoSendFailed + col.coeff .txDropped = col.sending

section Laws

variable {col : Column}

@[simp] theorem pair_weights : col.weights.pair = 0 := rfl

@[simp] theorem item_weights : col.weights.item = col.queued := rfl

theorem book_add (counter : Counter) (n : Int) (rest : List Action) :
    col.weights.book (.add counter n :: rest) =
      col.coeff counter * n + col.weights.book rest := by
  rw [Weights.book, List.map_cons, List.sum_cons]
  rfl

theorem book_drop (counter : Counter) :
    col.weights.book (drop counter) = col.coeff counter + col.coeff .txDropped := by
  rw [drop, book_add, book_add, mul_one, mul_one]
  exact congrArg (_ + ·) (add_zero _)

theorem Settles.book_quoted (laws : col.Settles) (tokenMint : String)
    (outcome : QuoteOutcome) : col.weights.book (outcome.pending tokenMint) = 0 := by
  have total := laws.silent .metisRespTotal (by simp)
  have samePool := laws.silent .droppedSamePool (by simp)
  have respOk := laws.silent .metisRespOk (by simp)
  unfold coeff at total samePool respOk
  cases outcome <;>
    simp [QuoteOutcome.pending, Weights.book, Weights.booked, total, samePool, respOk]

theorem Settles.owed_ramHit (laws : col.Settles) (merged : Merged) (sig : U128)
    (patched : SwapInstructionsResponse) : col.owed (ramHit merged sig patched) = 0 := by
  have fromRam := laws.fromRam
  rw [owed, ramHit, book_add, book_add, book_add]
  simp only [Weights.book, List.map_cons, List.map_nil, List.sum_cons, List.sum_nil,
    Weights.booked, stage]
  omega

theorem Settles.owed_metisAnswer (laws : col.Settles) (cfg : Settings) (merged : Merged)
    (fetchMs : Nat) (result : Except SwapIxError SwapInstructionsResponse) :
    col.owed (metisAnswer cfg merged fetchMs result) = 0 := by
  cases result with
  | error e =>
      have cause : e.counter ∈ swapIxCauses := by
        cases e <;> simp [SwapIxError.counter, swapIxCauses]
      have failed := laws.failed e.counter cause
      rw [owed, metisAnswer, Weights.book_append, book_drop, book_add]
      simp only [Weights.book, List.map_nil, List.sum_nil, stage]
      omega
  | ok swapIxs =>
      have total := laws.silent .metisFetchMsTotal (by simp)
      have fromMetis := laws.fromMetis
      have saved : col.weights.book (if cfg.saveNew then
          [.insertRoute merged swapIxs, .recordHops merged] else []) = 0 := by
        split <;> rfl
      rw [owed, metisAnswer, Weights.book_append, saved, book_add, book_add, book_add, book_add,
        total]
      simp only [Weights.book, List.map_nil, List.sum_nil, stage]
      omega

theorem Settles.book_scan (laws : col.Settles) {counters : List (Counter × Int)}
    (scan : ∀ e ∈ counters, e.1 ∈ scanCounters) :
    col.weights.book (counters.map fun e => .add e.1 e.2) = 0 := by
  induction counters with
  | nil => rfl
  | cons e rest ih =>
      obtain ⟨first, later⟩ := List.forall_mem_cons.mp scan
      have silent : col.coeff e.1 = 0 := by
        apply laws.silent
        simp only [scanCounters, List.mem_cons, List.not_mem_nil, or_false] at first
        rcases first with same | same | same <;> simp [same]
      rw [List.map_cons, book_add, ih later, silent, zero_mul, zero_add]

theorem Settles.book_push (laws : col.Settles) (item : ReadyInstruction) :
    col.weights.book [.push item, .add .queueIn 1, .add .queueDepth 1, .addPermit] = 0 := by
  have queueIn := laws.silent .queueIn (by simp)
  have queue := laws.queue
  unfold coeff at queueIn queue
  simp only [Weights.book, List.map_cons, List.map_nil, List.sum_cons, List.sum_nil,
    Weights.booked, queueIn, item_weights]
  omega

theorem Settles.owed_requeued (laws : col.Settles) (item : ReadyInstruction) :
    col.owed (requeued item) = 0 := by
  have once := laws.silent .rateRequeued (by simp)
  have queue := laws.queue
  have first : col.weights.book (if item.waitedForSlot then [] else [.add .rateRequeued 1]) =
      0 := by
    split
    · rfl
    · rw [book_add, once, zero_mul, zero_add]
      rfl
  unfold coeff at queue
  rw [owed, requeued, Weights.book_append, first]
  simp only [Weights.book, List.map_cons, List.map_nil, List.sum_cons, List.sum_nil,
    Weights.booked, stage, item_weights]
  omega

theorem stage_of_holdsPair (col : Column) {stage : Stage} (holds : stage.holdsPair) :
    col.stage stage = 0 := by
  cases stage <;> first | rfl | cases holds

theorem stage_of_arrives (col : Column) {stage : Stage} (arrives : stage.arrives) :
    col.stage stage = 0 := by
  cases stage <;> first | rfl | cases arrives

/-- **One decision** leaves the total alone. -/
theorem Settles.settled {cfg : Settings} {s s' : Shared} {stage : Stage} {tasks : List Task}
    (laws : col.Settles) (move : Move cfg s stage s' tasks) :
    col.weights.value s' + (tasks.map col.owed).sum = col.weights.value s + col.stage stage := by
  have reqSent := laws.silent .metisReqSent (by simp)
  have queue := laws.queue
  have built := laws.built
  have sent := laws.sent
  have sendFailed := laws.sendFailed
  have singles : ∀ pending next, ([{ pending := pending, stage := next }].map col.owed).sum =
      col.weights.book pending + col.stage next := fun pending next => by
    rw [List.map_singleton, List.sum_singleton, owed]
  have nothing : col.weights.book [] = 0 := rfl
  have one : ∀ counter n, col.weights.book [.add counter n] = col.coeff counter * n :=
    fun counter n => by rw [book_add, nothing, add_zero]
  have pairs : ∀ i, col.weights.value { s with opps := s.opps.eraseIdx i } =
      col.weights.value s := fun i => by simp [Weights.value]
  cases move with
  | check tokenMint amount onlyDirect =>
      rw [List.map_cons, List.sum_cons, Stage.task, singles, owed, nothing, book_add, reqSent]
      simp only [Weights.book, List.map_cons, List.map_nil, List.sum_cons, List.sum_nil,
        Weights.booked, Column.stage]
      omega
  | quoted tokenMint amount onlyDirect outcome =>
      rw [singles, laws.book_quoted, zero_add]
      rfl
  | dropPair found exit =>
      rw [singles, book_drop, laws.dropped _ (List.mem_append_left _ exit), pairs]
      rfl
  | takePair merged found =>
      rw [Stage.task, singles, nothing, pairs]
      rfl
  | descend store counters holds next scan =>
      rw [singles, laws.book_scan scan, stage_of_holdsPair col holds, stage_of_holdsPair col next]
      rfl
  | ramHit store merged sig patched holds =>
      rw [List.map_singleton, List.sum_singleton, laws.owed_ramHit, stage_of_holdsPair col holds]
      rfl
  | noServe merged =>
      rw [singles, book_drop, laws.dropped _ (by simp [pairExits])]
      rfl
  | spawn merged =>
      rw [List.map_cons, List.sum_cons, Stage.task, singles, owed, nothing]
      rfl
  | answered merged fetchMs result =>
      rw [List.map_singleton, List.sum_singleton, laws.owed_metisAnswer]
      rfl
  | push item arrives next _ _ =>
      have ended : ∀ next, next = .scan ∨ next = .finished → col.stage next = 0 := by
        rintro next (rfl | rfl) <;> rfl
      rw [singles, laws.book_push, stage_of_arrives col arrives, ended _ next]
      rfl
  | @pop item rest top =>
      have length : (s.lifo.length : Int) = rest.length + 1 := by rw [top]; rfl
      have depth : col.coeff .queueDepth = -col.queued := by omega
      rw [singles, one, depth]
      simp only [Weights.value, Column.stage, length, item_weights]
      ring
  | stale item =>
      rw [singles, book_drop, laws.dropped _ (by simp [itemExits])]
      rfl
  | dropBuild item grant exit =>
      rw [singles, book_drop, laws.dropped _ (List.mem_append_right _ exit)]
      rfl
  | built item grant =>
      rw [singles, one, mul_one]
      simp only [Column.stage]
      omega
  | sent item =>
      rw [singles, one, mul_one, sent]
      simp only [Column.stage, add_zero]
  | sendFailed item =>
      rw [singles, book_drop, sendFailed]
      simp only [Column.stage, add_zero]
  | noGrpc item _ =>
      rw [List.map_singleton, List.sum_singleton, laws.owed_requeued]
      rfl
  | refuseGrpc item _ _ =>
      rw [List.map_singleton, List.sum_singleton, laws.owed_requeued]
      rfl
  | _ =>
      rw [Stage.task, singles, nothing, zero_add]
      rfl

end Laws

/-- **A column that settles.** -/
theorem Settles.total_eq {col : Column} (laws : col.Settles) {cfg : Settings}
    {guard : Pool Shared Task → Nat × Choice → Prop} {p : Pool Shared Task}
    (reached : (pipelineMachine cfg).Reach guard p) :
    p.total col.weights.value col.owed = 0 := by
  refine System.Reach.total_eq ?_ ?_ reached
  · intro s task choice s' tasks ran
    rcases run_cases ran with ⟨action, rest, pending, rfl, rfl⟩ | ⟨pending, move⟩
    · rw [Weights.value_perform, List.map_singleton, List.sum_singleton, owed, owed, pending,
        Weights.book, Weights.book, List.map_cons, List.sum_cons]
      ring
    · have nothing : col.weights.book [] = 0 := rfl
      rw [laws.settled move, owed, pending, nothing, zero_add]
  · intro p given
    rcases given with ⟨now, store, -, rfl⟩
    rw [cfg.total_spawn now store rfl rfl rfl rfl]
    simp [Weights.value, Weights.counted, Settings.spawn]

/-! ## The columns -/

def failures : Column where
  counters := [(.swapIxFailed, 1), (.swapIxTimeout, -1), (.swapIxHttp, -1), (.swapIxNetwork, -1),
    (.swapIxParse, -1)]
  queued := 0
  sending := 0

def ram : Column where
  counters := [(.ixFromRam, 1), (.routeTemplateHit, -1)]
  queued := 0
  sending := 0

def metis : Column where
  counters := [(.ixFromMetis, 1), (.metisFetchSamples, -1)]
  queued := 0
  sending := 0

/-- Every drop, of a pair, of an answer or of an item. -/
def drops : Column where
  counters := (.txDropped, 1) ::
    (pairExits ++ itemExits ++ [Counter.swapIxFailed, .jitoSendFailed]).map (·, -1)
  queued := 0
  sending := 0

def sends : Column where
  counters := [(.calcDone, 1), (.jitoSent, -1), (.jitoSendFailed, -1)]
  queued := 0
  sending := -1

def depth : Column where
  counters := [(.queueDepth, 1)]
  queued := -1
  sending := 0

theorem failures_settles : failures.Settles := by
  constructor <;> decide

theorem ram_settles : ram.Settles := by
  constructor <;> decide

theorem metis_settles : metis.Settles := by
  constructor <;> decide

theorem drops_settles : drops.Settles := by
  constructor <;> decide

theorem sends_settles : sends.Settles := by
  constructor <;> decide

theorem depth_settles : depth.Settles := by
  constructor <;> decide

end Column

/-- A transaction is built, and its send has not ended. -/
def Stage.isSend : Stage → Bool
  | .send _ _ | .sending _ => true
  | _ => false

/-- The columns of the report, with the sends in progress and the queue. -/
structure ColumnsAddUp (metrics : Counter → Int) (sends queued : Nat) : Prop where
  failures : metrics .swapIxFailed =
    metrics .swapIxTimeout + metrics .swapIxHttp + metrics .swapIxNetwork + metrics .swapIxParse
  ram : metrics .ixFromRam = metrics .routeTemplateHit
  metis : metrics .ixFromMetis = metrics .metisFetchSamples
  drops : metrics .txDropped =
    metrics .droppedMultiHop + metrics .droppedMergeFail + metrics .droppedNoServe +
      metrics .swapIxFailed + metrics .droppedStale + metrics .txBuildFailed +
      metrics .droppedAccountLocks + metrics .txTooLarge + metrics .jitoSendFailed
  sends : metrics .calcDone = metrics .jitoSent + metrics .jitoSendFailed + sends
  depth : metrics .queueDepth = queued

section Idle

variable {p : Pool Shared Task}

theorem Column.sum_owed_idle (col : Column) (tasks : List Task)
    (idle : ∀ task ∈ tasks, task.pending = []) :
    (tasks.map col.owed).sum = col.sending * tasks.countP (·.stage.isSend) := by
  induction tasks with
  | nil => simp
  | cons task rest ih =>
      obtain ⟨first, later⟩ := List.forall_mem_cons.mp idle
      have own : col.owed task = col.sending * (if task.stage.isSend then 1 else 0) := by
        rw [Column.owed, first]
        cases task.stage <;> simp [Column.stage, Stage.isSend, Weights.book]
      rw [List.map_cons, List.sum_cons, ih later, own, List.countP_cons]
      push_cast
      ring

theorem Column.Settles.idle_eq {col : Column} (laws : col.Settles) {cfg : Settings}
    {guard : Pool Shared Task → Nat × Choice → Prop}
    (reached : (pipelineMachine cfg).Reach guard p) (idle : ∀ task ∈ p.tasks, task.pending = []) :
    col.weights.counted p.shared.metrics + col.queued * p.shared.lifo.length +
      col.sending * p.tasks.countP (·.stage.isSend) = 0 := by
  have total := laws.total_eq reached
  rw [Pool.total, col.sum_owed_idle p.tasks idle, Weights.value, pair_weights, item_weights,
    zero_mul, add_zero] at total
  exact total

/-- **Every column adds up.** In any interleaving, whenever no task has an action pending: a
failed `/swap-instructions` has one of four causes, each instruction from RAM is a template hit
and each from Metis a timed fetch, every drop is counted once in the total, every built
transaction is sent, failed or still in its send, and the gauge is the length of the queue. -/
theorem columns_add_up {cfg : Settings}
    (reached : (pipelineMachine cfg).Reach Machine.anyStep p)
    (idle : ∀ task ∈ p.tasks, task.pending = []) :
    ColumnsAddUp p.shared.metrics (p.tasks.countP (·.stage.isSend)) p.shared.lifo.length := by
  have failures := Column.failures_settles.idle_eq reached idle
  have ram := Column.ram_settles.idle_eq reached idle
  have metis := Column.metis_settles.idle_eq reached idle
  have drops := Column.drops_settles.idle_eq reached idle
  have sends := Column.sends_settles.idle_eq reached idle
  have depth := Column.depth_settles.idle_eq reached idle
  simp only [Weights.counted, Column.weights, Column.failures, Column.ram, Column.metis,
    Column.drops, Column.sends, Column.depth, pairExits, itemExits, List.cons_append,
    List.nil_append, List.map_cons, List.map_nil, List.sum_cons, List.sum_nil]
    at failures ram metis drops sends depth
  constructor <;> omega

end Idle

/-- An instruction is answered, queued and built, and its transaction is being sent. -/
theorem columns_add_up_sending :
    ∃ p, (pipeline oneSlot).exec Machine.anyStep (oneSlot.spawn oneSecond .new)
        (arrival 1 ++ acquisition 5 ++ submission 5) = some p ∧
      p.tasks.countP (·.stage.isSend) = 1 ∧ ColumnsAddUp p.shared.metrics 1 0 := by
  have ended : ((pipeline oneSlot).exec Machine.anyStep (oneSlot.spawn oneSecond .new)
      (arrival 1 ++ acquisition 5 ++ submission 5)).any fun p =>
        (∀ task ∈ p.tasks, task.pending = []) ∧ p.tasks.countP (·.stage.isSend) = 1 ∧
          p.shared.lifo.length = 0 := by decide
  rcases (Option.any_eq_true _ _).mp ended with ⟨p, played, checked⟩
  obtain ⟨idle, one, empty⟩ := of_decide_eq_true checked
  have columns := columns_add_up (System.exec_reach (.ofStart spawned_oneSlot) played) idle
  rw [one, empty] at columns
  exact ⟨p, played, one, columns⟩

end ArbBot
