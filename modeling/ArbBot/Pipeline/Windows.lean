import ArbBot.Pipeline.Columns
import ArbBot.TokenMetrics.Reporter

/-!
# The windows of the report

Every 30 seconds the reporter takes the counters one by one with `swap(0)` while the pipeline
goes on updating them, and prints what it took. No decision of the pipeline reads a counter,
so the pipeline with a reporter is the pipeline without one, up to what was taken:
`windows_refine` says that the printed windows, the window in progress and the counters add up
to the counters of a pipeline that is never reported.

`dropped_busy` is left out: the pipeline never updates it and it is not printed.
-/

namespace ArbBot

open Foundation

/-! ## No decision reads a counter -/

/-- The state with other counts on top. -/
def Shared.shift (s : Shared) (more : Counter → Int) : Shared :=
  { s with metrics := fun counter => s.metrics counter + more counter }

/-- A step's outcome, with the same counts on top. -/
def shifted (more : Counter → Int) (after : Shared × List Task) : Shared × List Task :=
  (after.1.shift more, after.2)

section Shift

variable {cfg : Settings} {s : Shared} {stage : Stage} {choice : Choice} (more : Counter → Int)

theorem perform_shift (action : Action) :
    perform cfg (s.shift more) action = (perform cfg s action).shift more := by
  cases action with
  | add counter n =>
      simp only [perform, Shared.shift]
      congr 1
      funext c
      by_cases same : c = counter
      · subst same
        simp only [Function.update_self]
        ring
      · simp only [Function.update_of_ne same]
  | _ => rfl

/-- A count may go on top of the others. -/
theorem shift_update (s : Shared) (counter : Counter) :
    { s with metrics := Function.update s.metrics counter 0 }.shift
      (Function.update more counter (more counter + s.metrics counter)) = s.shift more := by
  unfold Shared.shift
  congr 1
  funext c
  by_cases own : c = counter
  · subst own
    simp only [Function.update_self]
    ring
  · simp only [Function.update_of_ne own]

theorem quoteStep_shift : quoteStep cfg (s.shift more) stage choice =
    (quoteStep cfg s stage choice).map (shifted more) := by
  unfold quoteStep
  split <;> rfl

theorem serve_shift (merged : Merged) (sig : RouteTemplate → U128) (otherwise : Stage)
    (found : Option RouteTemplate × StoreInner) :
    serve cfg (s.shift more) merged sig otherwise found =
      (serve cfg s merged sig otherwise found).map (shifted more) := by
  unfold serve
  split
  · rfl
  · split <;> rfl

theorem scanStep_shift : scanStep cfg (s.shift more) stage choice =
    (scanStep cfg s stage choice).map (shifted more) := by
  have store : (s.shift more).store = s.store := rfl
  have opps : (s.shift more).opps = s.opps := rfl
  unfold scanStep
  split
  · rw [opps]
    split <;> rfl
  · rw [store, serve_shift]
    split <;> rfl
  · rw [store]
    dsimp only
    split
    · rfl
    · split <;> rfl
  · rw [store, serve_shift]
    split <;> rfl
  · split <;> rfl
  · rfl
  · rfl
  · rfl

theorem metisStep_shift : metisStep cfg (s.shift more) stage choice =
    (metisStep cfg s stage choice).map (shifted more) := by
  unfold metisStep
  split <;> rfl

theorem tryLimiter_shift (limiter : RateLimiter) (path : Path)
    (update : RateLimiter → Shared → Shared) (item : ReadyInstruction) (otherwise : Task)
    (commutes : ∀ limiter s, update limiter (Shared.shift s more) = (update limiter s).shift more) :
    tryLimiter (s.shift more) limiter path update item otherwise =
      (tryLimiter s limiter path update item otherwise).map (shifted more) := by
  have now : (s.shift more).now = s.now := rfl
  unfold tryLimiter
  rw [now]
  split
  · rfl
  · rename_i limiter' acquired
    let after := { s with grants := Function.update s.grants path (s.grants path ++ [s.now]) }
    have same : update limiter' (after.shift more) = (update limiter' after).shift more :=
      commutes limiter' after
    exact congrArg some (Prod.ext same rfl)
  · rename_i limiter' refused
    exact congrArg some (Prod.ext (commutes limiter' s) rfl)

theorem workerStep_shift : workerStep cfg (s.shift more) stage choice =
    (workerStep cfg s stage choice).map (shifted more) := by
  have lifo : (s.shift more).lifo = s.lifo := rfl
  have sem : (s.shift more).lifoSem = s.lifoSem := rfl
  have now : (s.shift more).now = s.now := rfl
  have grpc : (s.shift more).jitoGrpcLimiter = s.jitoGrpcLimiter := rfl
  unfold workerStep
  split
  · rw [sem]
    split <;> rfl
  · rw [lifo]
    split <;> rfl
  · rw [now]
    split <;> rfl
  · exact tryLimiter_shift more _ _ _ _ _ fun _ _ => rfl
  · rw [grpc]
    split
    · rfl
    · exact tryLimiter_shift more _ _ _ _ _ fun _ _ => rfl
  · rfl
  · rfl
  · rfl
  · split <;> rfl
  · rfl

theorem decideStage_shift : decideStage cfg (s.shift more) stage choice =
    (decideStage cfg s stage choice).map (shifted more) := by
  unfold decideStage
  split
  · split <;> rfl
  · exact quoteStep_shift more
  · exact quoteStep_shift more
  all_goals
    first
    | exact scanStep_shift more
    | exact metisStep_shift more
    | exact workerStep_shift more
    | rfl

/-- **Counters decide nothing.** -/
theorem run_shift (task : Task) : (pipeline cfg).run (s.shift more) task choice =
    ((pipeline cfg).run s task choice).map (shifted more) := by
  simp only [pipeline]
  split
  · rw [perform_shift]
    rfl
  · exact decideStage_shift more

theorem next_shift {p p' : Pool Shared Task} {i : Nat}
    (taken : (pipeline cfg).next p i choice = some p') :
    (pipeline cfg).next { p with shared := p.shared.shift more } i choice =
      some { p' with shared := p'.shared.shift more } := by
  rcases System.next_eq_some_iff.mp taken with ⟨task, shared, tasks, found, ran, rfl⟩
  refine System.next_eq_some_iff.mpr ⟨task, shared.shift more, tasks, found, ?_, rfl⟩
  rw [run_shift, ran]
  rfl

end Shift

/-! ## The reporter -/

/-- One access of the reporter. -/
inductive Reading where
  | swap (counter : Counter)
  | depth
  | routes
  | patchable
  | hops
  deriving DecidableEq, Repr

/-- The accesses of a window, in their order. -/
def readings : List Reading :=
  [.swap .metisReqSent, .swap .metisRespTotal, .swap .metisRespOk, .swap .swapIxOk,
    .swap .ixFromRam, .swap .ixFromMetis, .swap .routeTemplateHit, .swap .hopTemplateAllHit,
    .swap .hopTemplateMissing, .swap .swapIxFailed, .swap .swapIxTimeout, .swap .swapIxHttp,
    .swap .swapIxNetwork, .swap .swapIxParse, .swap .queueIn, .swap .droppedStale,
    .swap .txBuildFailed, .swap .txTooLarge, .swap .droppedAccountLocks, .swap .calcDone,
    .swap .rateRequeued, .swap .jitoSendFailed, .swap .jitoSent, .swap .metisFetchMsTotal,
    .swap .metisFetchSamples, .depth, .swap .txDropped, .swap .droppedMultiHop,
    .swap .droppedMergeFail, .swap .droppedNoServe, .swap .droppedSamePool, .routes, .patchable,
    .hops]

/-- The values of a window. `tx_dropped` is taken and not printed. -/
structure Window where
  counts : Counter → UInt64
  depthNow : Int
  nRoutes : Nat
  nPatch : Nat
  nHops : Nat

namespace Window

def empty : Window where
  counts := fun _ => 0
  depthNow := 0
  nRoutes := 0
  nPatch := 0
  nHops := 0

end Window

inductive WindowStage where
  /-- Before `interval.tick()`. -/
  | waiting
  /-- A window, zero in the counters that are still to be taken. -/
  | reading (window : Window) (todo : List Reading)

/-- The pipeline with the reporter. -/
structure Windowed where
  pool : Pool Shared Task
  stage : WindowStage
  printed : List Window

inductive WindowLabel where
  | task (i : Nat) (choice : Choice)
  /-- The reporter goes on. -/
  | report

namespace Windowed

def metrics (w : Windowed) : Counter → Int := w.pool.shared.metrics

/-- The next access. -/
def read (w : Windowed) (window : Window) (reading : Reading) (todo : List Reading) : Windowed :=
  let s := w.pool.shared
  match reading with
  | .swap counter =>
      { w with
        pool := { w.pool with shared := { s with metrics := Function.update s.metrics counter 0 } }
        stage := .reading
          { window with
            counts := Function.update window.counts counter (UInt64.ofInt (s.metrics counter)) }
          todo }
  | .depth =>
      { w with stage := .reading { window with depthNow := s.metrics .queueDepth } todo }
  | .routes => { w with stage := .reading { window with nRoutes := s.store.routeCount } todo }
  | .patchable =>
      { w with stage := .reading { window with nPatch := s.store.patchableRouteCount } todo }
  | .hops => { w with stage := .reading { window with nHops := s.store.hopCount } todo }

def step (cfg : Settings) (w : Windowed) : WindowLabel → Option Windowed
  | .task i choice => ((pipeline cfg).next w.pool i choice).map fun pool => { w with pool := pool }
  | .report =>
      match w.stage with
      | .waiting => some { w with stage := .reading .empty readings }
      | .reading window [] => some { w with stage := .waiting, printed := w.printed ++ [window] }
      | .reading window (reading :: todo) => some (w.read window reading todo)

end Windowed

/-- The pipeline and the reporter at their start. -/
def Settings.window (cfg : Settings) (now : Nat) (store : StoreInner) : Windowed where
  pool := cfg.spawn now store
  stage := .waiting
  printed := []

/-- Any interleaving of the pipeline with the reporter. -/
def windowMachine (cfg : Settings) : Machine Windowed WindowLabel :=
  .ofFun (fun w => ∃ now store, oneSecond ≤ now ∧ w = cfg.window now store) (Windowed.step cfg)

/-! ## Updates add -/

/-- An update of a counter adds; the depth of the queue is a gauge. -/
def Action.Raises : Action → Prop
  | .add counter n => counter ≠ .queueDepth → 0 ≤ n
  | _ => True

def Task.Raises (task : Task) : Prop := ∀ action ∈ task.pending, action.Raises

section Raises

variable {cfg : Settings} {s s' : Shared} {stage : Stage} {choice : Choice} {task : Task}
  {tasks : List Task}

theorem raises_task (stage : Stage) : stage.task.Raises :=
  fun _ member => absurd member List.not_mem_nil

theorem raises_of_serve {merged : Merged} {sig : RouteTemplate → U128} {otherwise : Stage}
    {found : Option RouteTemplate × StoreInner}
    (decided : serve cfg s merged sig otherwise found = some (s', tasks)) :
    ∀ t ∈ tasks, t.Raises := by
  unfold serve at decided
  split at decided
  · cases decided
    exact List.forall_mem_singleton.mpr (raises_task otherwise)
  · split at decided
    · cases decided
    · cases decided
      exact List.forall_mem_singleton.mpr (raises_task otherwise)
    · cases decided
      simp [Task.Raises, ramHit, Action.Raises]

theorem raises_drop (counter : Counter) (stage : Stage) :
    ({ pending := drop counter, stage := stage } : Task).Raises := by
  simp [Task.Raises, drop, Action.Raises]

theorem raises_of_scanStep (decided : scanStep cfg s stage choice = some (s', tasks)) :
    ∀ t ∈ tasks, t.Raises := by
  unfold scanStep at decided
  split at decided
  · split at decided
    · cases decided
    · rename_i pair found
      cases decided
      refine List.forall_mem_singleton.mpr ?_
      rcases dispatch_cases pair with ⟨counter, -, same⟩ | ⟨merged, same⟩
      · rw [same]
        exact raises_drop counter .scan
      · rw [same]
        exact raises_task (.tier1 merged)
  · split at decided
    · exact raises_of_serve decided
    · cases decided
      exact List.forall_mem_singleton.mpr (raises_task _)
  · dsimp only at decided
    split at decided
    · cases decided
      simp [Task.Raises, Action.Raises]
    · split at decided
      · cases decided
        simp [Task.Raises, Action.Raises]
      · cases decided
        exact List.forall_mem_singleton.mpr (raises_task _)
  · split at decided
    · exact raises_of_serve decided
    · cases decided
      exact List.forall_mem_singleton.mpr (raises_task _)
  · split at decided
    · cases decided
      exact List.forall_mem_singleton.mpr (raises_drop _ _)
    · cases decided
      simp [Task.Raises, Action.Raises]
  · cases decided
    exact List.forall_mem_cons.mpr
      ⟨raises_task _, List.forall_mem_singleton.mpr (raises_task _)⟩
  · cases decided
    simp [Task.Raises, Action.Raises]
  · cases decided

theorem raises_of_move (move : Move cfg s stage s' tasks) (notScan : stage.holdsPair = false) :
    ∀ t ∈ tasks, t.Raises := by
  cases move with
  | quoted _ _ _ outcome =>
      cases outcome <;> simp [Task.Raises, QuoteOutcome.pending, Action.Raises]
  | descend store counters holds _ _ => exact absurd (holds.symm.trans notScan) (by decide)
  | ramHit store merged sig patched holds =>
      exact absurd (holds.symm.trans notScan) (by decide)
  | answered merged fetchMs result =>
      cases result with
      | error e => simp [Task.Raises, metisAnswer, drop, Action.Raises]
      | ok swapIxs =>
          cases saves : cfg.saveNew <;>
            simp [Task.Raises, metisAnswer, saves, Action.Raises]
  | noGrpc item _ | refuseGrpc item _ _ =>
      unfold requeued
      split <;> simp [Task.Raises, Action.Raises]
  | _ => simp [Task.Raises, Stage.task, drop, Action.Raises]

theorem raises_run (ran : (pipeline cfg).run s task choice = some (s', tasks))
    (own : task.Raises) : ∀ t ∈ tasks, t.Raises := by
  rcases run_cases ran with ⟨action, rest, pending, rfl, rfl⟩ | ⟨pending, move⟩
  · refine List.forall_mem_singleton.mpr ?_
    intro action' member
    exact own action' (pending ▸ List.mem_cons_of_mem _ member)
  · cases place : task.stage.holdsPair with
    | false => exact raises_of_move move place
    | true =>
        simp only [pipeline, pending] at ran
        cases at_ : task.stage <;> rw [at_] at place ran <;>
          first
          | exact raises_of_scanStep ran
          | cases place

/-- A step of the pipeline adds to the counters. -/
theorem metrics_run (ran : (pipeline cfg).run s task choice = some (s', tasks))
    (own : task.Raises) {counter : Counter} (noGauge : counter ≠ .queueDepth) :
    ∃ n, 0 ≤ n ∧ s'.metrics counter = s.metrics counter + n := by
  rcases run_cases ran with ⟨action, rest, pending, rfl, rfl⟩ | ⟨pending, move⟩
  · cases action with
    | add updated n =>
        by_cases same : counter = updated
        · subst same
          have adds := own (.add counter n) (pending ▸ List.mem_cons_self) noGauge
          exact ⟨n, adds, Function.update_self counter _ s.metrics⟩
        · refine ⟨0, le_refl 0, ?_⟩
          rw [add_zero]
          exact Function.update_of_ne same _ s.metrics
    | _ => exact ⟨0, le_refl 0, (add_zero _).symm⟩
  · refine ⟨0, le_refl 0, ?_⟩
    rw [(metrics_of_move move).1, add_zero]

end Raises

/-! ## Conservation -/

namespace Windowed

def sumOf (w : Windowed) (counter : Counter) : Nat :=
  (w.printed.map fun window => (window.counts counter).toNat).sum

/-- What is taken for the next window. -/
def collected (w : Windowed) (counter : Counter) : Nat :=
  match w.stage with
  | .waiting => 0
  | .reading window _ => (window.counts counter).toNat

/-- The pool that is never reported: what was taken is put back. -/
def whole (w : Windowed) (taken : Counter → Int) : Pool Shared Task :=
  { w.pool with shared := w.pool.shared.shift taken }

/-- A window holds nothing yet of the counters to be taken. -/
def Taking : WindowStage → Prop
  | .waiting => True
  | .reading window todo =>
      todo.Nodup ∧ ∀ counter, .swap counter ∈ todo →
        counter ≠ .queueDepth ∧ window.counts counter = 0

theorem taking_readings : Taking (.reading .empty readings) := by
  have distinct : readings.Nodup := by decide
  have noGauge : Reading.swap .queueDepth ∉ readings := by decide
  refine ⟨distinct, ?_⟩
  rintro counter member
  refine ⟨?_, rfl⟩
  rintro rfl
  exact noGauge member

structure Sound (cfg : Settings) (w : Windowed) : Prop where
  taking : Taking w.stage
  raises : ∀ task ∈ w.pool.tasks, task.Raises
  refines : ∃ taken, (pipelineMachine cfg).Reach Machine.anyStep (w.whole taken) ∧
    taken .queueDepth = 0 ∧ ∀ counter ≠ .queueDepth,
      Kept (w.sumOf counter) (w.collected counter) (w.metrics counter)
        (w.metrics counter + taken counter)

section Steps

variable {cfg : Settings} {w w' : Windowed}

theorem Sound.task (sound : w.Sound cfg) {i : Nat} {choice : Choice}
    (went : w.step cfg (.task i choice) = some w') : w'.Sound cfg := by
  simp only [step, Option.map_eq_some_iff] at went
  rcases went with ⟨pool, went, rfl⟩
  obtain ⟨taking, raises, taken, reached, gauge, kept⟩ := sound
  have again : (pipelineMachine cfg).step (w.whole taken) (i, choice)
      ({ w with pool := pool }.whole taken) := next_shift taken went
  rcases System.next_eq_some_iff.mp went with ⟨task, shared, tasks, found, ran, rfl⟩
  have own := raises task (List.mem_of_getElem? found)
  refine ⟨taking, ?_, taken, reached.step trivial again, gauge, ?_⟩
  · intro t member
    rw [List.mem_append, List.mem_append] at member
    rcases member with (earlier | new) | later
    · exact raises t (List.mem_of_mem_take earlier)
    · exact raises_run ran own t new
    · exact raises t (List.mem_of_mem_drop later)
  · intro counter noGauge
    obtain ⟨n, adds, raised⟩ := metrics_run ran own noGauge
    have after := (kept counter noGauge).add adds
    rw [add_right_comm] at after
    unfold metrics at after ⊢
    rw [← raised] at after
    exact after

/-- What is swapped out of a counter is taken. -/
theorem Sound.swap (sound : w.Sound cfg) {window : Window} {counter : Counter}
    {todo : List Reading} (atSwap : w.stage = .reading window (.swap counter :: todo)) :
    (w.read window (.swap counter) todo).Sound cfg := by
  obtain ⟨taking, raises, taken, reached, gauge, kept⟩ := sound
  rw [atSwap] at taking
  obtain ⟨distinct, rest⟩ := taking
  obtain ⟨noGauge, zero⟩ := rest counter List.mem_cons_self
  obtain ⟨fresh, distinct⟩ := List.nodup_cons.mp distinct
  refine ⟨⟨distinct, ?_⟩, raises,
    Function.update taken counter (taken counter + w.metrics counter), ?_, ?_, ?_⟩
  · intro c member
    have other : c ≠ counter := by
      rintro rfl
      exact fresh member
    obtain ⟨noGauge', zero'⟩ := rest c (List.mem_cons_of_mem _ member)
    exact ⟨noGauge', (Function.update_of_ne other _ _).trans zero'⟩
  · have same : (w.read window (.swap counter) todo).whole
        (Function.update taken counter (taken counter + w.metrics counter)) = w.whole taken :=
      congrArg (fun s => { w.pool with shared := s }) (shift_update taken w.pool.shared counter)
    rw [same]
    exact reached
  · rw [Function.update_of_ne noGauge.symm]
    exact gauge
  · intro c noGauge'
    have before := kept c noGauge'
    unfold collected at before
    rw [atSwap] at before
    by_cases own : c = counter
    · subst own
      dsimp only at before
      rw [zero] at before
      have after := before.swap
      simp only [collected, read, metrics, Function.update_self]
      rw [zero_add, add_comm (taken c)]
      exact after
    · simp only [collected, read, metrics, Function.update_of_ne own]
      exact before

theorem Sound.report (sound : w.Sound cfg) (went : w.step cfg .report = some w') :
    w'.Sound cfg := by
  simp only [step] at went
  split at went
  · rename_i waits
    cases went
    obtain ⟨taking, raises, taken, reached, gauge, kept⟩ := sound
    refine ⟨taking_readings, raises, taken, reached, gauge, ?_⟩
    intro counter noGauge
    have before := kept counter noGauge
    unfold collected at before ⊢
    rw [waits] at before
    exact before
  · rename_i window ends
    cases went
    obtain ⟨taking, raises, taken, reached, gauge, kept⟩ := sound
    refine ⟨trivial, raises, taken, reached, gauge, ?_⟩
    intro counter noGauge
    have before := kept counter noGauge
    unfold collected at before
    rw [ends] at before
    unfold sumOf
    rw [List.map_append, List.sum_append, List.map_singleton, List.sum_singleton]
    exact before.finish
  · rename_i window reading todo goesOn
    cases went
    cases reading with
    | swap counter => exact sound.swap goesOn
    | _ =>
        obtain ⟨taking, raises, taken, reached, gauge, kept⟩ := sound
        rw [goesOn] at taking
        refine ⟨⟨taking.1.of_cons, fun c member => taking.2 c (List.mem_cons_of_mem _ member)⟩,
          raises, taken, reached, gauge, ?_⟩
        intro counter noGauge
        have before := kept counter noGauge
        unfold collected at before
        rw [goesOn] at before
        exact before

theorem sound_start (cfg : Settings) {now : Nat} (store : StoreInner) (late : oneSecond ≤ now) :
    (cfg.window now store).Sound cfg where
  taking := trivial
  raises := cfg.forall_spawn now store (raises_task _) (raises_task _) (raises_task _)
    (raises_task _)
  refines := ⟨fun _ => 0, .ofStart ⟨now, store, late, rfl⟩, rfl,
    fun _ _ => ⟨le_refl 0, rfl, le_refl 0⟩⟩

end Steps

/-- The counts of a pipeline that is never reported. The depth of the queue is its own; of every
other counter the printed windows, the window in progress and what the counter holds make up the
count, exactly as long as a `u64` holds it. -/
structure Accounts (cfg : Settings) (w : Windowed) (total : Counter → Int) : Prop where
  reached : (pipelineMachine cfg).Reach Machine.anyStep
    { w.pool with shared := { w.pool.shared with metrics := total } }
  depth : total .queueDepth = w.metrics .queueDepth
  congruent : ∀ counter ≠ .queueDepth,
    (w.sumOf counter + w.collected counter + w.metrics counter) % 2 ^ 64 =
      total counter % 2 ^ 64
  exact : ∀ counter ≠ .queueDepth, total counter < 2 ^ 64 →
    w.sumOf counter + w.collected counter + w.metrics counter = total counter

end Windowed

/-- **Reporting loses nothing and disturbs nothing.** In every interleaving of the pipeline with
the reporter, the pool but for its counters is one that the pipeline reaches without a reporter,
and the counts it has there are accounted for. -/
theorem windows_refine {cfg : Settings} {w : Windowed}
    (reached : (windowMachine cfg).Reach Machine.anyStep w) : ∃ total, w.Accounts cfg total := by
  have sound : w.Sound cfg := by
    refine reached.invariant (Windowed.Sound cfg) ?_ ?_
    · rintro w ⟨now, store, late, rfl⟩
      exact Windowed.sound_start cfg store late
    · intro w label w' before _ went
      cases label with
      | task i choice => exact before.task went
      | report => exact before.report went
  obtain ⟨-, -, taken, reached, gauge, kept⟩ := sound
  refine ⟨fun counter => w.metrics counter + taken counter, reached, ?_,
    fun counter noGauge => (kept counter noGauge).congruent,
    fun counter noGauge => (kept counter noGauge).exact⟩
  rw [gauge, add_zero]

/-- A check, a window, and another check. -/
def aroundWindow : List WindowLabel :=
  let check i := [.task i (.check "SOL" 5 false), .task i .go]
  check 1 ++ List.replicate (readings.length + 2) .report ++ check 2

/-- The two requests of the first check are printed, those of the second are still counted. -/
theorem windows_refine_twoChecks :
    ∃ w : Windowed, w.sumOf .metisReqSent = 2 ∧ w.metrics .metisReqSent = 2 ∧
      ∃ total, w.Accounts oneSlot total := by
  have ended : (Machine.play (Windowed.step oneSlot) Machine.anyStep
      (oneSlot.window oneSecond .new) aroundWindow).any fun w =>
        w.sumOf .metisReqSent = 2 ∧ w.metrics .metisReqSent = 2 := by decide
  rcases (Option.any_eq_true _ _).mp ended with ⟨w, played, checked⟩
  obtain ⟨printed, counted⟩ := of_decide_eq_true checked
  have started : (windowMachine oneSlot).start (oneSlot.window oneSecond .new) :=
    ⟨oneSecond, .new, le_refl _, rfl⟩
  exact ⟨w, printed, counted, windows_refine (Machine.play_reach (.ofStart started) played)⟩

end ArbBot
