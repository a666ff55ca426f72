import ArbBot.Foundation.Simulation
import ArbBot.Pipeline.Slots

/-!
# The pipeline refines the store

Every access of the pipeline to the template store is one call of `storeMachine`. What is
proved of the calls of the store in any order thus holds in every interleaving of the tasks
(`pipeline_refines_store`).
-/

namespace ArbBot

open Foundation

/-! ## The call of a step -/

def Action.storeCall? : Action → Option StoreCall
  | .recordRouteHit sig => some (.recordRouteHit sig)
  | .insertRoute merged swapIxs =>
      some (.insertRoute merged.quote.routePlan swapIxs merged.amount)
  | .recordHops merged =>
      some (.recordHops merged.quote.routePlan merged.quote.contextSlot)
  | _ => none

def Stage.storeCall? (cfg : Settings) : Stage → Option StoreCall
  | .tier1 merged => if cfg.serveRoute then some (.getRoute merged.sig) else none
  | .tier2Route merged =>
      if cfg.serveRoute then some (.getRouteForHops merged.quote.routePlan) else none
  | _ => none

/-- The call the next step of a task makes. -/
def Task.storeCall? (cfg : Settings) (task : Task) : Option StoreCall :=
  match task.pending with
  | action :: _ => action.storeCall?
  | [] => task.stage.storeCall? cfg

/-- From a world with the first store, the call leads to one with the second store. -/
def Calls (codec : TextCodec) (call : Option StoreCall) (g g' : StoreInner) : Prop :=
  match call with
  | none => g' = g
  | some call => ∀ w : World, w.store = g → ∃ w', storeStep codec w call w' ∧ w'.store = g'

section Run

variable {cfg : Settings} {s s' : Shared} {stage : Stage} {choice : Choice} {task : Task}
  {tasks : List Task}

theorem calls_perform (cfg : Settings) (s : Shared) (action : Action) :
    Calls cfg.codec action.storeCall? s.store (perform cfg s action).store := by
  cases action with
  | recordRouteHit sig =>
      intro w same
      exact ⟨_, rfl, by rw [same]; rfl⟩
  | insertRoute merged swapIxs =>
      intro w same
      exact ⟨_, rfl, by rw [World.insertRoute, same]; rfl⟩
  | recordHops merged =>
      intro w same
      exact ⟨_, rfl, by rw [same]; rfl⟩
  | _ => rfl

theorem calls_of_quoteStep (decided : quoteStep cfg s stage choice = some (s', tasks)) :
    Calls cfg.codec (stage.storeCall? cfg) s.store s'.store := by
  unfold quoteStep at decided
  split at decided <;> cases decided <;> rfl

/-- A lookup leaves the store it found. -/
theorem store_of_serve {merged : Merged} {sig : RouteTemplate → U128} {otherwise : Stage}
    {found : Option RouteTemplate × StoreInner}
    (decided : serve cfg s merged sig otherwise found = some (s', tasks)) :
    s'.store = found.2 := by
  unfold serve at decided
  split at decided
  · cases decided
    rfl
  · split at decided
    · cases decided
    · cases decided
      rfl
    · cases decided
      rfl

theorem calls_of_scanStep (decided : scanStep cfg s stage choice = some (s', tasks)) :
    Calls cfg.codec (stage.storeCall? cfg) s.store s'.store := by
  unfold scanStep at decided
  split at decided
  · split at decided
    · cases decided
    · cases decided
      rfl
  · split at decided
    · rename_i enabled
      rw [Stage.storeCall?, if_pos enabled]
      rintro w same
      exact ⟨_, rfl, by rw [store_of_serve decided, same]⟩
    · rename_i disabled
      cases decided
      rw [Stage.storeCall?, if_neg disabled]
      rfl
  · dsimp only at decided
    split at decided
    · cases decided
      rfl
    · split at decided
      · cases decided
        rfl
      · cases decided
        rfl
  · split at decided
    · rename_i enabled
      rw [Stage.storeCall?, if_pos enabled]
      rintro w same
      exact ⟨_, rfl, by rw [store_of_serve decided, same]⟩
    · rename_i disabled
      cases decided
      rw [Stage.storeCall?, if_neg disabled]
      rfl
  · split at decided <;> cases decided <;> rfl
  · cases decided
    rfl
  · cases decided
    rfl
  · cases decided

theorem calls_of_metisStep (decided : metisStep cfg s stage choice = some (s', tasks)) :
    Calls cfg.codec (stage.storeCall? cfg) s.store s'.store := by
  unfold metisStep at decided
  split at decided <;> cases decided <;> rfl

theorem store_of_tryLimiter {limiter : RateLimiter} {path : Path}
    {update : RateLimiter → Shared → Shared} {item : ReadyInstruction} {otherwise : Task}
    (updated : ∀ limiter s, (update limiter s).store = s.store)
    (decided : tryLimiter s limiter path update item otherwise = some (s', tasks)) :
    s'.store = s.store := by
  rcases tryLimiter_cases decided with ⟨limiter', -, rfl, -⟩ | ⟨limiter', -, rfl, -⟩
  · exact updated _ _
  · exact updated _ _

theorem calls_of_workerStep (decided : workerStep cfg s stage choice = some (s', tasks)) :
    Calls cfg.codec (stage.storeCall? cfg) s.store s'.store := by
  unfold workerStep at decided
  split at decided
  · split at decided <;> cases decided
    rfl
  · split at decided <;> cases decided <;> rfl
  · split at decided <;> cases decided <;> rfl
  · refine store_of_tryLimiter ?_ decided
    exact fun _ _ => rfl
  · split at decided
    · cases decided
      rfl
    · refine store_of_tryLimiter ?_ decided
      exact fun _ _ => rfl
  · cases decided
    rfl
  · cases decided
    rfl
  · cases decided
    rfl
  · split at decided <;> cases decided <;> rfl
  · cases decided

/-- **A step of a task makes its call**, or leaves the store as it is. -/
theorem calls_of_run (ran : (pipeline cfg).run s task choice = some (s', tasks)) :
    Calls cfg.codec (task.storeCall? cfg) s.store s'.store := by
  rcases task with ⟨pending, stage⟩
  cases pending with
  | cons action rest =>
      cases ran
      exact calls_perform cfg s action
  | nil =>
      have decided : decideStage cfg s stage choice = some (s', tasks) := ran
      show Calls cfg.codec (stage.storeCall? cfg) s.store s'.store
      unfold decideStage at decided
      split at decided
      · split at decided <;> cases decided
        rfl
      all_goals
        first
        | exact calls_of_quoteStep decided
        | exact calls_of_scanStep decided
        | exact calls_of_metisStep decided
        | exact calls_of_workerStep decided
        | cases decided

end Run

/-! ## Runs -/

/-- The call that a step of the pool makes. -/
def callOf (cfg : Settings) (entry : Machine.Entry (Pool Shared Task) (Nat × Choice)) :
    Option StoreCall :=
  entry.before.tasks[entry.label.1]?.bind (Task.storeCall? cfg)

theorem matches_store (cfg : Settings) :
    Machine.Matches (pipelineMachine cfg) (storeMachine cfg.codec)
      (fun p w => p.shared.store = w.store) (callOf cfg) (fun entry => some entry.label) := by
  rintro p ⟨i, choice⟩ p' w related taken
  rcases System.next_eq_some_iff.mp taken with ⟨task, shared, tasks, found, ran, rfl⟩
  have heard : ∀ after, callOf cfg ⟨p, (i, choice), after⟩ = task.storeCall? cfg :=
    fun _ => congrArg (Option.bind · (Task.storeCall? cfg)) found
  have calls := calls_of_run ran
  rw [heard]
  cases call : task.storeCall? cfg with
  | none =>
      rw [call] at calls
      exact ⟨[], w, .nil w, Eq.trans calls related, rfl⟩
  | some call' =>
      rw [call] at calls
      rcases calls w related.symm with ⟨w', step, store⟩
      exact ⟨_, w', .snoc (.nil w) step, store.symm, rfl⟩

/-- **The pipeline refines the store.** Along every run of the pipeline over the store of a
world, `storeMachine` makes the calls of its tasks in their order, and ends with the same
store. -/
theorem pipeline_refines_store {cfg : Settings} {p p' : Pool Shared Task} {w : World}
    {steps : List (Machine.Entry (Pool Shared Task) (Nat × Choice))}
    (trace : (pipelineMachine cfg).Trace p steps p') (same : p.shared.store = w.store) :
    ∃ calls w', (storeMachine cfg.codec).Trace w calls w' ∧ p'.shared.store = w'.store ∧
      calls.map Machine.Entry.label = steps.filterMap (callOf cfg) := by
  rcases trace.matched (matches_store cfg) same with ⟨calls, w', made, store, heard⟩
  refine ⟨calls, w', made, store, ?_⟩
  rw [← heard, List.filterMap_eq_map']

/-- The opportunity of a round trip through two pools. -/
def poolsMerged : Merged where
  quote := poolQuote wsolMint wsolMint "1006600" ["poolA", "poolB"]
  hopCount := 2
  amount := 1000000

/-- A Metis task that saves its answer. -/
def savingPool : Pool Shared Task where
  shared := (twoWorkers.spawn oneSecond .new).shared
  tasks := [{
    pending := [.insertRoute poolsMerged tableSwap, .recordHops poolsMerged]
    stage := .answered tableSwap 2 }]

theorem pipeline_refines_store_saving : ∃ (p : Pool Shared Task) (w' : World)
    (calls : List (Machine.Entry World StoreCall)),
    (storeMachine Base64.standard).Trace .initial calls w' ∧ p.shared.store = w'.store ∧
      calls.map Machine.Entry.label =
        [.insertRoute poolsMerged.quote.routePlan tableSwap 1000000,
          .recordHops poolsMerged.quote.routePlan none] := by
  have trace := ((Machine.Trace.nil (M := pipelineMachine twoWorkers) savingPool).snoc
    (i := (0, .go)) rfl).snoc (i := (0, .go)) rfl
  rcases pipeline_refines_store (w := .initial) trace rfl with ⟨calls, w', made, store, labels⟩
  exact ⟨_, w', calls, made, store, labels⟩

end ArbBot
