import ArbBot.Pipeline.Permits

/-!
# Progress

`work` is an upper bound on the steps that the pipeline still makes without new checks and
without refusals: each step lowers it, but for the start of a quote check and for a requeue
(`work_of_run`). So the steps of a run are bounded by its checks and its requeues.

The pipeline stops only at rest (`enabled_or_atRest`): nothing is pending, every pair and every
item has ended, and all workers wait for a permit. What else stops a task is the panic of
`serve_route`, which aborts the process.
-/

namespace ArbBot

open Foundation

/-! ## Remaining work -/

/-- An item in the queue, a permit, and a pair that is ready. -/
def Shared.work (s : Shared) : Int :=
  10 * s.lifo.length + 2 * s.lifoSem + 32 * s.opps.length

def Action.work : Action → Int
  | .push _ => 11
  | .addPermit => 3
  | .yieldPair _ => 33
  | _ => 1

/-- The longest way from the stage to the end of what it holds, refusals aside. -/
def Stage.work : Stage → Int
  | .quoteCheck _ _ _ => 38
  | .tier1 _ => 31
  | .tier2 _ => 30
  | .tier2Route _ => 28
  | .tier3 _ => 27
  | .spawn _ => 25
  | .metis _ => 24
  | .serving _ _ | .answered _ _ => 17
  | .popped _ => 9
  | .limit _ => 8
  | .limitGrpc _ => 7
  | .build _ _ => 6
  | .send _ _ => 4
  | .sending _ => 3
  | .sleep | .pop => 1
  | .clock | .quotes | .scan | .acquire | .finished => 0

def pendingWork (pending : List Action) : Int := (pending.map Action.work).sum

def Task.work (task : Task) : Int := pendingWork task.pending + task.stage.work

/-- Only time passes. -/
def Choice.isWait : Choice → Bool
  | .wait _ => true
  | _ => false

/-- A quote check starts. -/
def Choice.isCheck : Choice → Bool
  | .check _ _ _ => true
  | _ => false

/-- The second limiter refuses the item, or there is none. -/
def refuses (s : Shared) (task : Task) : Bool :=
  match task.pending, task.stage with
  | [], .limitGrpc _ =>
      match s.jitoGrpcLimiter with
      | none => true
      | some limiter => (limiter.tryAcquire s.now).any fun answer => !answer.1
  | _, _ => false

section Work

variable {cfg : Settings} {s s' : Shared} {stage : Stage} {tasks : List Task} {choice : Choice}
  {task : Task}

theorem pendingWork_cons (action : Action) (rest : List Action) :
    pendingWork (action :: rest) = action.work + pendingWork rest := List.sum_cons

theorem pendingWork_nil : pendingWork [] = 0 := rfl

theorem pendingWork_append (first second : List Action) :
    pendingWork (first ++ second) = pendingWork first + pendingWork second := by
  rw [pendingWork, List.map_append, List.sum_append, pendingWork, pendingWork]

theorem work_task (stage : Stage) : stage.task.work = stage.work := zero_add _

theorem pendingWork_drop (counter : Counter) : pendingWork (drop counter) = 2 := rfl

theorem pendingWork_push (item : ReadyInstruction) :
    pendingWork [.push item, .add .queueIn 1, .add .queueDepth 1, .addPermit] = 16 := rfl

theorem pendingWork_quoted (tokenMint : String) (outcome : QuoteOutcome) :
    pendingWork (outcome.pending tokenMint) ≤ 37 := by
  cases outcome <;> simp [QuoteOutcome.pending, pendingWork, Action.work]

theorem work_ramHit (merged : Merged) (sig : U128) (patched : SwapInstructionsResponse) :
    (ramHit merged sig patched).work = 21 := rfl

theorem work_metisAnswer (cfg : Settings) (merged : Merged) (fetchMs : Nat)
    (result : Except SwapIxError SwapInstructionsResponse) :
    (metisAnswer cfg merged fetchMs result).work ≤ 23 := by
  cases result with
  | error e => exact show (3 : Int) ≤ 23 by decide
  | ok swapIxs =>
      have saved : pendingWork (if cfg.saveNew then
          [.insertRoute merged swapIxs, .recordHops merged] else []) ≤ 2 := by
        split <;> simp [pendingWork, Action.work]
      rw [Task.work, metisAnswer, pendingWork_append]
      exact Int.add_le_add_right (Int.add_le_add_left saved 4) 17

theorem work_requeued (item : ReadyInstruction) : (requeued item).work ≤ 17 := by
  have waited : pendingWork (if item.waitedForSlot then [] else [.add .rateRequeued 1]) ≤ 1 := by
    split <;> decide
  rw [Task.work, requeued, pendingWork_append]
  exact Int.add_le_add_right (Int.add_le_add_right waited 15) 1

/-- An access moves its work to the shared state, but for one step. -/
theorem work_perform (cfg : Settings) (s : Shared) (action : Action) :
    (perform cfg s action).work + 1 = s.work + action.work := by
  cases action <;> simp only [perform, Shared.work, Action.work, List.length_cons,
    List.length_append, List.length_nil] <;> omega

/-- What is booked for a requeue. -/
def refusal (s : Shared) (task : Task) : Int := if refuses s task then 11 else 0

theorem refusal_nonneg (s : Shared) (task : Task) : 0 ≤ refusal s task := by
  unfold refusal
  split <;> decide

/-- A lookup of the scan loop serves, or goes on with less work. -/
theorem work_of_serve {merged : Merged} {sig : RouteTemplate → U128} {otherwise : Stage}
    {found : Option RouteTemplate × StoreInner} (less : otherwise.work < stage.work)
    (enough : 21 < stage.work)
    (decided : serve cfg s merged sig otherwise found = some (s', tasks)) :
    s'.work + (tasks.map Task.work).sum + 1 ≤ s.work + stage.work := by
  have same : ∀ store, Shared.work { s with store := store } = s.work := fun _ => rfl
  unfold serve at decided
  split at decided
  · cases decided
    rw [same, List.map_singleton, List.sum_singleton, work_task]
    omega
  · split at decided
    · cases decided
    · cases decided
      rw [same, List.map_singleton, List.sum_singleton, work_task]
      omega
    · cases decided
      rw [same, List.map_singleton, List.sum_singleton, work_ramHit]
      omega

theorem sum_work (pending : List Action) (stage : Stage) :
    ([({ pending := pending, stage := stage } : Task)].map Task.work).sum =
      pendingWork pending + stage.work := List.sum_singleton

/-- The scan loop with a pair. -/
theorem work_of_pair (holds : stage.holdsPair)
    (decided : decideStage cfg s stage choice = some (s', tasks)) :
    s'.work + (tasks.map Task.work).sum + 1 ≤ s.work + stage.work := by
  cases stage with
  | tier1 merged =>
      cases choice with
      | go =>
          simp only [decideStage, scanStep] at decided
          split at decided
          · refine work_of_serve ?_ ?_ decided
            · exact show (30 : Int) < 31 by decide
            · exact show (21 : Int) < 31 by decide
          · cases decided
            rw [List.map_singleton, List.sum_singleton, work_task, Stage.work, Stage.work]
            omega
      | _ => cases decided
  | tier2 merged =>
      cases choice with
      | go =>
          simp only [decideStage, scanStep] at decided
          split at decided
          · cases decided
            simp only [sum_work, pendingWork_cons, pendingWork_nil, Action.work, Stage.work]
            omega
          · split at decided
            · cases decided
              simp only [sum_work, pendingWork_cons, pendingWork_nil, Action.work, Stage.work]
              omega
            · cases decided
              rw [List.map_singleton, List.sum_singleton, work_task, Stage.work, Stage.work]
              omega
      | _ => cases decided
  | tier2Route merged =>
      cases choice with
      | go =>
          simp only [decideStage, scanStep] at decided
          split at decided
          · refine work_of_serve ?_ ?_ decided
            · exact show (27 : Int) < 28 by decide
            · exact show (21 : Int) < 28 by decide
          · cases decided
            rw [List.map_singleton, List.sum_singleton, work_task, Stage.work, Stage.work]
            omega
      | _ => cases decided
  | tier3 merged =>
      cases choice with
      | go =>
          simp only [decideStage, scanStep] at decided
          split at decided
          · cases decided
            rw [sum_work, pendingWork_drop, Stage.work, Stage.work]
            omega
          · cases decided
            simp only [sum_work, pendingWork_cons, pendingWork_nil, Action.work, Stage.work]
            omega
      | _ => cases decided
  | spawn merged =>
      cases choice with
      | go =>
          cases decided
          simp only [List.map_cons, List.map_nil, List.sum_cons, List.sum_nil, work_task,
            Stage.work]
          omega
      | _ => cases decided
  | _ => cases holds

theorem work_erase_opp {i : Nat} {pair : QuotePair} (found : s.opps[i]? = some pair) :
    Shared.work { s with opps := s.opps.eraseIdx i } = s.work - 32 := by
  have inside := (List.getElem?_eq_some_iff.mp found).1
  simp only [Shared.work, List.length_eraseIdx_of_lt inside]
  omega

theorem work_of_arrives (arrives : stage.arrives) : stage.work = 17 := by
  cases stage <;> first | rfl | cases arrives

/-- Any other stage. -/
theorem work_of_move (move : Move cfg s stage s' tasks) (noPair : stage.holdsPair = false)
    (noClock : stage ≠ .clock) (noQuotes : stage ≠ .quotes) (noAcquire : stage ≠ .acquire) :
    s'.work + (tasks.map Task.work).sum + 1 ≤ s.work + stage.work + refusal s stage.task := by
  have nonneg := refusal_nonneg s stage.task
  cases move with
  | wait _ => exact absurd rfl noClock
  | check _ _ _ => exact absurd rfl noQuotes
  | permit => exact absurd rfl noAcquire
  | descend _ _ holds _ _ => rw [holds] at noPair; cases noPair
  | ramHit _ _ _ _ holds => rw [holds] at noPair; cases noPair
  | noServe merged => cases noPair
  | spawn merged => cases noPair
  | quoted tokenMint amount onlyDirect outcome =>
      have bound := pendingWork_quoted tokenMint outcome
      simp only [sum_work, Stage.work]
      omega
  | dropPair found _ =>
      rw [work_erase_opp found, sum_work, pendingWork_drop]
      simp only [Stage.work]
      omega
  | takePair merged found =>
      rw [work_erase_opp found, List.map_singleton, List.sum_singleton, work_task]
      simp only [Stage.work]
      omega
  | answered merged fetchMs result =>
      have bound := work_metisAnswer cfg merged fetchMs result
      rw [List.map_singleton, List.sum_singleton, Stage.work]
      omega
  | push item arrives next _ _ =>
      have last : ∀ {next : Stage}, next = .scan ∨ next = .finished → next.work = 0 := by
        rintro _ (rfl | rfl) <;> rfl
      rw [sum_work, pendingWork_push, last next, work_of_arrives arrives]
      simp only [Shared.work]
      omega
  | @pop item rest top =>
      have length : (s.lifo.length : Int) = rest.length + 1 := by
        rw [top]
        rfl
      simp only [sum_work, pendingWork_cons, pendingWork_nil, Action.work, Stage.work,
        Shared.work]
      omega
  | noGrpc item absent =>
      have bound := work_requeued item
      have refused : refusal s (Stage.limitGrpc item).task = 11 := by
        simp [refusal, refuses, Stage.task, absent]
      rw [List.map_singleton, List.sum_singleton, refused, Stage.work]
      omega
  | @refuseGrpc item limiter limiter' present acquired =>
      have bound := work_requeued item
      have refused : refusal s (Stage.limitGrpc item).task = 11 := by
        simp [refusal, refuses, Stage.task, present, acquired]
      rw [List.map_singleton, List.sum_singleton, refused, Stage.work]
      simp only [Shared.work]
      omega
  | stale item => rw [sum_work, pendingWork_drop]; simp only [Stage.work]; omega
  | dropBuild item grant exit => rw [sum_work, pendingWork_drop]; simp only [Stage.work]; omega
  | sendFailed item => rw [sum_work, pendingWork_drop]; simp only [Stage.work]; omega
  | built item grant =>
      simp only [sum_work, pendingWork_cons, pendingWork_nil, Action.work, Stage.work]
      omega
  | sent item =>
      simp only [sum_work, pendingWork_cons, pendingWork_nil, Action.work, Stage.work]
      omega
  | _ =>
      simp only [List.map_singleton, List.sum_singleton, work_task, Stage.work, Shared.work] at *
      omega

/-- **One step** lowers the work, but for what is booked for a check or a requeue. -/
theorem work_of_run (ran : (pipeline cfg).run s task choice = some (s', tasks)) :
    s'.work + (tasks.map Task.work).sum + (if choice.isWait then 0 else 1) ≤
      s.work + task.work + ((if choice.isCheck then 41 else 0) + refusal s task) := by
  have nonneg := refusal_nonneg s task
  have step : (if choice.isWait then 0 else 1 : Int) ≤ 1 := by split <;> decide
  have check : (0 : Int) ≤ if choice.isCheck then 41 else 0 := by split <;> decide
  rcases task with ⟨pending, stage⟩
  cases pending with
  | cons action rest =>
      cases ran
      have moved := work_perform cfg s action
      simp only [sum_work, Task.work, pendingWork_cons]
      omega
  | nil =>
      have decided : decideStage cfg s stage choice = some (s', tasks) := ran
      rw [show Task.work { pending := [], stage := stage } = stage.work from work_task stage]
      by_cases clock : stage = .clock
      · subst clock
        cases choice with
        | wait nanoseconds =>
            cases decided
            simp only [List.map_singleton, List.sum_singleton, work_task, Shared.work,
              Choice.isWait, if_true]
            omega
        | _ => cases decided
      by_cases quotes : stage = .quotes
      · subst quotes
        cases choice with
        | check tokenMint amount onlyDirect =>
            cases decided
            rw [List.map_cons, List.sum_cons, List.map_singleton, List.sum_singleton, work_task]
            simp only [Task.work, pendingWork_cons, pendingWork_nil, Action.work, Stage.work,
              Choice.isWait, Choice.isCheck, if_true, Bool.false_eq_true, if_false]
            omega
        | _ => cases decided
      by_cases acquires : stage = .acquire
      · subst acquires
        rcases run_acquire ran with ⟨enough, rfl, rfl⟩
        simp only [List.map_singleton, List.sum_singleton, work_task, Stage.work, Shared.work]
        omega
      cases holds : stage.holdsPair with
      | true =>
          have less := work_of_pair holds decided
          omega
      | false =>
          have less := work_of_move (move_of_decide decided) holds clock quotes acquires
          rw [Stage.task] at less
          omega

end Work

/-! ## Bounded runs -/

section Runs

variable {cfg : Settings} {p p₀ : Pool Shared Task}
  {steps : List (Machine.Entry (Pool Shared Task) (Nat × Choice))}

/-- A step other than the passing of time. -/
def TaskStep (entry : Machine.Entry (Pool Shared Task) (Nat × Choice)) : Bool :=
  !entry.label.2.isWait

def CheckStep (entry : Machine.Entry (Pool Shared Task) (Nat × Choice)) : Bool :=
  entry.label.2.isCheck

def RequeueStep (entry : Machine.Entry (Pool Shared Task) (Nat × Choice)) : Bool :=
  (entry.before.tasks[entry.label.1]?).any (refuses entry.before.shared)

/-- What a step may add to the work and to the count of steps. -/
def bookedWork (entry : Machine.Entry (Pool Shared Task) (Nat × Choice)) : Int :=
  ((if CheckStep entry then 41 else 0) + if RequeueStep entry then 11 else 0) -
    if TaskStep entry then 1 else 0

theorem sum_bookedWork :
    (steps.map bookedWork).sum =
      41 * steps.countP CheckStep + 11 * steps.countP RequeueStep - steps.countP TaskStep := by
  induction steps with
  | nil => rfl
  | cons entry rest ih =>
      rw [List.map_cons, List.sum_cons, ih, List.countP_cons, List.countP_cons, List.countP_cons,
        bookedWork]
      push_cast
      split <;> split <;> split <;> omega

theorem pendingWork_nonneg (pending : List Action) : 0 ≤ pendingWork pending := by
  refine List.sum_nonneg ?_
  rintro n member
  rcases List.mem_map.mp member with ⟨action, -, rfl⟩
  cases action <;> simp [Action.work]

theorem Task.work_nonneg (task : Task) : 0 ≤ task.work := by
  refine Int.add_nonneg (pendingWork_nonneg _) ?_
  cases task.stage <;> simp [Stage.work]

theorem work_nonneg (p : Pool Shared Task) : 0 ≤ p.total Shared.work Task.work := by
  refine Int.add_nonneg ?_ (List.sum_nonneg ?_)
  · rw [Shared.work]
    omega
  · rintro n member
    rcases List.mem_map.mp member with ⟨task, -, rfl⟩
    exact task.work_nonneg

/-- **The steps are bounded.** A quote check leads to 41 steps at most, and a requeue to 11
more. -/
theorem steps_bounded (spawned : Spawned cfg p₀)
    (trace : (pipelineMachine cfg).Trace p₀ steps p) :
    steps.countP TaskStep ≤ 41 * steps.countP CheckStep + 11 * steps.countP RequeueStep := by
  have nothing : p₀.total Shared.work Task.work = 0 := by
    rcases spawned with ⟨now, store, -, rfl⟩
    exact cfg.total_spawn now store rfl rfl rfl rfl
  have bounded : p.total Shared.work Task.work ≤
      p₀.total Shared.work Task.work + (steps.map bookedWork).sum := by
    refine Machine.Trace.total_le trace ?_
    intro entry _ task s' new found ran
    have less := work_of_run ran
    have requeue : RequeueStep entry = refuses entry.before.shared task := by
      rw [RequeueStep, found, Option.any_some]
    have step : (if TaskStep entry then 1 else 0 : Int) =
        if entry.label.2.isWait then 0 else 1 := by
      rw [TaskStep]
      cases entry.label.2.isWait <;> rfl
    rw [bookedWork, requeue, step]
    rw [refusal] at less
    rw [CheckStep]
    omega
  have nonneg := work_nonneg p
  rw [nothing, sum_bookedWork] at bounded
  omega

end Runs

/-! ## Rest -/

/-- The scan loop waits for a pair, a worker for a permit; the others have nothing to do. -/
def Stage.Waits (s : Shared) : Stage → Prop
  | .scan => s.opps = []
  | .acquire => s.lifoSem = 0
  | .clock | .quotes | .finished => True
  | _ => False

instance (s : Shared) : (stage : Stage) → Decidable (stage.Waits s)
  | .scan => inferInstanceAs (Decidable (s.opps = []))
  | .acquire => inferInstanceAs (Decidable (s.lifoSem = 0))
  | .clock | .quotes | .finished => isTrue trivial
  | .quoteCheck _ _ _ | .tier1 _ | .tier2 _ | .tier2Route _ | .tier3 _ | .spawn _
  | .serving _ _ | .metis _ | .answered _ _ | .pop | .popped _ | .limit _ | .limitGrpc _
  | .sleep | .build _ _ | .send _ _ | .sending _ => isFalse id

/-- Every pair and every item has ended. -/
structure AtRest (p : Pool Shared Task) : Prop where
  pending : ∀ task ∈ p.tasks, task.pending = []
  waits : ∀ task ∈ p.tasks, task.stage.Waits p.shared
  opps : p.shared.opps = []
  lifo : p.shared.lifo = []
  lifoSem : p.shared.lifoSem = 0

/-- The template that was found panics in `serve_route`. -/
def ServePanics (cfg : Settings) (merged : Merged)
    (found : Option RouteTemplate × StoreInner) : Prop :=
  ∃ tmpl panic, found.1 = some tmpl ∧
    serveRoute cfg.codec tmpl merged.amount (onChainFloor merged.amount) = .error panic

/-- The scan loop is at a lookup whose template panics. -/
def Panics (cfg : Settings) (s : Shared) (task : Task) : Prop :=
  match task.stage with
  | .tier1 merged => ServePanics cfg merged (getRoute s.store merged.sig)
  | .tier2Route merged => ServePanics cfg merged (getRouteForHops s.store merged.quote.routePlan)
  | _ => False

/-- A choice that neither lets time pass nor starts a check. -/
def Choice.goesOn (choice : Choice) : Bool := !choice.isWait && !choice.isCheck

/-- Some task can go on. -/
def Enabled (cfg : Settings) (p : Pool Shared Task) : Prop :=
  ∃ i choice p', choice.goesOn ∧ (pipeline cfg).next p i choice = some p'

section Rest

variable {cfg : Settings} {s : Shared} {stage : Stage} {merged : Merged}

/-- The stage goes on. -/
def StageGoes (cfg : Settings) (s : Shared) (stage : Stage) : Prop :=
  ∃ choice out, choice.goesOn ∧ decideStage cfg s stage choice = some out

theorem StageGoes.go {out : Shared × List Task}
    (decided : decideStage cfg s stage .go = some out) : StageGoes cfg s stage :=
  ⟨.go, out, rfl, decided⟩

/-- A lookup goes on unless its template panics. -/
theorem serve_goes {sig : RouteTemplate → U128} {otherwise : Stage}
    {found : Option RouteTemplate × StoreInner}
    (decides : decideStage cfg s stage .go = serve cfg s merged sig otherwise found) :
    StageGoes cfg s stage ∨ ServePanics cfg merged found := by
  unfold serve at decides
  split at decides
  · exact Or.inl (.go decides)
  · rename_i tmpl looked
    split at decides
    · rename_i panic failed
      exact Or.inr ⟨tmpl, panic, looked, failed⟩
    · exact Or.inl (.go decides)
    · exact Or.inl (.go decides)

/-- A limiter answers. -/
theorem tryLimiter_answers (late : oneSecond ≤ s.now) (limiter : RateLimiter) (path : Path)
    (update : RateLimiter → Shared → Shared) (item : ReadyInstruction) (otherwise : Task) :
    ∃ out, tryLimiter s limiter path update item otherwise = some out := by
  unfold tryLimiter RateLimiter.tryAcquire
  rw [if_neg (Nat.not_lt.mpr late)]
  dsimp only
  split
  · rename_i none
    split at none <;> cases none
  · exact ⟨_, rfl⟩
  · exact ⟨_, rfl⟩

/-- **What a stage waits for**: a pair or a permit. -/
theorem goes_or_waits (cfg : Settings) (late : oneSecond ≤ s.now) (stage : Stage) :
    StageGoes cfg s stage ∨ Panics cfg s stage.task ∨ stage.Waits s := by
  cases stage with
  | clock | quotes | finished => exact Or.inr (Or.inr trivial)
  | quoteCheck tokenMint amount onlyDirect =>
      exact Or.inl ⟨.quoted fun _ _ _ _ => none, _, rfl, rfl⟩
  | scan =>
      cases ready : s.opps with
      | nil => exact Or.inr (Or.inr ready)
      | cons pair rest =>
          refine Or.inl ⟨.opp 0, ({ s with opps := s.opps.eraseIdx 0 }, [dispatch pair]), rfl, ?_⟩
          simp only [decideStage, scanStep, ready, List.getElem?_cons_zero]
  | tier1 merged =>
      by_cases enabled : cfg.serveRoute
      · have decides : decideStage cfg s (.tier1 merged) .go =
            serve cfg s merged (fun _ => merged.sig) (.tier2 merged)
              (getRoute s.store merged.sig) := by
          simp only [decideStage, scanStep, enabled, if_true]
        exact (serve_goes decides).imp_right Or.inl
      · exact Or.inl (.go (by simp only [decideStage, scanStep, enabled]; rfl))
  | tier2 merged =>
      refine Or.inl ?_
      by_cases allHit : (checkHops s.store merged.quote.routePlan).1 = true
      · exact .go (by simp only [decideStage, scanStep, allHit, if_true]; rfl)
      · by_cases missing : 0 < (checkHops s.store merged.quote.routePlan).2
        · exact .go (by simp only [decideStage, scanStep, allHit, missing]; rfl)
        · exact .go (by simp only [decideStage, scanStep, allHit, missing]; rfl)
  | tier2Route merged =>
      by_cases enabled : cfg.serveRoute
      · have decides : decideStage cfg s (.tier2Route merged) .go =
            serve cfg s merged RouteTemplate.routeSignature (.tier3 merged)
              (getRouteForHops s.store merged.quote.routePlan) := by
          simp only [decideStage, scanStep, enabled, if_true]
        exact (serve_goes decides).imp_right Or.inl
      · exact Or.inl (.go (by simp only [decideStage, scanStep, enabled]; rfl))
  | tier3 merged =>
      refine Or.inl ?_
      by_cases serves : cfg.serveFromMetis
      · exact .go (by simp only [decideStage, scanStep, serves]; rfl)
      · exact .go (by simp only [decideStage, scanStep, serves]; rfl)
  | metis merged => exact Or.inl ⟨.answered (.error .timeout) 0, _, rfl, rfl⟩
  | acquire =>
      by_cases permits : 0 < s.lifoSem
      · exact Or.inl (.go (by simp only [decideStage, workerStep, permits, if_true]; rfl))
      · exact Or.inr (Or.inr (Nat.eq_zero_of_not_pos permits))
  | pop =>
      refine Or.inl ?_
      cases queue : s.lifo with
      | nil => exact .go (by simp only [decideStage, workerStep, queue]; rfl)
      | cons item rest => exact .go (by simp only [decideStage, workerStep, queue]; rfl)
  | popped item =>
      refine Or.inl ?_
      by_cases stale : (s.now - item.arrivedAt) / 1000000 % 2 ^ 64 > cfg.queueMaxAgeMs.toNat
      · exact .go (by simp only [decideStage, workerStep, stale, if_true]; rfl)
      · exact .go (by simp only [decideStage, workerStep, stale, if_false]; rfl)
  | limit item =>
      rcases tryLimiter_answers late s.jitoLimiter .rest
        (fun limiter s => { s with jitoLimiter := limiter }) item (Stage.limitGrpc item).task with
        ⟨out, answers⟩
      exact Or.inl (.go answers)
  | limitGrpc item =>
      refine Or.inl ?_
      cases present : s.jitoGrpcLimiter with
      | none => exact .go (by simp only [decideStage, workerStep, present]; rfl)
      | some limiter =>
          rcases tryLimiter_answers late limiter .grpc
            (fun limiter s => { s with jitoGrpcLimiter := some limiter }) item (requeued item) with
            ⟨out, answers⟩
          exact .go (by simp only [decideStage, workerStep, present]; exact answers)
  | build item grant => exact Or.inl ⟨.built none, _, rfl, rfl⟩
  | sending item => exact Or.inl ⟨.sent true, _, rfl, rfl⟩
  | spawn _ | serving _ _ | answered _ _ | sleep | send _ _ => exact Or.inl (.go rfl)

/-- A task with something pending goes on. -/
theorem run_or_waits (cfg : Settings) (late : oneSecond ≤ s.now) (task : Task) :
    (∃ choice out, choice.goesOn ∧ (pipeline cfg).run s task choice = some out) ∨
      Panics cfg s task ∨ task.pending = [] ∧ task.stage.Waits s := by
  rcases task with ⟨pending, stage⟩
  cases pending with
  | cons action rest => exact Or.inl ⟨.go, _, rfl, rfl⟩
  | nil =>
      rcases goes_or_waits cfg late stage with goes | panics | waits
      · exact Or.inl goes
      · exact Or.inr (Or.inl panics)
      · exact Or.inr (Or.inr ⟨rfl, waits⟩)

end Rest

/-! ## The loops do not end -/

/-- The stages of a worker. -/
def Stage.isWorker : Stage → Bool
  | .acquire | .pop | .popped _ | .limit _ | .limitGrpc _ | .sleep | .build _ _ | .send _ _
  | .sending _ => true
  | _ => false

/-- The stages of the scan loop. -/
def Stage.isScan : Stage → Bool
  | .scan | .tier1 _ | .tier2 _ | .tier2Route _ | .tier3 _ | .spawn _ | .serving _ _ => true
  | _ => false

section Loops

variable {cfg : Settings} {s s' : Shared} {stage : Stage} {choice : Choice} {task : Task}
  {tasks : List Task} {guard : Pool Shared Task → Nat × Choice → Prop} {p : Pool Shared Task}

theorem loops_of_holdsPair (holds : stage.holdsPair) :
    stage.isWorker = false ∧ stage.isScan = true := by
  cases stage <;> first | exact ⟨rfl, rfl⟩ | cases holds

theorem loops_metisAnswer (cfg : Settings) (merged : Merged) (fetchMs : Nat)
    (result : Except SwapIxError SwapInstructionsResponse) :
    (metisAnswer cfg merged fetchMs result).stage.isWorker = false ∧
      (metisAnswer cfg merged fetchMs result).stage.isScan = false := by
  cases result <;> exact ⟨rfl, rfl⟩

/-- Every stage of a loop is followed by one of the same loop. -/
theorem loops_of_run (ran : (pipeline cfg).run s task choice = some (s', tasks)) :
    tasks.countP (·.stage.isWorker) = (if task.stage.isWorker then 1 else 0) ∧
      tasks.countP (·.stage.isScan) = (if task.stage.isScan then 1 else 0) := by
  rcases task with ⟨pending, stage⟩
  cases pending with
  | cons action rest =>
      cases ran
      exact ⟨List.countP_singleton, List.countP_singleton⟩
  | nil =>
      have decided : decideStage cfg s stage choice = some (s', tasks) := ran
      cases arrives : stage.arrives with
      | true =>
          cases stage with
          | serving swapIxs hopCount =>
              cases choice with
              | go => cases decided; exact ⟨rfl, rfl⟩
              | _ => cases decided
          | answered swapIxs hopCount =>
              cases choice with
              | go => cases decided; exact ⟨rfl, rfl⟩
              | _ => cases decided
          | _ => cases arrives
      | false =>
          cases move_of_decide decided with
          | push item holds _ _ _ => rw [arrives] at holds; cases holds
          | descend store counters holds next _ =>
              rcases loops_of_holdsPair holds with ⟨noWorker, scan⟩
              rcases loops_of_holdsPair next with ⟨noWorker', scan'⟩
              simp [noWorker, scan, noWorker', scan']
          | ramHit store merged sig patched holds =>
              rcases loops_of_holdsPair holds with ⟨noWorker, scan⟩
              rw [noWorker, scan]
              exact ⟨rfl, rfl⟩
          | answered merged fetchMs result =>
              rcases loops_metisAnswer cfg merged fetchMs result with ⟨noWorker, noScan⟩
              rw [List.countP_singleton, List.countP_singleton, noWorker, noScan]
              exact ⟨rfl, rfl⟩
          | _ => exact ⟨rfl, rfl⟩

/-- The workers are as many as were spawned, and the scan loop is one. -/
theorem loops_reach (reached : (pipelineMachine cfg).Reach guard p) :
    p.tasks.countP (·.stage.isWorker) = cfg.workerCount ∧ p.tasks.countP (·.stage.isScan) = 1 := by
  refine reached.invariant (fun p => p.tasks.countP (·.stage.isWorker) = cfg.workerCount ∧
    p.tasks.countP (·.stage.isScan) = 1) ?_ ?_
  · rintro p ⟨now, store, -, rfl⟩
    constructor
    · simp [Settings.spawn, List.countP_replicate, Stage.task, Stage.isWorker]
    · simp [Settings.spawn, List.countP_replicate, Stage.task, Stage.isScan]
  · rintro p label p' ⟨workers, scan⟩ - taken
    rcases System.next_eq_some_iff.mp taken with ⟨task, shared, tasks, found, ran, rfl⟩
    obtain ⟨sameWorkers, sameScan⟩ := loops_of_run ran
    rcases List.getElem?_eq_some_iff.mp found with ⟨inside, rfl⟩
    have split : p.tasks =
        p.tasks.take label.1 ++ p.tasks[label.1] :: p.tasks.drop (label.1 + 1) := by
      rw [List.cons_getElem_drop_succ, List.take_append_drop]
    rw [split, List.countP_append, List.countP_cons] at workers scan
    constructor
    · rw [List.countP_append, List.countP_append, sameWorkers]
      omega
    · rw [List.countP_append, List.countP_append, sameScan]
      omega

end Loops

/-! ## Progress -/

section Progress

variable {cfg : Settings} {p p₀ : Pool Shared Task}
  {steps : List (Machine.Entry (Pool Shared Task) (Nat × Choice))}

/-- **No deadlock.** A pipeline with a worker that is not at rest can go on, unless the scan loop
panics. -/
theorem enabled_or_atRest {guard : Pool Shared Task → Nat × Choice → Prop}
    (reached : (pipelineMachine cfg).Reach guard p) (workers : 0 < cfg.workerCount) :
    AtRest p ∨ (∃ task ∈ p.tasks, Panics cfg p.shared task) ∨ Enabled cfg p := by
  by_cases enabled : Enabled cfg p
  · exact Or.inr (Or.inr enabled)
  by_cases panics : ∃ task ∈ p.tasks, Panics cfg p.shared task
  · exact Or.inr (Or.inl panics)
  refine Or.inl ?_
  have waits : ∀ task ∈ p.tasks, task.pending = [] ∧ task.stage.Waits p.shared := by
    intro task member
    rcases run_or_waits cfg (Limits.reach reached).late task with
      ⟨choice, ⟨shared, tasks⟩, goesOn, ran⟩ | panic | waits
    · rcases List.mem_iff_getElem?.mp member with ⟨i, found⟩
      exact absurd ⟨i, choice, _, goesOn,
        System.next_eq_some_iff.mpr ⟨task, shared, tasks, found, ran, rfl⟩⟩ enabled
    · exact absurd ⟨task, member, panic⟩ panics
    · exact waits
  rcases loops_reach reached with ⟨workerCount, scanCount⟩
  have opps : p.shared.opps = [] := by
    rcases List.countP_pos_iff.mp (scanCount ▸ Nat.one_pos) with ⟨task, member, isScan⟩
    have waiting := (waits task member).2
    cases stage : task.stage with
    | scan => rw [stage] at waiting; exact waiting
    | clock | quotes | acquire | finished => rw [stage] at isScan; cases isScan
    | _ => rw [stage] at waiting; exact waiting.elim
  have lifoSem : p.shared.lifoSem = 0 := by
    rcases List.countP_pos_iff.mp (workerCount ▸ workers) with ⟨task, member, isWorker⟩
    have waiting := (waits task member).2
    cases stage : task.stage with
    | acquire => rw [stage] at waiting; exact waiting
    | clock | quotes | scan | finished => rw [stage] at isWorker; cases isWorker
    | _ => rw [stage] at waiting; exact waiting.elim
  -- No permit is held or owed, so there are as many items as permits.
  have lifo : p.shared.lifo = [] := by
    have permits := (permits_match cfg (reached.mono fun _ _ _ => trivial)).1
    have holds : p.tasks.countP Task.holdsPermit = 0 := by
      refine List.countP_eq_zero.mpr ?_
      intro task member held
      have waiting := (waits task member).2
      rw [Task.holdsPermit] at held
      cases stage : task.stage with
      | pop => rw [stage] at waiting; exact waiting
      | _ => rw [stage] at held; cases held
    have owes : p.tasks.countP Task.owesPermit = 0 := by
      refine List.countP_eq_zero.mpr ?_
      intro task member owed
      rw [Task.owesPermit, (waits task member).1] at owed
      cases owed
    rw [lifoSem, holds, owes] at permits
    exact List.length_eq_zero_iff.mp permits.symm
  exact ⟨fun task member => (waits task member).1, fun task member => (waits task member).2,
    opps, lifo, lifoSem⟩

/-- **Progress.** In every run, a quote check leads to 41 steps of the tasks at most and a
requeue to 11 more, and a pipeline with a worker can go on without a new check until every pair
and every item has ended, unless the scan loop panics in `serve_route`. -/
theorem pipeline_progress (spawned : Spawned cfg p₀)
    (trace : (pipelineMachine cfg).Trace p₀ steps p) (workers : 0 < cfg.workerCount) :
    steps.countP TaskStep ≤ 41 * steps.countP CheckStep + 11 * steps.countP RequeueStep ∧
      (AtRest p ∨ (∃ task ∈ p.tasks, Panics cfg p.shared task) ∨ Enabled cfg p) :=
  ⟨steps_bounded spawned trace, enabled_or_atRest (trace.reach spawned) workers⟩

/-- One item goes all the way and is sent. -/
theorem pipeline_progress_sent :
    ∃ (steps : List (Machine.Entry (Pool Shared Task) (Nat × Choice))) (p : Pool Shared Task),
      (pipelineMachine oneSlot).Trace (oneSlot.spawn oneSecond .new) steps p ∧
        p.shared.metrics .jitoSent = 1 ∧ AtRest p ∧
        steps.countP TaskStep ≤ 41 * steps.countP CheckStep + 11 * steps.countP RequeueStep := by
  have ended : ((pipeline oneSlot).exec Machine.anyStep (oneSlot.spawn oneSecond .new)
      (arrival 1 ++ acquisition 5 ++ submission 5 ++ [(5, .sent true), (5, .go)])).any fun p =>
        p.shared.metrics .jitoSent = 1 ∧
          (∀ task ∈ p.tasks, task.pending = [] ∧ task.stage.Waits p.shared) ∧
          p.shared.opps = [] ∧ p.shared.lifo = [] ∧ p.shared.lifoSem = 0 := by decide
  rcases (Option.any_eq_true _ _).mp ended with ⟨p, played, checked⟩
  obtain ⟨sent, waits, opps, lifo, lifoSem⟩ := of_decide_eq_true checked
  rcases System.exec_trace played with ⟨steps, trace, -⟩
  have rest : AtRest p := ⟨fun task member => (waits task member).1,
    fun task member => (waits task member).2, opps, lifo, lifoSem⟩
  exact ⟨steps, p, trace, sent, rest,
    (pipeline_progress spawned_oneSlot trace (by decide)).1⟩

end Progress

end ArbBot
