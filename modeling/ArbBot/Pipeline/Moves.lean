import ArbBot.Pipeline.Tasks

/-!
# What a task can do

`Move` lists what a stage can decide, with all that the proofs about runs need of it, and
`move_of_decide` shows that the decisions are among these moves. The results about runs
go through the moves and never unfold a step.
-/

namespace ArbBot

open Foundation Sdk

/-! ## What a stage holds -/

/-- The scan loop holds a pair. -/
def Stage.holdsPair : Stage → Bool
  | .tier1 _ | .tier2 _ | .tier2Route _ | .tier3 _ | .spawn _ => true
  | _ => false

/-- A served or answered instruction is on its way into the queue. -/
def Stage.arrives : Stage → Bool
  | .serving _ _ | .answered _ _ => true
  | _ => false

/-- A call of `/swap-instructions` is in flight. -/
def Stage.isCall : Stage → Bool
  | .metis _ => true
  | _ => false

/-- The item a worker holds. -/
def Stage.item? : Stage → Option ReadyInstruction
  | .popped item | .limit item | .limitGrpc item | .build item _ | .send item _
  | .sending item => some item
  | _ => none

/-- The slot a worker holds and has not used. -/
def Stage.grant? : Stage → Option Grant
  | .build _ grant | .send _ grant => some grant
  | _ => none

/-- The counters of the scan loop on the way from a pair to its exit. -/
def scanCounters : List Counter := [.hopTemplateAllHit, .hopTemplateMissing, .metisReqSent]

/-- The exits of a pair. -/
def pairExits : List Counter := [.droppedMultiHop, .droppedMergeFail, .droppedNoServe]

/-- The exits of an item before it is sent. -/
def itemExits : List Counter := [.droppedStale, .txBuildFailed, .droppedAccountLocks, .txTooLarge]

/-! ## Moves -/

inductive Move (cfg : Settings) (s : Shared) : Stage → Shared → List Task → Prop
  | wait (nanoseconds : Nat) :
    Move cfg s .clock { s with now := s.now + nanoseconds } [Stage.clock.task]
  | check (tokenMint : String) (amount : UInt64) (onlyDirect : Bool) :
    Move cfg s .quotes s [{
      pending := [.add .metisReqSent 2, .addToken tokenMint .qSent 2]
      stage := .quoteCheck tokenMint amount onlyDirect }, Stage.quotes.task]
  | quoted (tokenMint : String) (amount : UInt64) (onlyDirect : Bool) (outcome : QuoteOutcome) :
    Move cfg s (.quoteCheck tokenMint amount onlyDirect) s
      [{ pending := outcome.pending tokenMint, stage := .finished }]
  | dropPair {i : Nat} {pair : QuotePair} {counter : Counter} :
    s.opps[i]? = some pair → counter ∈ pairExits →
    Move cfg s .scan { s with opps := s.opps.eraseIdx i }
      [{ pending := drop counter, stage := .scan }]
  | takePair {i : Nat} {pair : QuotePair} (merged : Merged) :
    s.opps[i]? = some pair →
    Move cfg s .scan { s with opps := s.opps.eraseIdx i } [(Stage.tier1 merged).task]
  | descend {stage stage' : Stage} (store : StoreInner) (counters : List (Counter × Int)) :
    stage.holdsPair → stage'.holdsPair → (∀ e ∈ counters, e.1 ∈ scanCounters) →
    Move cfg s stage { s with store := store }
      [{ pending := counters.map fun e => .add e.1 e.2, stage := stage' }]
  | ramHit {stage : Stage} (store : StoreInner) (merged : Merged) (sig : U128)
      (patched : SwapInstructionsResponse) :
    stage.holdsPair →
    Move cfg s stage { s with store := store } [ramHit merged sig patched]
  | noServe (merged : Merged) :
    Move cfg s (.tier3 merged) s [{ pending := drop .droppedNoServe, stage := .scan }]
  | spawn (merged : Merged) :
    Move cfg s (.spawn merged) s [Stage.scan.task, (Stage.metis merged).task]
  | answered (merged : Merged) (fetchMs : Nat)
      (result : Except SwapIxError SwapInstructionsResponse) :
    Move cfg s (.metis merged) s [metisAnswer cfg merged fetchMs result]
  | push {stage next : Stage} (item : ReadyInstruction) :
    stage.arrives → next = .scan ∨ next = .finished → item.id = s.nextId →
    item.arrivedAt = s.now →
    Move cfg s stage { s with nextId := s.nextId + 1 }
      [{ pending := [.push item, .add .queueIn 1, .add .queueDepth 1, .addPermit]
         stage := next }]
  | permit : Move cfg s .acquire { s with lifoSem := s.lifoSem - 1 } [Stage.pop.task]
  | pop {item : ReadyInstruction} {rest : List ReadyInstruction} :
    s.lifo = item :: rest →
    Move cfg s .pop { s with lifo := rest }
      [{ pending := [.add .queueDepth (-1)], stage := .popped item }]
  | popNone : Move cfg s .pop s [Stage.acquire.task]
  | stale (item : ReadyInstruction) :
    Move cfg s (.popped item) s [{ pending := drop .droppedStale, stage := .acquire }]
  | fresh (item : ReadyInstruction) : Move cfg s (.popped item) s [(Stage.limit item).task]
  | grantRest (item : ReadyInstruction) {limiter : RateLimiter} :
    s.jitoLimiter.tryAcquire s.now = some (true, limiter) →
    Move cfg s (.limit item)
      { s with
        grants := Function.update s.grants .rest (s.grants .rest ++ [s.now])
        jitoLimiter := limiter }
      [(Stage.build item { limiter := .rest, instant := s.now }).task]
  | refuseRest (item : ReadyInstruction) {limiter : RateLimiter} :
    s.jitoLimiter.tryAcquire s.now = some (false, limiter) →
    Move cfg s (.limit item) { s with jitoLimiter := limiter } [(Stage.limitGrpc item).task]
  | noGrpc (item : ReadyInstruction) :
    s.jitoGrpcLimiter = none → Move cfg s (.limitGrpc item) s [requeued item]
  | grantGrpc (item : ReadyInstruction) {limiter limiter' : RateLimiter} :
    s.jitoGrpcLimiter = some limiter →
    limiter.tryAcquire s.now = some (true, limiter') →
    Move cfg s (.limitGrpc item)
      { s with
        grants := Function.update s.grants .grpc (s.grants .grpc ++ [s.now])
        jitoGrpcLimiter := some limiter' }
      [(Stage.build item { limiter := .grpc, instant := s.now }).task]
  | refuseGrpc (item : ReadyInstruction) {limiter limiter' : RateLimiter} :
    s.jitoGrpcLimiter = some limiter →
    limiter.tryAcquire s.now = some (false, limiter') →
    Move cfg s (.limitGrpc item) { s with jitoGrpcLimiter := some limiter' } [requeued item]
  | wake : Move cfg s .sleep s [Stage.acquire.task]
  | dropBuild (item : ReadyInstruction) (grant : Grant) {counter : Counter} :
    counter ∈ itemExits →
    Move cfg s (.build item grant) s [{ pending := drop counter, stage := .acquire }]
  | built (item : ReadyInstruction) (grant : Grant) :
    Move cfg s (.build item grant) s [{ pending := [.add .calcDone 1], stage := .send item grant }]
  | send (item : ReadyInstruction) (grant : Grant) :
    Move cfg s (.send item grant)
      { s with sends := s.sends ++ [started cfg s.now item grant] } [(Stage.sending item).task]
  | sent (item : ReadyInstruction) :
    Move cfg s (.sending item) s [{ pending := [.add .jitoSent 1], stage := .acquire }]
  | sendFailed (item : ReadyInstruction) :
    Move cfg s (.sending item) s [{ pending := drop .jitoSendFailed, stage := .acquire }]

section Decide

variable {cfg : Settings} {s s' : Shared} {stage : Stage} {choice : Choice} {tasks : List Task}

theorem move_of_quoteStep (decided : quoteStep cfg s stage choice = some (s', tasks)) :
    Move cfg s stage s' tasks := by
  unfold quoteStep at decided
  split at decided
  · cases decided
    exact .check _ _ _
  · cases decided
    exact .quoted _ _ _ _
  · cases decided

/-- A pair is dropped, or merged. -/
theorem dispatch_cases (pair : QuotePair) :
    (∃ counter ∈ pairExits, dispatch pair = { pending := drop counter, stage := .scan }) ∨
      ∃ merged, dispatch pair = (Stage.tier1 merged).task := by
  unfold dispatch
  split
  · exact Or.inl ⟨.droppedMultiHop, by simp [pairExits], rfl⟩
  · split
    · exact Or.inl ⟨.droppedMergeFail, by simp [pairExits], rfl⟩
    · exact Or.inr ⟨_, rfl⟩

theorem move_of_serve {merged : Merged} {sig : RouteTemplate → U128} {otherwise : Stage}
    {found : Option RouteTemplate × StoreInner} (holds : stage.holdsPair)
    (next : otherwise.holdsPair)
    (decided : serve cfg s merged sig otherwise found = some (s', tasks)) :
    Move cfg s stage s' tasks := by
  unfold serve at decided
  split at decided
  · cases decided
    exact .descend found.2 [] holds next (by simp)
  · split at decided
    · cases decided
    · cases decided
      exact .descend found.2 [] holds next (by simp)
    · cases decided
      exact .ramHit found.2 merged _ _ holds

theorem move_of_scanStep (decided : scanStep cfg s stage choice = some (s', tasks)) :
    Move cfg s stage s' tasks := by
  unfold scanStep at decided
  split at decided
  · split at decided
    · cases decided
    · rename_i i pair found
      cases decided
      rcases dispatch_cases pair with ⟨counter, exit, same⟩ | ⟨merged, same⟩
      · rw [same]
        exact .dropPair found exit
      · rw [same]
        exact .takePair merged found
  · rename_i merged
    split at decided
    · have holds : (Stage.tier1 merged).holdsPair := rfl
      have next : (Stage.tier2 merged).holdsPair := rfl
      exact move_of_serve holds next decided
    · cases decided
      exact .descend s.store [] rfl rfl (by simp)
  · rename_i merged
    dsimp only at decided
    split at decided
    · cases decided
      exact .descend s.store [(.hopTemplateAllHit, 1)] rfl rfl (by simp [scanCounters])
    · split at decided
      · cases decided
        exact .descend s.store [(.hopTemplateMissing, _)] rfl rfl (by simp [scanCounters])
      · cases decided
        exact .descend s.store [] rfl rfl (by simp)
  · rename_i merged
    split at decided
    · have holds : (Stage.tier2Route merged).holdsPair := rfl
      have next : (Stage.tier3 merged).holdsPair := rfl
      exact move_of_serve holds next decided
    · cases decided
      exact .descend s.store [] rfl rfl (by simp)
  · rename_i merged
    split at decided
    · cases decided
      exact .noServe merged
    · cases decided
      exact .descend s.store [(.metisReqSent, 1)] rfl rfl (by simp [scanCounters])
  · cases decided
    exact .spawn _
  · cases decided
    exact .push _ rfl (Or.inl rfl) rfl rfl
  · cases decided

theorem move_of_metisStep (decided : metisStep cfg s stage choice = some (s', tasks)) :
    Move cfg s stage s' tasks := by
  unfold metisStep at decided
  split at decided
  · cases decided
    exact .answered _ _ _
  · cases decided
    exact .push _ rfl (Or.inr rfl) rfl rfl
  · cases decided

/-- A limiter panics, grants or refuses. -/
theorem tryLimiter_cases {limiter : RateLimiter} {path : Path}
    {update : RateLimiter → Shared → Shared} {item : ReadyInstruction} {otherwise : Task}
    (decided : tryLimiter s limiter path update item otherwise = some (s', tasks)) :
    (∃ limiter', limiter.tryAcquire s.now = some (true, limiter') ∧
        s' = update limiter' { s with
          grants := Function.update s.grants path (s.grants path ++ [s.now]) } ∧
        tasks = [(Stage.build item { limiter := path, instant := s.now }).task]) ∨
      ∃ limiter', limiter.tryAcquire s.now = some (false, limiter') ∧
        s' = update limiter' s ∧ tasks = [otherwise] := by
  unfold tryLimiter at decided
  split at decided
  · cases decided
  · rename_i limiter' acquired
    cases decided
    exact Or.inl ⟨limiter', acquired, rfl, rfl⟩
  · rename_i limiter' acquired
    cases decided
    exact Or.inr ⟨limiter', acquired, rfl, rfl⟩

/-- A build is dropped or goes on to be sent. -/
theorem checkBuilt_cases (item : ReadyInstruction) (grant : Grant)
    (result : Option (Transaction × Option Nat)) :
    (∃ counter ∈ itemExits,
        checkBuilt item grant result = { pending := drop counter, stage := .acquire }) ∨
      checkBuilt item grant result =
        { pending := [.add .calcDone 1], stage := .send item grant } := by
  unfold checkBuilt
  split
  · exact Or.inl ⟨.txBuildFailed, by simp [itemExits], rfl⟩
  · split
    · exact Or.inl ⟨.droppedAccountLocks, by simp [itemExits], rfl⟩
    · split
      · exact Or.inl ⟨.txBuildFailed, by simp [itemExits], rfl⟩
      · split
        · exact Or.inl ⟨.txTooLarge, by simp [itemExits], rfl⟩
        · exact Or.inr rfl

theorem move_of_workerStep (decided : workerStep cfg s stage choice = some (s', tasks)) :
    Move cfg s stage s' tasks := by
  unfold workerStep at decided
  split at decided
  · split at decided
    · cases decided
      exact .permit
    · cases decided
  · split at decided
    · rename_i item rest top
      cases decided
      exact .pop top
    · cases decided
      exact .popNone
  · split at decided
    · cases decided
      exact .stale _
    · cases decided
      exact .fresh _
  · rename_i item
    rcases tryLimiter_cases decided with
      ⟨limiter', acquired, rfl, rfl⟩ | ⟨limiter', acquired, rfl, rfl⟩
    · exact .grantRest item acquired
    · exact .refuseRest item acquired
  · rename_i item
    split at decided
    · rename_i absent
      cases decided
      exact .noGrpc item absent
    · rename_i limiter present
      rcases tryLimiter_cases decided with
        ⟨limiter', acquired, rfl, rfl⟩ | ⟨limiter', acquired, rfl, rfl⟩
      · exact .grantGrpc item present acquired
      · exact .refuseGrpc item present acquired
  · cases decided
    exact .wake
  · rename_i item grant result
    cases decided
    rcases checkBuilt_cases item grant result with ⟨counter, exit, same⟩ | same
    · rw [same]
      exact .dropBuild item grant exit
    · rw [same]
      exact .built item grant
  · cases decided
    exact .send _ _
  · split at decided
    · cases decided
      exact .sent _
    · cases decided
      exact .sendFailed _
  · cases decided

/-- **The moves.** Each decision of a stage is one of them. -/
theorem move_of_decide (decided : decideStage cfg s stage choice = some (s', tasks)) :
    Move cfg s stage s' tasks := by
  unfold decideStage at decided
  split at decided
  · split at decided
    · cases decided
      exact .wait _
    · cases decided
  all_goals
    first
    | exact move_of_quoteStep decided
    | exact move_of_scanStep decided
    | exact move_of_metisStep decided
    | exact move_of_workerStep decided
    | cases decided

/-- A step of a task performs its first action or is a move. -/
theorem run_cases {task : Task}
    (ran : (pipeline cfg).run s task choice = some (s', tasks)) :
    (∃ action rest, task.pending = action :: rest ∧ s' = perform cfg s action ∧
        tasks = [{ pending := rest, stage := task.stage }]) ∨
      task.pending = [] ∧ Move cfg s task.stage s' tasks := by
  simp only [pipeline] at ran
  split at ran
  · rename_i action rest pending
    cases ran
    exact Or.inl ⟨action, rest, pending, rfl, rfl⟩
  · rename_i pending
    exact Or.inr ⟨pending, move_of_decide ran⟩

end Decide

end ArbBot
