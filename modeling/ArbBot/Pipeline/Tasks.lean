import ArbBot.Foundation.Interleaving
import ArbBot.Pipeline.Quotes
import ArbBot.RateLimiter
import ArbBot.Transaction

/-!
# The tasks of the pipeline

The scan loop, the quote checks it polls, the Metis tasks it spawns and the workers share
the counters, the LIFO queue with its semaphore, the template store and the limiters. A
task first performs its pending actions one by one, each of them one atomic access, and
then decides what comes next at its stage. What is checked when, the answers of the
network, the outcome of a build and the passing of time are choices of the environment.

A panic aborts the process, so a task that panics has no step. `id`, `grants` and `sends`
are history variables: no decision reads them.
-/

namespace ArbBot

open Foundation Sdk

/-! ## Shared state -/

/-- The counters of `Metrics` that the pipeline updates. -/
inductive Counter where
  | metisReqSent | metisRespTotal | metisRespOk
  | swapIxOk | ixFromRam | ixFromMetis
  | routeTemplateHit | hopTemplateAllHit | hopTemplateMissing
  | swapIxFailed | swapIxTimeout | swapIxHttp | swapIxNetwork | swapIxParse
  | droppedMultiHop | droppedMergeFail | droppedNoServe | droppedSamePool
  | queueIn | queueDepth | droppedStale | txBuildFailed | txTooLarge | droppedAccountLocks
  | calcDone | rateRequeued | jitoSendFailed | jitoSent | txDropped
  | metisFetchMsTotal | metisFetchSamples
  deriving DecidableEq, Repr

/-- A queue item, with its number. -/
structure ReadyInstruction where
  swapIxs : SwapInstructionsResponse
  hopCount : Nat
  arrivedAt : Nat
  waitedForSlot : Bool
  id : Nat

/-- The two submission paths, each with its limiter. -/
inductive Path where
  | rest
  | grpc
  deriving DecidableEq, Repr

/-- A started call of `send_bundle`: the item, the path, the instant its slot was granted
and the instant of the call. -/
structure Send where
  id : Nat
  path : Path
  grantedAt : Nat
  startedAt : Nat
  deriving DecidableEq, Repr

structure Shared where
  now : Nat
  metrics : Counter → Int
  tokenMetrics : TokenMetrics
  /-- The top of the stack is the head. -/
  lifo : List ReadyInstruction
  lifoSem : Nat
  /-- The pairs the quote stream has ready. -/
  opps : List QuotePair
  store : StoreInner
  jitoLimiter : RateLimiter
  jitoGrpcLimiter : Option RateLimiter
  nextId : Nat
  grants : Path → List Nat
  sends : List Send

/-- The settings the pipeline reads. -/
structure Settings where
  codec : TextCodec
  tokenMints : List String
  minProfitLamports : UInt64
  serveRoute : Bool
  saveNew : Bool
  serveFromMetis : Bool
  queueMaxAgeMs : UInt64
  jitoMaxPerSecond : UInt32
  /-- The gRPC limit, when the gRPC client is connected. -/
  grpcMaxPerSecond : Option UInt32
  workerCount : Nat

/-! ## Actions -/

/-- A merged opportunity. -/
structure Merged where
  quote : QuoteResponse
  hopCount : Nat
  amount : UInt64

def Merged.sig (merged : Merged) : U128 := routeSig merged.quote.routePlan

inductive Action where
  | add (counter : Counter) (n : Int)
  | addToken (mint : String) (counter : TokenCounter) (n : Int)
  | yieldPair (pair : QuotePair)
  | push (item : ReadyInstruction)
  | addPermit
  | recordRouteHit (sig : U128)
  | insertRoute (merged : Merged) (swapIxs : SwapInstructionsResponse)
  | recordHops (merged : Merged)

/-- One atomic access. -/
def perform (cfg : Settings) (s : Shared) : Action → Shared
  | .add counter n =>
      { s with metrics := Function.update s.metrics counter (s.metrics counter + n) }
  | .addToken mint counter n => { s with tokenMetrics := s.tokenMetrics.add mint counter n }
  | .yieldPair pair => { s with opps := s.opps ++ [pair] }
  | .push item => { s with lifo := item :: s.lifo }
  | .addPermit => { s with lifoSem := s.lifoSem + 1 }
  | .recordRouteHit sig => { s with store := recordRouteHit s.store sig }
  | .insertRoute merged swapIxs =>
      { s with
        store := insertRoute cfg.codec s.store merged.sig swapIxs merged.amount
          (onChainFloor merged.amount) merged.quote.routePlan }
  | .recordHops merged =>
      { s with store := recordHops s.store merged.quote.routePlan merged.quote.contextSlot }

/-- An exit that drops the transaction. -/
def drop (counter : Counter) : List Action :=
  [.add counter 1, .add .txDropped 1]

/-! ## Tasks -/

/-- A granted slot: of which limiter, and when. -/
structure Grant where
  limiter : Path
  instant : Nat
  deriving DecidableEq, Repr

inductive Stage where
  /-- Time. -/
  | clock
  /-- The quote stream, which may start another check. -/
  | quotes
  | quoteCheck (tokenMint : String) (amount : UInt64) (onlyDirect : Bool)
  /-- The scan loop, before `opps.next()`. -/
  | scan
  | tier1 (merged : Merged)
  | tier2 (merged : Merged)
  | tier2Route (merged : Merged)
  | tier3 (merged : Merged)
  | spawn (merged : Merged)
  /-- The scan loop, in `push_to_queue`. -/
  | serving (swapIxs : SwapInstructionsResponse) (hopCount : Nat)
  /-- A Metis task, before the answer to `/swap-instructions`. -/
  | metis (merged : Merged)
  /-- A Metis task, before it pushes. -/
  | answered (swapIxs : SwapInstructionsResponse) (hopCount : Nat)
  /-- A worker, before it has a permit. -/
  | acquire
  | pop
  | popped (item : ReadyInstruction)
  | limit (item : ReadyInstruction)
  | limitGrpc (item : ReadyInstruction)
  /-- After a requeue. -/
  | sleep
  | build (item : ReadyInstruction) (grant : Grant)
  | send (item : ReadyInstruction) (grant : Grant)
  | sending (item : ReadyInstruction)
  | finished

structure Task where
  pending : List Action
  stage : Stage

/-- A task with nothing pending. -/
def Stage.task (stage : Stage) : Task := { pending := [], stage := stage }

inductive SwapIxError where
  | timeout
  | http (status : UInt16)
  | network
  | parse
  deriving DecidableEq, Repr

def SwapIxError.counter : SwapIxError → Counter
  | .timeout => .swapIxTimeout
  | .http _ => .swapIxHttp
  | .network => .swapIxNetwork
  | .parse => .swapIxParse

/-- What the environment decides. -/
inductive Choice where
  /-- Nothing: the task goes on. -/
  | go
  | wait (nanoseconds : Nat)
  | check (tokenMint : String) (amount : UInt64) (onlyDirect : Bool)
  | quoted (getQuote : GetQuote)
  | opp (i : Nat)
  | answered (result : Except SwapIxError SwapInstructionsResponse) (fetchMs : Nat)
  /-- The built transaction with its serialized length, if either succeeds. -/
  | built (result : Option (Transaction × Option Nat))
  | sent (ok : Bool)

/-! ### Quote checks -/

/-- The updates at the end of a check. -/
def QuoteOutcome.pending (tokenMint : String) : QuoteOutcome → List Action
  | .routeFail => [.addToken tokenMint .routeFail 1]
  | .notProfitable =>
      [.add .metisRespTotal 1, .addToken tokenMint .routeOk 1,
        .addToken tokenMint .notProfitable 1]
  | .samePool =>
      [.add .metisRespTotal 1, .addToken tokenMint .routeOk 1, .add .droppedSamePool 1,
        .addToken tokenMint .notProfitable 1]
  | .profitable pair =>
      [.add .metisRespTotal 1, .addToken tokenMint .routeOk 1, .addToken tokenMint .profitable 1,
        .add .metisRespOk 1, .yieldPair pair]

def quoteStep (cfg : Settings) (s : Shared) : Stage → Choice → Option (Shared × List Task)
  | .quotes, .check tokenMint amount onlyDirect =>
      let check := {
        pending := [.add .metisReqSent 2, .addToken tokenMint .qSent 2]
        stage := .quoteCheck tokenMint amount onlyDirect }
      some (s, [check, Stage.quotes.task])
  | .quoteCheck tokenMint amount onlyDirect, .quoted getQuote =>
      let outcome := quoteCheck getQuote tokenMint amount onlyDirect cfg.minProfitLamports
      some (s, [{ pending := outcome.pending tokenMint, stage := .finished }])
  | _, _ => none

/-! ### Pushes -/

/-- `push_to_queue`: an item with the present instant, and what follows its push. -/
def pushToQueue (s : Shared) (swapIxs : SwapInstructionsResponse) (hopCount : Nat)
    (next : Stage) : Shared × List Task :=
  let item := {
    swapIxs := swapIxs
    hopCount := hopCount
    arrivedAt := s.now
    waitedForSlot := false
    id := s.nextId }
  ({ s with nextId := s.nextId + 1 },
    [{ pending := [.push item, .add .queueIn 1, .add .queueDepth 1, .addPermit], stage := next }])

/-! ### The scan loop -/

/-- A pair up to its merge. -/
def dispatch (pair : QuotePair) : Task :=
  if pair.onlyDirect && pair.hopCount != 2 then
    { pending := drop .droppedMultiHop, stage := .scan }
  else
    match mergeQuotes pair.quote1 pair.quote2 (onChainFloor pair.amount) with
    | none => { pending := drop .droppedMergeFail, stage := .scan }
    | some quote =>
        (Stage.tier1 { quote := quote, hopCount := pair.hopCount, amount := pair.amount }).task

/-- A template has served the instruction. -/
def ramHit (merged : Merged) (sig : U128) (patched : SwapInstructionsResponse) : Task where
  pending :=
    [.add .routeTemplateHit 1, .add .ixFromRam 1, .add .swapIxOk 1, .recordRouteHit sig]
  stage := .serving patched merged.hopCount

/-- A template that was looked up serves the opportunity, or the scan loop goes on at
another stage. -/
def serve (cfg : Settings) (s : Shared) (merged : Merged) (sig : RouteTemplate → U128)
    (otherwise : Stage) (found : Option RouteTemplate × StoreInner) :
    Option (Shared × List Task) :=
  let s := { s with store := found.2 }
  match found.1 with
  | none => some (s, [otherwise.task])
  | some tmpl =>
      match serveRoute cfg.codec tmpl merged.amount (onChainFloor merged.amount) with
      | .error _ => none
      | .ok none => some (s, [otherwise.task])
      | .ok (some patched) => some (s, [ramHit merged (sig tmpl) patched])

def scanStep (cfg : Settings) (s : Shared) : Stage → Choice → Option (Shared × List Task)
  | .scan, .opp i =>
      match s.opps[i]? with
      | none => none
      | some pair => some ({ s with opps := s.opps.eraseIdx i }, [dispatch pair])
  | .tier1 merged, .go =>
      if cfg.serveRoute then
        serve cfg s merged (fun _ => merged.sig) (.tier2 merged) (getRoute s.store merged.sig)
      else some (s, [(Stage.tier2 merged).task])
  | .tier2 merged, .go =>
      let (allHit, missing) := checkHops s.store merged.quote.routePlan
      if allHit then
        some (s, [{ pending := [.add .hopTemplateAllHit 1], stage := .tier2Route merged }])
      else if missing > 0 then
        some (s, [{ pending := [.add .hopTemplateMissing missing], stage := .tier3 merged }])
      else some (s, [(Stage.tier3 merged).task])
  | .tier2Route merged, .go =>
      if cfg.serveRoute then
        serve cfg s merged RouteTemplate.routeSignature (.tier3 merged)
          (getRouteForHops s.store merged.quote.routePlan)
      else some (s, [(Stage.tier3 merged).task])
  | .tier3 merged, .go =>
      if !cfg.serveFromMetis then some (s, [{ pending := drop .droppedNoServe, stage := .scan }])
      else some (s, [{ pending := [.add .metisReqSent 1], stage := .spawn merged }])
  | .spawn merged, .go => some (s, [Stage.scan.task, (Stage.metis merged).task])
  | .serving swapIxs hopCount, .go => some (pushToQueue s swapIxs hopCount .scan)
  | _, _ => none

/-! ### Metis tasks -/

def metisAnswer (cfg : Settings) (merged : Merged) (fetchMs : Nat) :
    Except SwapIxError SwapInstructionsResponse → Task
  | .error e =>
      { pending := drop .swapIxFailed ++ [.add e.counter 1], stage := .finished }
  | .ok swapIxs =>
      { pending :=
          [.add .metisFetchMsTotal fetchMs, .add .metisFetchSamples 1, .add .swapIxOk 1,
            .add .ixFromMetis 1] ++
          if cfg.saveNew then [.insertRoute merged swapIxs, .recordHops merged] else []
        stage := .answered swapIxs merged.hopCount }

def metisStep (cfg : Settings) (s : Shared) : Stage → Choice → Option (Shared × List Task)
  | .metis merged, .answered result fetchMs => some (s, [metisAnswer cfg merged fetchMs result])
  | .answered swapIxs hopCount, .go => some (pushToQueue s swapIxs hopCount .finished)
  | _, _ => none

/-! ### Workers -/

/-- Both limiters refuse: back into the queue. -/
def requeued (item : ReadyInstruction) : Task where
  pending :=
    (if item.waitedForSlot then [] else [.add .rateRequeued 1]) ++
      [.push { item with waitedForSlot := true }, .add .queueDepth 1, .addPermit]
  stage := .sleep

/-- A slot of a limiter, or the next stage. -/
def tryLimiter (s : Shared) (limiter : RateLimiter) (path : Path)
    (update : RateLimiter → Shared → Shared) (item : ReadyInstruction) (otherwise : Task) :
    Option (Shared × List Task) :=
  match limiter.tryAcquire s.now with
  | none => none
  | some (true, limiter) =>
      let s := { s with grants := Function.update s.grants path (s.grants path ++ [s.now]) }
      some (update limiter s, [(Stage.build item { limiter := path, instant := s.now }).task])
  | some (false, limiter) => some (update limiter s, [otherwise])

/-- What becomes of a build: an exit, or the send. -/
def checkBuilt (item : ReadyInstruction) (grant : Grant) :
    Option (Transaction × Option Nat) → Task
  | none => { pending := drop .txBuildFailed, stage := .acquire }
  | some (tx, serialized) =>
      if accountLockCount tx > 64 then
        { pending := drop .droppedAccountLocks, stage := .acquire }
      else
        match serialized with
        | none => { pending := drop .txBuildFailed, stage := .acquire }
        | some length =>
            if length > 1232 then { pending := drop .txTooLarge, stage := .acquire }
            else { pending := [.add .calcDone 1], stage := .send item grant }

/-- The path of a send: a gRPC slot needs the gRPC client. -/
def pathOf (cfg : Settings) (grant : Grant) : Path :=
  match grant.limiter with
  | .rest => .rest
  | .grpc => if cfg.grpcMaxPerSecond.isSome then .grpc else .rest

/-- The call of `send_bundle` at an instant. -/
def started (cfg : Settings) (now : Nat) (item : ReadyInstruction) (grant : Grant) : Send where
  id := item.id
  path := pathOf cfg grant
  grantedAt := grant.instant
  startedAt := now

def workerStep (cfg : Settings) (s : Shared) : Stage → Choice → Option (Shared × List Task)
  | .acquire, .go =>
      if 0 < s.lifoSem then some ({ s with lifoSem := s.lifoSem - 1 }, [Stage.pop.task]) else none
  | .pop, .go =>
      match s.lifo with
      | item :: rest =>
          some ({ s with lifo := rest },
            [{ pending := [.add .queueDepth (-1)], stage := .popped item }])
      | [] => some (s, [Stage.acquire.task])
  | .popped item, .go =>
      if (s.now - item.arrivedAt) / 1000000 % 2 ^ 64 > cfg.queueMaxAgeMs.toNat then
        some (s, [{ pending := drop .droppedStale, stage := .acquire }])
      else some (s, [(Stage.limit item).task])
  | .limit item, .go =>
      tryLimiter s s.jitoLimiter .rest (fun limiter s => { s with jitoLimiter := limiter }) item
        (Stage.limitGrpc item).task
  | .limitGrpc item, .go =>
      match s.jitoGrpcLimiter with
      | none => some (s, [requeued item])
      | some limiter =>
          tryLimiter s limiter .grpc (fun limiter s => { s with jitoGrpcLimiter := some limiter })
            item (requeued item)
  | .sleep, .go => some (s, [Stage.acquire.task])
  | .build item grant, .built result => some (s, [checkBuilt item grant result])
  | .send item grant, .go =>
      some ({ s with sends := s.sends ++ [started cfg s.now item grant] },
        [(Stage.sending item).task])
  | .sending _, .sent ok =>
      if ok then some (s, [{ pending := [.add .jitoSent 1], stage := .acquire }])
      else some (s, [{ pending := drop .jitoSendFailed, stage := .acquire }])
  | _, _ => none

/-! ## The pipeline -/

def decideStage (cfg : Settings) (s : Shared) (stage : Stage) (choice : Choice) :
    Option (Shared × List Task) :=
  match stage with
  | .clock =>
      match choice with
      | .wait nanoseconds => some ({ s with now := s.now + nanoseconds }, [Stage.clock.task])
      | _ => none
  | .quotes | .quoteCheck _ _ _ => quoteStep cfg s stage choice
  | .scan | .tier1 _ | .tier2 _ | .tier2Route _ | .tier3 _ | .spawn _ | .serving _ _ =>
      scanStep cfg s stage choice
  | .metis _ | .answered _ _ => metisStep cfg s stage choice
  | .acquire | .pop | .popped _ | .limit _ | .limitGrpc _ | .sleep | .build _ _ | .send _ _
  | .sending _ => workerStep cfg s stage choice
  | .finished => none

/-- The pending actions come first. -/
def pipeline (cfg : Settings) : System Shared Task Choice where
  run s task choice :=
    match task.pending with
    | action :: rest =>
        some (perform cfg s action, [{ pending := rest, stage := task.stage }])
    | [] => decideStage cfg s task.stage choice

/-- The pipeline as it is spawned at an instant over a store. -/
def Settings.spawn (cfg : Settings) (now : Nat) (store : StoreInner) : Pool Shared Task where
  shared := {
    now := now
    metrics := fun _ => 0
    tokenMetrics := .new cfg.tokenMints
    lifo := []
    lifoSem := 0
    opps := []
    store := store
    jitoLimiter := .new cfg.jitoMaxPerSecond
    jitoGrpcLimiter := cfg.grpcMaxPerSecond.map RateLimiter.new
    nextId := 0
    grants := fun _ => []
    sends := [] }
  tasks := [Stage.clock.task, Stage.quotes.task, Stage.scan.task] ++
    List.replicate cfg.workerCount Stage.acquire.task

/-- A pipeline is spawned at least a second after the origin of the clock. -/
def Spawned (cfg : Settings) (p : Pool Shared Task) : Prop :=
  ∃ now store, oneSecond ≤ now ∧ p = cfg.spawn now store

/-- What is spawned owes nothing, where its four stages owe nothing. -/
theorem Settings.total_spawn {M : Type*} [AddCommMonoid M] {value : Shared → M}
    {owed : Task → M} (cfg : Settings) (now : Nat) (store : StoreInner)
    (clock : owed Stage.clock.task = 0) (quotes : owed Stage.quotes.task = 0)
    (scan : owed Stage.scan.task = 0) (acquire : owed Stage.acquire.task = 0) :
    (cfg.spawn now store).total value owed = value (cfg.spawn now store).shared := by
  have nothing : ((cfg.spawn now store).tasks.map owed).sum = 0 := by
    simp [spawn, clock, quotes, scan, acquire]
  rw [Pool.total, nothing, add_zero]

/-- What holds of the four stages that are spawned holds of every task. -/
theorem Settings.forall_spawn {P : Task → Prop} (cfg : Settings) (now : Nat) (store : StoreInner)
    (clock : P Stage.clock.task) (quotes : P Stage.quotes.task) (scan : P Stage.scan.task)
    (acquire : P Stage.acquire.task) : ∀ task ∈ (cfg.spawn now store).tasks, P task := by
  intro task member
  rcases List.mem_append.mp member with first | worker
  · simp only [List.mem_cons, List.not_mem_nil, or_false] at first
    rcases first with rfl | rfl | rfl
    · exact clock
    · exact quotes
    · exact scan
  · rw [List.eq_of_mem_replicate worker]
    exact acquire

/-- Any interleaving of the tasks. -/
def pipelineMachine (cfg : Settings) : Machine (Pool Shared Task) (Nat × Choice) :=
  (pipeline cfg).machine (Spawned cfg)

end ArbBot
