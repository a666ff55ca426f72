import ArbBot.Foundation.Race
import ArbBot.Pipeline.Slots
import ArbBot.TokenMetrics.Accounting
import Mathlib.Data.List.DropRight

/-!
# The broadcast of the bundles

`send_bundle` asks all endpoints of a path and returns the first bundle id, or the last failure.
Each send of the pipeline is a race between the endpoints of its path; the worker waits for the
outcome while the other tasks go on. `bundles_broadcast` says that no endpoint is asked twice
for an item, that an item is asked for on one path only, and what a counted send or failure
means for the endpoints.

That an endpoint is asked means that its future is first polled; a region whose access token
is no header value answers without a request. `serialize` cannot fail here: the worker has
just serialized the same transaction. `posts`, `replies` and `verdicts` are history variables.
-/

namespace ArbBot

open Foundation

/-! ## The answers of an endpoint -/

structure RpcError where
  code : Int
  message : String

structure RpcResponse where
  result : Option String
  error : Option RpcError

structure StatusCode where
  code : UInt16
  reason : String

def StatusCode.isSuccess (status : StatusCode) : Bool := 200 ≤ status.code && status.code < 300

def StatusCode.text (status : StatusCode) : String := toString status.code ++ " " ++ status.reason

/-- What comes of a POST. -/
inductive HttpReply where
  | failed
  /-- A response, with its body as a text and as JSON. -/
  | response (status : StatusCode) (text : Option String) (json : Option RpcResponse)

/-- What comes of `send_to_region`. -/
inductive GrpcReply where
  | badToken (detail : String)
  | timedOut
  | failed
  | accepted (uuid : String)

inductive SendError where
  | request (url : String)
  | http (url : String) (status : StatusCode) (body : String)
  | parse
  | rpc (url : String) (error : RpcError)
  | noResult
  | noEndpoints
  | accessToken (detail : String)
  | timedOut (endpoint : String)
  | grpc (endpoint : String)
  | noRegions

def SendError.text : SendError → String
  | .request url => "Jito sendBundle to " ++ url ++ " failed"
  | .http url status body =>
      "Jito HTTP error at " ++ url ++ ": " ++ status.text ++ " -- " ++ body
  | .parse => "failed to parse Jito response"
  | .rpc url error =>
      "Jito RPC error at " ++ url ++ ": code=" ++ toString error.code ++ ", message=" ++
        error.message
  | .noResult => "Jito returned no result and no error"
  | .noEndpoints => "no Jito endpoints configured"
  | .accessToken detail => "invalid access token: " ++ detail
  | .timedOut endpoint => "Jito gRPC SendBundle timed out at " ++ endpoint
  | .grpc endpoint => "Jito gRPC SendBundle failed at " ++ endpoint
  | .noRegions => "no Jito gRPC regions configured"

/-- An `error` field comes before a `result`. -/
def sendToEndpoint (url : String) : HttpReply → Except SendError String
  | .failed => .error (.request url)
  | .response status text json =>
      if !status.isSuccess then .error (.http url status (text.getD ""))
      else
        match json with
        | none => .error .parse
        | some response =>
            match response.error with
            | some error => .error (.rpc url error)
            | none =>
                match response.result with
                | none => .error .noResult
                | some bundleId => .ok bundleId

def regionAnswer (endpoint : String) : GrpcReply → Except SendError String
  | .badToken detail => .error (.accessToken detail)
  | .timedOut => .error (.timedOut endpoint)
  | .failed => .error (.grpc endpoint)
  | .accepted uuid => .ok uuid

/-! ## The clients -/

/-- `trim_end_matches('/')`. -/
def trimSlashes (url : String) : String := String.ofList (url.toList.rdropWhile (· == '/'))

def bundleUrl (uuid url : String) : String :=
  trimSlashes url ++ "/api/v1/bundles?uuid=" ++ uuid

/-- The URLs of the REST client and the connected regions of the gRPC client. -/
structure Clients where
  bundleUrls : List String
  regions : List String

/-- `JitoClient::new`, beside the regions that are connected. -/
def Clients.new (baseUrls : List String) (uuid : String) (regions : List String) : Clients where
  bundleUrls := baseUrls.map (bundleUrl uuid)
  regions := regions

def Clients.endpoints (clients : Clients) : Path → List String
  | .rest => clients.bundleUrls
  | .grpc => clients.regions

/-- The failure of a client without endpoints. -/
def noContender : Path → SendError
  | .rest => .noEndpoints
  | .grpc => .noRegions

inductive Reply where
  | http (reply : HttpReply)
  | grpc (reply : GrpcReply)

/-- The answer of the endpoint at a position, from a reply of its path. -/
def Clients.answer (clients : Clients) (path : Path) (k : Nat) (reply : Reply) :
    Option (Except SendError String) :=
  match path, reply with
  | .rest, .http reply => clients.bundleUrls[k]?.map fun url => sendToEndpoint url reply
  | .grpc, .grpc reply => clients.regions[k]?.map fun endpoint => regionAnswer endpoint reply
  | _, _ => none

/-! ## The broadcasts -/

/-- An endpoint is asked to take the bundle of an item. -/
structure Post where
  id : Nat
  path : Path
  endpoint : Nat
  deriving DecidableEq, Repr

/-- What an endpoint replies to a post. -/
structure PostReply where
  post : Post
  reply : Reply

/-- A call of `send_bundle`. -/
structure BundleCall where
  path : Path
  race : Race String SendError

/-- The pipeline with the calls of `send_bundle`, by item. A verdict is the result that a worker
has read. -/
structure Broadcasting where
  pool : Pool Shared Task
  calls : Nat → Option BundleCall
  posts : List Post
  replies : List PostReply
  verdicts : List (Nat × Bool)

inductive BroadcastLabel where
  | task (i : Nat) (choice : Choice)
  /-- The call of an item asks an endpoint. -/
  | ask (id endpoint : Nat)
  | reply (id endpoint : Nat) (reply : Reply)
  /-- The call of an item has no endpoint left. -/
  | close (id : Nat)

/-- Whether a finished call returns a bundle id. -/
def BundleCall.verdict (call : BundleCall) : Option Bool :=
  call.race.outcome.map fun result => result.isOk

namespace Broadcasting

/-- The calls after a step of a task. -/
def follow (cfg : Settings) (clients : Clients) (b : Broadcasting) (pool : Pool Shared Task)
    (task : Task) (choice : Choice) : Option Broadcasting :=
  match task.pending, task.stage, choice with
  | [], .send item grant, _ =>
      let path := pathOf cfg grant
      let call := { path := path, race := .new (clients.endpoints path).length }
      some { b with pool := pool, calls := Function.update b.calls item.id (some call) }
  | [], .sending item, .sent ok =>
      match b.calls item.id with
      | none => none
      | some call =>
          if call.verdict = some ok then
            some { b with pool := pool, verdicts := b.verdicts ++ [(item.id, ok)] }
          else none
  | _, _, _ => some { b with pool := pool }

/-- The call of an item goes on. -/
def update (b : Broadcasting) (id : Nat) (path : Path)
    (race : Option (Race String SendError)) : Option Broadcasting :=
  race.map fun race =>
    { b with calls := Function.update b.calls id (some { path := path, race := race }) }

def step (cfg : Settings) (clients : Clients) (b : Broadcasting) :
    BroadcastLabel → Option Broadcasting
  | .task i choice =>
      match b.pool.tasks[i]?, (pipeline cfg).next b.pool i choice with
      | some task, some pool => b.follow cfg clients pool task choice
      | _, _ => none
  | .ask id endpoint =>
      match b.calls id with
      | none => none
      | some call =>
          let post := { id := id, path := call.path, endpoint := endpoint }
          { b with posts := b.posts ++ [post] }.update id call.path (call.race.start endpoint)
  | .reply id endpoint reply =>
      match b.calls id with
      | none => none
      | some call =>
          match clients.answer call.path endpoint reply with
          | none => none
          | some result =>
              let replied : PostReply := {
                post := { id := id, path := call.path, endpoint := endpoint }
                reply := reply }
              { b with replies := b.replies ++ [replied] }.update id call.path
                (call.race.answer endpoint result)
  | .close id =>
      match b.calls id with
      | none => none
      | some call => b.update id call.path (call.race.close (noContender call.path))

end Broadcasting

/-- The pipeline at its start, without calls. -/
def Settings.broadcast (cfg : Settings) (now : Nat) (store : StoreInner) : Broadcasting where
  pool := cfg.spawn now store
  calls := fun _ => none
  posts := []
  replies := []
  verdicts := []

/-- Any interleaving of the pipeline with the answers of the endpoints. -/
def broadcastMachine (cfg : Settings) (clients : Clients) : Machine Broadcasting BroadcastLabel :=
  .ofFun (fun b => ∃ now store, oneSecond ≤ now ∧ b = cfg.broadcast now store)
    (Broadcasting.step cfg clients)

/-! ## Sends and verdicts -/

/-- The counter of a call that returns a bundle id, and of one that fails. -/
def endCounter : Bool → Counter
  | true => .jitoSent
  | false => .jitoSendFailed

/-- The updates of the counter that are still to be made. -/
def Action.ends (ok : Bool) : Action → Int
  | .add counter n => if counter = endCounter ok then n else 0
  | _ => 0

/-- The updates of the two counters. -/
def Action.isEnd : Action → Bool
  | .add .jitoSent _ | .add .jitoSendFailed _ => true
  | _ => false

theorem ends_of_not_isEnd (ok : Bool) {action : Action} (other : action.isEnd = false) :
    action.ends ok = 0 := by
  cases action with
  | add counter n =>
      refine if_neg ?_
      rintro rfl
      cases ok <;> cases other
  | _ => rfl

def Task.ends (ok : Bool) (task : Task) : Int := (task.pending.map (Action.ends ok)).sum

/-- Whether a worker waits for the call of an item. -/
def Task.awaits (id : Nat) (task : Task) : Nat :=
  match task.stage with
  | .sending item => if item.id = id then 1 else 0
  | _ => 0

section Runs

variable {cfg : Settings} {s s' : Shared} {task : Task} {tasks : List Task} {choice : Choice}
  {item : ReadyInstruction} {grant : Grant}

/-- A send starts the wait for its call. -/
theorem run_send (ran : (pipeline cfg).run s (Stage.send item grant).task choice =
      some (s', tasks)) :
    s' = { s with sends := s.sends ++ [started cfg s.now item grant] } ∧
      tasks = [(Stage.sending item).task] := by
  cases choice with
  | go =>
      cases ran
      exact ⟨rfl, rfl⟩
  | _ => cases ran

/-- A verdict ends the wait and is counted once. -/
theorem run_verdict {ok : Bool} (ran : (pipeline cfg).run s (Stage.sending item).task (.sent ok) =
      some (s', tasks)) :
    s' = s ∧ (∀ id, (tasks.map (Task.awaits id)).sum = 0) ∧
      ∀ ok', (tasks.map (Task.ends ok')).sum = if ok = ok' then 1 else 0 := by
  cases ok with
  | true =>
      cases ran
      refine ⟨rfl, fun _ => rfl, fun ok' => ?_⟩
      cases ok' <;> rfl
  | false =>
      cases ran
      refine ⟨rfl, fun _ => rfl, fun ok' => ?_⟩
      cases ok' <;> rfl

theorem metrics_perform (ok : Bool) (action : Action) :
    (perform cfg s action).metrics (endCounter ok) =
      s.metrics (endCounter ok) + action.ends ok := by
  cases action with
  | add counter n =>
      by_cases same : counter = endCounter ok
      · subst same
        simp [perform, Action.ends]
      · simp [perform, Action.ends, same, Function.update_of_ne (Ne.symm same)]
  | _ => exact (add_zero _).symm

/-- A task that neither waits for a call nor counts one. -/
structure Task.Calm (task : Task) : Prop where
  awaits : ∀ id, task.awaits id = 0
  ends : ∀ ok, task.ends ok = 0

theorem calm_of_pending {pending : List Action} {stage : Stage}
    (noVerdict : ∀ item, stage ≠ .sending item)
    (others : ∀ action ∈ pending, action.isEnd = false) :
    ({ pending := pending, stage := stage } : Task).Calm where
  awaits id := by
    cases stage with
    | sending item => exact absurd rfl (noVerdict item)
    | _ => rfl
  ends ok := List.sum_eq_zero
    (List.forall_mem_map.mpr fun action member => ends_of_not_isEnd ok (others action member))

theorem calm_task {stage : Stage} (noVerdict : ∀ item, stage ≠ .sending item) : stage.task.Calm :=
  calm_of_pending noVerdict fun _ member => absurd member List.not_mem_nil

/-- No other decision sends, waits for a call or counts one. -/
theorem calm_of_move {stage : Stage} (move : Move cfg s stage s' tasks)
    (noSend : ∀ item grant, stage ≠ .send item grant)
    (noVerdict : ∀ item, stage ≠ .sending item) :
    s'.sends = s.sends ∧ ∀ t ∈ tasks, t.Calm := by
  cases move with
  | send item grant => exact absurd rfl (noSend item grant)
  | sent item => exact absurd rfl (noVerdict item)
  | sendFailed item => exact absurd rfl (noVerdict item)
  | quoted mint amount onlyDirect outcome =>
      refine ⟨rfl, List.forall_mem_singleton.mpr (calm_of_pending (by simp) ?_)⟩
      cases outcome <;> simp [QuoteOutcome.pending, Action.isEnd]
  | dropPair _ exit | dropBuild _ _ exit =>
      refine ⟨rfl, List.forall_mem_singleton.mpr (calm_of_pending (by simp) ?_)⟩
      simp only [pairExits, itemExits, List.mem_cons, List.not_mem_nil, or_false] at exit
      rcases exit with rfl | rfl | rfl | rfl <;> simp [drop, Action.isEnd]
  | descend store counters _ holds inside =>
      refine ⟨rfl, List.forall_mem_singleton.mpr (calm_of_pending ?_ ?_)⟩
      · rintro item rfl
        cases holds
      · refine List.forall_mem_map.mpr fun e listed => ?_
        have known := inside e listed
        simp only [scanCounters, List.mem_cons, List.not_mem_nil, or_false] at known
        rcases known with known | known | known <;> simp [known, Action.isEnd]
  | answered merged fetchMs result =>
      refine ⟨rfl, List.forall_mem_singleton.mpr ?_⟩
      cases result with
      | error e =>
          refine calm_of_pending (by simp) ?_
          cases e <;> simp [drop, SwapIxError.counter, Action.isEnd]
      | ok swapIxs =>
          refine calm_of_pending (by simp) ?_
          cases saves : cfg.saveNew <;> simp [Action.isEnd]
  | noGrpc item _ | refuseGrpc item _ _ =>
      refine ⟨rfl, List.forall_mem_singleton.mpr (calm_of_pending (by simp) ?_)⟩
      cases waited : item.waitedForSlot <;> simp [Action.isEnd]
  | push item _ next _ _ =>
      refine ⟨rfl, List.forall_mem_singleton.mpr (calm_of_pending ?_ ?_)⟩
      · rcases next with rfl | rfl <;> simp
      · simp [Action.isEnd]
  | check | spawn =>
      refine ⟨rfl, List.forall_mem_cons.mpr ⟨?_, List.forall_mem_singleton.mpr ?_⟩⟩ <;>
        exact calm_of_pending (by simp) (by simp [Action.isEnd])
  | _ =>
      refine ⟨rfl, List.forall_mem_singleton.mpr ?_⟩
      exact calm_of_pending (by simp) (by simp [drop, Action.isEnd])

/-- No other step sends, waits for a call or counts one. -/
theorem run_other (ran : (pipeline cfg).run s task choice = some (s', tasks))
    (noSend : ∀ item grant, task ≠ (Stage.send item grant).task)
    (noVerdict : ∀ item, task ≠ (Stage.sending item).task) :
    s'.sends = s.sends ∧ (∀ id, (tasks.map (Task.awaits id)).sum = task.awaits id) ∧
      ∀ ok, s'.metrics (endCounter ok) + (tasks.map (Task.ends ok)).sum =
        s.metrics (endCounter ok) + task.ends ok := by
  rcases run_cases ran with ⟨action, rest, pending, rfl, rfl⟩ | ⟨pending, move⟩
  · have sends : (perform cfg s action).sends = s.sends := by cases action <;> rfl
    refine ⟨sends, fun id => List.sum_singleton, fun ok => ?_⟩
    rw [List.map_singleton, List.sum_singleton, Task.ends, Task.ends, pending, List.map_cons,
      List.sum_cons, ← add_assoc, metrics_perform]
  · rcases task with ⟨actions, stage⟩
    obtain rfl : actions = [] := pending
    have noVerdict' : ∀ item, stage ≠ .sending item := fun item same =>
      noVerdict item (congrArg Stage.task same)
    obtain ⟨sends, calm⟩ := calm_of_move move
      (fun item grant same => noSend item grant (congrArg Stage.task same)) noVerdict'
    have own : ({ pending := [], stage := stage } : Task).Calm := calm_task noVerdict'
    refine ⟨sends, fun id => ?_, fun ok => ?_⟩
    · rw [own.awaits, List.sum_eq_zero]
      exact List.forall_mem_map.mpr fun t member => (calm t member).awaits id
    · rw [(metrics_of_move move).1, own.ends, List.sum_eq_zero]
      exact List.forall_mem_map.mpr fun t member => (calm t member).ends ok

end Runs

/-! ## Calls and asks -/

/-- The endpoint at a position has replied with this result for an item. -/
def Clients.Replied (clients : Clients) (replies : List PostReply) (id : Nat) (path : Path)
    (k : Nat) (result : Except SendError String) : Prop :=
  ∃ reply, ⟨{ id := id, path := path, endpoint := k }, reply⟩ ∈ replies ∧
    clients.answer path k reply = some result

theorem Clients.Replied.later {clients : Clients} {replies : List PostReply} {id : Nat}
    {path : Path} {k : Nat} {result : Except SendError String} (new : List PostReply)
    (replied : clients.Replied replies id path k result) :
    clients.Replied (replies ++ new) id path k result := by
  obtain ⟨reply, listed, shown⟩ := replied
  exact ⟨reply, List.mem_append_left _ listed, shown⟩

/-- The race of the call for an item is one between the endpoints of its path, from their
replies. -/
structure BundleCall.Sound (clients : Clients) (replies : List PostReply) (id : Nat)
    (path : Path) (race : Race String SendError) : Prop where
  sound : race.Sound (clients.endpoints path).length (noContender path)
  replies : race.Answers (clients.Replied replies id path)

theorem BundleCall.Sound.later {clients : Clients} {replies : List PostReply} {id : Nat}
    {path : Path} {race : Race String SendError} (new : List PostReply)
    (kept : BundleCall.Sound clients replies id path race) :
    BundleCall.Sound clients (replies ++ new) id path race :=
  ⟨kept.sound, kept.replies.mono fun _ _ replied => replied.later new⟩

namespace Broadcasting

/-- What a step of a task does to the calls: it starts one, reads the result of one or leaves
them alone. -/
theorem follow_cases {cfg : Settings} {clients : Clients} {b b' : Broadcasting}
    {pool : Pool Shared Task} {task : Task} {choice : Choice}
    (followed : b.follow cfg clients pool task choice = some b') :
    (∃ item grant, task = (Stage.send item grant).task ∧
      b' = { b with
        pool := pool
        calls := Function.update b.calls item.id (some {
          path := pathOf cfg grant
          race := .new (clients.endpoints (pathOf cfg grant)).length }) }) ∨
    (∃ item ok call, task = (Stage.sending item).task ∧ choice = .sent ok ∧
      b.calls item.id = some call ∧ call.verdict = some ok ∧
        b' = { b with pool := pool, verdicts := b.verdicts ++ [(item.id, ok)] }) ∨
    ((∀ item grant, task ≠ (Stage.send item grant).task) ∧
      (∀ item ok, task = (Stage.sending item).task → choice ≠ .sent ok) ∧
        b' = { b with pool := pool }) := by
  rcases task with ⟨actions, stage⟩
  unfold follow at followed
  split at followed
  · rename_i _ item grant none_ atSend
    obtain rfl : actions = [] := none_
    obtain rfl : stage = .send item grant := atSend
    cases followed
    exact Or.inl ⟨item, grant, rfl, rfl⟩
  · rename_i item ok none_ waits
    obtain rfl : actions = [] := none_
    obtain rfl : stage = .sending item := waits
    split at followed
    · cases followed
    · rename_i call called
      split at followed
      · rename_i outcome
        cases followed
        exact Or.inr (Or.inl ⟨item, ok, call, rfl, rfl, called, outcome, rfl⟩)
      · cases followed
  · rename_i notSend notRead
    cases followed
    refine Or.inr (Or.inr ⟨?_, ?_, rfl⟩)
    · intro item grant same
      cases same
      exact notSend item grant rfl rfl
    · intro item ok same chosen
      cases same
      exact notRead item ok rfl rfl chosen

/-- The calls are those of the sends, the asks and the replies those of their races, and a
verdict is the outcome of a race. -/
structure Sound (cfg : Settings) (clients : Clients) (b : Broadcasting) : Prop where
  reached : (pipelineMachine cfg).Reach Machine.anyStep b.pool
  calls : ∀ id call, b.calls id = some call →
    (∃ e ∈ b.pool.shared.sends, e.id = id ∧ e.path = call.path) ∧
      BundleCall.Sound clients b.replies id call.path call.race
  asked : ∀ post ∈ b.posts, ∃ call, b.calls post.id = some call ∧ post.path = call.path ∧
    post.endpoint ∈ call.race.started
  posted : ∀ id call, b.calls id = some call → ∀ k ∈ call.race.started,
    { id := id, path := call.path, endpoint := k } ∈ b.posts
  once : b.posts.Nodup
  answered : ∀ r ∈ b.replies, ∃ call, b.calls r.post.id = some call ∧
    r.post.path = call.path ∧ r.post.endpoint ∈ call.race.answered
  repliedOnce : (b.replies.map PostReply.post).Nodup
  verdicts : ∀ v ∈ b.verdicts, ∃ call, b.calls v.1 = some call ∧ call.verdict = some v.2
  awaited : ∀ id, b.pool.total (fun _ => 0) (Task.awaits id) + b.verdicts.countP (·.1 = id) =
    b.pool.shared.sends.countP (·.id = id)
  counted : ∀ ok, b.pool.total (fun s => s.metrics (endCounter ok)) (Task.ends ok) =
    b.verdicts.countP (·.2 = ok)

section Steps

variable {cfg : Settings} {clients : Clients} {b b' : Broadcasting}

/-- What is sent has not been sent before. -/
theorem Sound.fresh (sound : b.Sound cfg clients) {pool : Pool Shared Task} {i : Nat}
    {choice : Choice} {e : Send} (went : (pipeline cfg).next b.pool i choice = some pool)
    (sends : pool.shared.sends = b.pool.shared.sends ++ [e]) : b.calls e.id = none := by
  have after : (pipelineMachine cfg).Reach Machine.anyStep pool :=
    sound.reached.step (i := (i, choice)) trivial went
  have distinct := sends_nodup after
  rw [sends, List.map_append, List.nodup_append] at distinct
  by_contra present
  obtain ⟨call, present⟩ := Option.ne_none_iff_exists'.mp present
  obtain ⟨⟨e', member, same, -⟩, -⟩ := sound.calls e.id call present
  exact distinct.2.2 e'.id (List.mem_map_of_mem member) _ (List.mem_singleton_self _) same

/-- A call starts without asks. -/
theorem Sound.send (sound : b.Sound cfg clients) {i : Nat} {choice : Choice}
    {pool : Pool Shared Task} {item : ReadyInstruction} {grant : Grant}
    (found : b.pool.tasks[i]? = some (Stage.send item grant).task)
    (went : (pipeline cfg).next b.pool i choice = some pool) :
    Sound cfg clients { b with
      pool := pool
      calls := Function.update b.calls item.id (some {
        path := pathOf cfg grant
        race := .new (clients.endpoints (pathOf cfg grant)).length }) } := by
  have reached : (pipelineMachine cfg).Reach Machine.anyStep pool :=
    sound.reached.step (i := (i, choice)) trivial went
  rcases System.next_eq_some_iff.mp went with ⟨task, shared, tasks, found', ran, rfl⟩
  obtain rfl := Option.some.inj (found.symm.trans found')
  obtain ⟨rfl, rfl⟩ := run_send ran
  have fresh := sound.fresh went rfl
  have unasked : ∀ {id call}, b.calls id = some call → id ≠ item.id := by
    rintro id call called rfl
    rw [show b.calls item.id = none from fresh] at called
    cases called
  refine ⟨reached, ?_, ?_, ?_, sound.once, ?_, sound.repliedOnce, ?_, ?_, ?_⟩
  · intro id call called
    by_cases own : id = item.id
    · subst own
      simp only [Function.update_self] at called
      cases called
      exact ⟨⟨_, List.mem_append_right _ (List.mem_singleton_self _), rfl, rfl⟩,
        Race.sound_new _ _, Race.answers_new _ _⟩
    · simp only [Function.update_of_ne own] at called
      obtain ⟨⟨e, member, same⟩, race⟩ := sound.calls id call called
      exact ⟨⟨e, List.mem_append_left _ member, same⟩, race⟩
  · intro post member
    obtain ⟨call, called, asked⟩ := sound.asked post member
    exact ⟨call, (Function.update_of_ne (unasked called) _ _).trans called, asked⟩
  · intro id call called k member
    by_cases own : id = item.id
    · subst own
      simp only [Function.update_self] at called
      cases called
      cases member
    · simp only [Function.update_of_ne own] at called
      exact sound.posted id call called k member
  · intro r member
    obtain ⟨call, called, answered⟩ := sound.answered r member
    exact ⟨call, (Function.update_of_ne (unasked called) _ _).trans called, answered⟩
  · intro v member
    obtain ⟨call, called, verdict⟩ := sound.verdicts v member
    exact ⟨call, (Function.update_of_ne (unasked called) _ _).trans called, verdict⟩
  · intro id
    have before := sound.awaited id
    rw [Pool.total_eq_add found] at before
    rw [Pool.total_replaced, List.countP_append]
    have own : ([(Stage.sending item).task].map (Task.awaits id)).sum =
        [started cfg b.pool.shared.now item grant].countP (·.id = id) := by
      by_cases same : item.id = id <;> simp [Task.awaits, Stage.task, started, same]
    have other : (Stage.send item grant).task.awaits id = 0 := rfl
    rw [own]
    dsimp only
    omega
  · intro ok
    have before := sound.counted ok
    rw [Pool.total_eq_add found] at before
    rw [Pool.total_replaced]
    exact before

/-- A verdict is the outcome of the call. -/
theorem Sound.verdict (sound : b.Sound cfg clients) {i : Nat} {ok : Bool}
    {pool : Pool Shared Task} {item : ReadyInstruction} {call : BundleCall}
    (found : b.pool.tasks[i]? = some (Stage.sending item).task)
    (went : (pipeline cfg).next b.pool i (.sent ok) = some pool)
    (called : b.calls item.id = some call) (outcome : call.verdict = some ok) :
    Sound cfg clients { b with pool := pool, verdicts := b.verdicts ++ [(item.id, ok)] } := by
  have reached : (pipelineMachine cfg).Reach Machine.anyStep pool :=
    sound.reached.step (i := (i, .sent ok)) trivial went
  rcases System.next_eq_some_iff.mp went with ⟨task, shared, tasks, found', ran, rfl⟩
  obtain rfl := Option.some.inj (found.symm.trans found')
  obtain ⟨rfl, awaits, ends⟩ := run_verdict ran
  refine ⟨reached, sound.calls, sound.asked, sound.posted, sound.once, sound.answered,
    sound.repliedOnce, ?_, ?_, ?_⟩
  · refine List.forall_mem_append.mpr ⟨sound.verdicts, List.forall_mem_singleton.mpr ?_⟩
    exact ⟨call, called, outcome⟩
  · intro id
    have before := sound.awaited id
    rw [Pool.total_eq_add found] at before
    have own : (Stage.sending item).task.awaits id =
        [(item.id, ok)].countP fun v => v.1 = id := by
      by_cases same : item.id = id <;> simp [Task.awaits, Stage.task, same]
    rw [Pool.total_replaced, awaits, List.countP_append, ← own]
    dsimp only
    omega
  · intro ok'
    have before := sound.counted ok'
    rw [Pool.total_eq_add found] at before
    have own : (if ok = ok' then 1 else 0 : Int) =
        [(item.id, ok)].countP fun v => v.2 = ok' := by
      by_cases same : ok = ok' <;> simp [same]
    have nothing : (Stage.sending item).task.ends ok' = 0 := rfl
    rw [Pool.total_replaced, ends, List.countP_append, own]
    omega

/-- Another step of a task leaves the calls alone. -/
theorem Sound.other (sound : b.Sound cfg clients) {i : Nat} {choice : Choice} {task : Task}
    {pool : Pool Shared Task} (found : b.pool.tasks[i]? = some task)
    (went : (pipeline cfg).next b.pool i choice = some pool)
    (noSend : ∀ item grant, task ≠ (Stage.send item grant).task)
    (noVerdict : ∀ item ok, task = (Stage.sending item).task → choice ≠ .sent ok) :
    Sound cfg clients { b with pool := pool } := by
  have reached : (pipelineMachine cfg).Reach Machine.anyStep pool :=
    sound.reached.step (i := (i, choice)) trivial went
  rcases System.next_eq_some_iff.mp went with ⟨task', shared, tasks, found', ran, rfl⟩
  obtain rfl := Option.some.inj (found.symm.trans found')
  have notSending : ∀ item, task ≠ (Stage.sending item).task := by
    rintro item rfl
    cases choice with
    | sent ok => exact noVerdict item ok rfl rfl
    | _ => cases ran
  obtain ⟨sends, awaits, ends⟩ := run_other ran noSend notSending
  refine ⟨reached, ?_, sound.asked, sound.posted, sound.once, sound.answered, sound.repliedOnce,
    sound.verdicts, ?_, ?_⟩
  · intro id call called
    dsimp only
    rw [sends]
    exact sound.calls id call called
  · intro id
    have before := sound.awaited id
    rw [Pool.total_eq_add found] at before
    rw [Pool.total_replaced, awaits]
    dsimp only
    rw [sends]
    exact before
  · intro ok
    have before := sound.counted ok
    rw [Pool.total_eq_add found] at before
    rw [Pool.total_replaced, ends]
    exact before

theorem Sound.task (sound : b.Sound cfg clients) {i : Nat} {choice : Choice}
    (went : b.step cfg clients (.task i choice) = some b') : b'.Sound cfg clients := by
  simp only [step] at went
  split at went
  · rename_i task pool found next
    rcases follow_cases went with ⟨item, grant, rfl, rfl⟩ |
      ⟨item, ok, call, rfl, rfl, called, outcome, rfl⟩ | ⟨noSend, noVerdict, rfl⟩
    · exact sound.send found next
    · exact sound.verdict found next called outcome
    · exact sound.other found next noSend noVerdict
  · cases went

/-- An open call goes on, with the asks of the endpoints that its race has started and the
replies of those that have answered. -/
theorem Sound.goesOn (sound : b.Sound cfg clients) {id : Nat} {call : BundleCall}
    {race : Race String SendError} (new : List Nat) (replies : List (Nat × Reply))
    (called : b.calls id = some call) (isOpen : call.race.outcome = none)
    (asks : race.started = call.race.started ++ new)
    (answers : race.answered = call.race.answered ++ replies.map Prod.fst)
    (kept : BundleCall.Sound clients (b.replies ++ replies.map fun r =>
      ⟨{ id := id, path := call.path, endpoint := r.1 }, r.2⟩) id call.path race) :
    Sound cfg clients { b with
      posts := b.posts ++ new.map fun k => { id := id, path := call.path, endpoint := k }
      replies := b.replies ++ replies.map fun r =>
        ⟨{ id := id, path := call.path, endpoint := r.1 }, r.2⟩
      calls := Function.update b.calls id (some { path := call.path, race := race }) } := by
  have started := kept.sound.nodup_started
  have answered := kept.sound.nodup_answered
  rw [asks, List.nodup_append] at started
  rw [answers, List.nodup_append] at answered
  refine ⟨sound.reached, ?_, ?_, ?_, ?_, ?_, ?_, ?_, sound.awaited, sound.counted⟩
  · intro id' call' called'
    by_cases own : id' = id
    · subst own
      simp only [Function.update_self] at called'
      cases called'
      exact ⟨(sound.calls id' call called).1, kept⟩
    · simp only [Function.update_of_ne own] at called'
      exact ⟨(sound.calls id' call' called').1, (sound.calls id' call' called').2.later _⟩
  · refine List.forall_mem_append.mpr ⟨?_, List.forall_mem_map.mpr ?_⟩
    · intro post member
      obtain ⟨call', called', path, started⟩ := sound.asked post member
      by_cases own : post.id = id
      · subst own
        cases called.symm.trans called'
        refine ⟨_, Function.update_self _ _ _, path, ?_⟩
        rw [asks]
        exact List.mem_append_left _ started
      · exact ⟨call', (Function.update_of_ne own _ _).trans called', path, started⟩
    · intro k member
      refine ⟨_, Function.update_self _ _ _, rfl, ?_⟩
      rw [asks]
      exact List.mem_append_right _ member
  · intro id' call' called' k member
    by_cases own : id' = id
    · subst own
      simp only [Function.update_self] at called'
      cases called'
      rw [asks] at member
      rcases List.mem_append.mp member with earlier | added
      · exact List.mem_append_left _ (sound.posted id' call called k earlier)
      · exact List.mem_append_right _ (List.mem_map_of_mem added)
    · simp only [Function.update_of_ne own] at called'
      exact List.mem_append_left _ (sound.posted id' call' called' k member)
  · refine List.nodup_append.mpr ⟨sound.once, ?_, ?_⟩
    · exact started.2.1.map fun k k' same => congrArg Post.endpoint same
    · rintro post member _ added rfl
      rcases List.mem_map.mp added with ⟨k, fresh, rfl⟩
      obtain ⟨call', called', -, before⟩ := sound.asked _ member
      cases called.symm.trans called'
      exact started.2.2 k before k fresh rfl
  · refine List.forall_mem_append.mpr ⟨?_, List.forall_mem_map.mpr ?_⟩
    · intro r member
      obtain ⟨call', called', path, before⟩ := sound.answered r member
      by_cases own : r.post.id = id
      · subst own
        cases called.symm.trans called'
        refine ⟨_, Function.update_self _ _ _, path, ?_⟩
        rw [answers]
        exact List.mem_append_left _ before
      · exact ⟨call', (Function.update_of_ne own _ _).trans called', path, before⟩
    · intro r member
      refine ⟨_, Function.update_self _ _ _, rfl, ?_⟩
      rw [answers]
      exact List.mem_append_right _ (List.mem_map_of_mem member)
  · rw [List.map_append, List.map_map]
    refine List.nodup_append.mpr ⟨sound.repliedOnce, ?_, ?_⟩
    · have again : replies.map (PostReply.post ∘ fun r =>
          ⟨{ id := id, path := call.path, endpoint := r.1 }, r.2⟩) =
          (replies.map Prod.fst).map fun k => { id := id, path := call.path, endpoint := k } := by
        rw [List.map_map]
        rfl
      rw [again]
      exact answered.2.1.map fun k k' same => congrArg Post.endpoint same
    · rintro post member _ added rfl
      rcases List.mem_map.mp added with ⟨r, fresh, rfl⟩
      rcases List.mem_map.mp member with ⟨r', member', same⟩
      obtain ⟨call', called', -, before⟩ := sound.answered r' member'
      rw [same] at called' before
      cases called.symm.trans called'
      exact answered.2.2 r.1 before r.1 (List.mem_map_of_mem fresh) rfl
  · intro v member
    obtain ⟨call', called', outcome⟩ := sound.verdicts v member
    have other : v.1 ≠ id := by
      rintro rfl
      cases called.symm.trans called'
      rw [BundleCall.verdict, isOpen] at outcome
      cases outcome
    exact ⟨call', (Function.update_of_ne other _ _).trans called', outcome⟩

theorem Sound.step (sound : b.Sound cfg clients) {label : BroadcastLabel}
    (went : b.step cfg clients label = some b') : b'.Sound cfg clients := by
  cases label with
  | task i choice => exact sound.task went
  | ask id endpoint =>
      simp only [Broadcasting.step] at went
      split at went
      · cases went
      · rename_i call called
        rcases Option.map_eq_some_iff.mp went with ⟨race, asked, rfl⟩
        obtain ⟨isOpen, started, answered⟩ := Race.grown_start asked
        have before := (sound.calls id call called).2
        have after := sound.goesOn [endpoint] [] called isOpen started
          (by rw [answered, List.map_nil, List.append_nil])
          ⟨before.sound.start asked, (before.later _).replies.start asked⟩
        rw [List.map_nil, List.append_nil] at after
        exact after
  | reply id endpoint reply =>
      simp only [Broadcasting.step] at went
      split at went
      · cases went
      · rename_i call called
        split at went
        · cases went
        · rename_i result shown
          rcases Option.map_eq_some_iff.mp went with ⟨race, gave, rfl⟩
          obtain ⟨isOpen, started, answered⟩ := Race.grown_answer gave
          have before := (sound.calls id call called).2
          have replied : clients.Replied (b.replies ++
              [⟨{ id := id, path := call.path, endpoint := endpoint }, reply⟩]) id call.path
                endpoint result :=
            ⟨reply, List.mem_append_right _ (List.mem_singleton_self _), shown⟩
          have after := sound.goesOn [] [(endpoint, reply)] called isOpen
            (by rw [started, List.append_nil]) answered
            ⟨before.sound.answer gave, (before.later _).replies.answer replied gave⟩
          rw [List.map_nil, List.append_nil] at after
          exact after
  | close id =>
      simp only [Broadcasting.step] at went
      split at went
      · cases went
      · rename_i call called
        rcases Option.map_eq_some_iff.mp went with ⟨race, closed, rfl⟩
        obtain ⟨isOpen, started, answered⟩ := Race.grown_close closed
        have before := (sound.calls id call called).2
        have after := sound.goesOn [] [] called isOpen
          (by rw [started, List.append_nil]) (by rw [answered, List.map_nil, List.append_nil])
          ⟨before.sound.close closed, (before.later _).replies.close closed⟩
        rw [List.map_nil, List.append_nil, List.map_nil, List.append_nil] at after
        exact after

theorem sound_start (cfg : Settings) (clients : Clients) {now : Nat} (store : StoreInner)
    (late : oneSecond ≤ now) : (cfg.broadcast now store).Sound cfg clients where
  reached := .ofStart ⟨now, store, late, rfl⟩
  calls _ _ called := nomatch called
  asked _ member := absurd member List.not_mem_nil
  posted _ _ called := nomatch called
  once := List.nodup_nil
  answered _ member := absurd member List.not_mem_nil
  repliedOnce := List.nodup_nil
  verdicts _ member := absurd member List.not_mem_nil
  awaited id := by
    have nobody : (cfg.spawn now store).total (fun _ => 0) (Task.awaits id) = 0 :=
      cfg.total_spawn now store rfl rfl rfl rfl
    exact nobody
  counted ok := by
    refine (cfg.total_spawn now store rfl rfl rfl rfl).trans ?_
    cases ok <;> rfl

end Steps

/-- What is asked, what is replied and what is counted. -/
structure Delivers (clients : Clients) (b : Broadcasting) : Prop where
  /-- An item is sent once. -/
  sent : (b.pool.shared.sends.map Send.id).Nodup
  /-- No endpoint is asked twice for an item. -/
  once : (b.posts.map fun post => (post.id, post.endpoint)).Nodup
  /-- An item is asked for on the path of its send. -/
  onePath : ∀ post ∈ b.posts, ∃ e ∈ b.pool.shared.sends, e.id = post.id ∧ e.path = post.path
  /-- The replies are those of the endpoints that were asked, and none replies twice. -/
  replied : (∀ r ∈ b.replies, r.post ∈ b.posts) ∧ (b.replies.map PostReply.post).Nodup
  /-- What is judged was sent, and nothing is judged twice. -/
  judged : (b.verdicts.map Prod.fst).Nodup ∧
    ∀ v ∈ b.verdicts, ∃ e ∈ b.pool.shared.sends, e.id = v.1
  /-- An endpoint of its path has replied that it accepts the bundle of an item that counts as
  sent. -/
  accepted : ∀ e ∈ b.pool.shared.sends, (e.id, true) ∈ b.verdicts → ∃ k bundleId,
    clients.Replied b.replies e.id e.path k (.ok bundleId)
  /-- Every endpoint of its path has replied with a failure for an item that counts as failed. -/
  failed : ∀ e ∈ b.pool.shared.sends, (e.id, false) ∈ b.verdicts →
    ∀ k < (clients.endpoints e.path).length, ∃ err,
      clients.Replied b.replies e.id e.path k (.error err)
  /-- The counters count the items. -/
  counted : (∀ task ∈ b.pool.tasks, task.pending = []) → ∀ ok,
    b.pool.shared.metrics (endCounter ok) = b.verdicts.countP (·.2 = ok)

/-- The call of a send is on its path. -/
theorem Sound.callOf {cfg : Settings} {clients : Clients} {b : Broadcasting}
    (sound : b.Sound cfg clients) {e : Send} {ok : Bool} (member : e ∈ b.pool.shared.sends)
    (judged : (e.id, ok) ∈ b.verdicts) :
    ∃ call : BundleCall, call.path = e.path ∧ call.verdict = some ok ∧
      BundleCall.Sound clients b.replies e.id e.path call.race := by
  obtain ⟨call, called, outcome⟩ := sound.verdicts _ judged
  obtain ⟨⟨e', member', id, path⟩, kept⟩ := sound.calls e.id call called
  obtain rfl := List.inj_on_of_nodup_map (sends_nodup sound.reached) member' member id
  exact ⟨call, path.symm, outcome, path ▸ kept⟩

end Broadcasting

/-- **The broadcasts.** -/
theorem bundles_broadcast {cfg : Settings} {clients : Clients} {b : Broadcasting}
    (reached : (broadcastMachine cfg clients).Reach Machine.anyStep b) : b.Delivers clients := by
  have sound : b.Sound cfg clients := by
    refine reached.invariant (Broadcasting.Sound cfg clients) ?_ ?_
    · rintro b ⟨now, store, late, rfl⟩
      exact Broadcasting.sound_start cfg clients store late
    · exact fun b label b' before _ went => before.step went
  refine ⟨sends_nodup sound.reached, ?_, ?_, ⟨?_, sound.repliedOnce⟩, ⟨?_, ?_⟩, ?_, ?_, ?_⟩
  · refine List.Nodup.map_on ?_ sound.once
    rintro ⟨id, path, k⟩ member ⟨id', path', k'⟩ member' same
    cases same
    obtain ⟨call, called, own, -⟩ := sound.asked _ member
    obtain ⟨call', called', own', -⟩ := sound.asked _ member'
    cases called.symm.trans called'
    rw [show path = path' from own.trans own'.symm]
  · intro post member
    obtain ⟨call, called, path, -⟩ := sound.asked post member
    obtain ⟨⟨e, sent, id, same⟩, -⟩ := sound.calls post.id call called
    exact ⟨e, sent, id, same.trans path.symm⟩
  · rintro ⟨⟨id, path, k⟩, reply⟩ member
    obtain ⟨call, called, same, answered⟩ := sound.answered _ member
    have started := (sound.calls id call called).2.sound.started.symm.subset
      (List.mem_append_right _ answered)
    rw [show path = call.path from same]
    exact sound.posted id call called k started
  · rw [List.nodup_iff_count_le_one]
    intro id
    have unsent := List.nodup_iff_count_le_one.mp (sends_nodup sound.reached) id
    have awaited := sound.awaited id
    rw [List.count, List.countP_map] at unsent ⊢
    have verdicts : b.verdicts.countP ((· == id) ∘ Prod.fst) = b.verdicts.countP (·.1 = id) :=
      List.countP_congr (by simp)
    have sends : b.pool.shared.sends.countP ((· == id) ∘ Send.id) =
        b.pool.shared.sends.countP (·.id = id) := List.countP_congr (by simp)
    omega
  · intro v member
    obtain ⟨call, called, -⟩ := sound.verdicts v member
    obtain ⟨⟨e, sent, id, -⟩, -⟩ := sound.calls v.1 call called
    exact ⟨e, sent, id⟩
  · intro e member judged
    obtain ⟨call, path, outcome, kept⟩ := sound.callOf member judged
    rcases Option.map_eq_some_iff.mp outcome with ⟨result, ended, isOk⟩
    rcases result with err | ⟨k, bundleId⟩
    · cases isOk
    · exact ⟨k, bundleId, kept.replies.won k bundleId ended⟩
  · intro e member judged k below
    obtain ⟨call, path, outcome, kept⟩ := sound.callOf member judged
    rcases Option.map_eq_some_iff.mp outcome with ⟨result, ended, isOk⟩
    rcases result with err | won
    · obtain ⟨failed, -, -⟩ := kept.sound.all_failed_of_lost ended
      rcases List.mem_map.mp (failed.symm.subset (List.mem_range.mpr below)) with
        ⟨⟨k', err'⟩, member', rfl⟩
      exact ⟨err', kept.replies.failed _ member'⟩
    · cases isOk
  · intro idle ok
    have counted := sound.counted ok
    rw [Pool.total, List.sum_eq_zero, add_zero] at counted
    · exact counted
    · refine List.forall_mem_map.mpr fun task member => ?_
      rw [Task.ends, idle task member]
      rfl

/-! ### One region refuses, the other accepts or refuses too -/

def twoEndpoints : Clients :=
  .new ["https://ny.mainnet.block-engine.jito.wtf/", "https://tokyo.mainnet.block-engine.jito.wtf"]
    "u" ["https://ny.mainnet.block-engine.jito.wtf"]

def rateLimited : Reply :=
  .http (.response { code := 429, reason := "Too Many Requests" } none none)

/-- An item is sent, asked for at both endpoints and refused by the first one. -/
def refusedOnce : List BroadcastLabel :=
  (arrival 1 ++ acquisition 5 ++ submission 5).map (fun label => .task label.1 label.2) ++
    [.ask 0 1, .ask 0 0, .reply 0 0 rateLimited]

/-- The second one accepts it. -/
def acceptedOnce : List BroadcastLabel :=
  refusedOnce ++
    [.reply 0 1 (.http (.response { code := 200, reason := "OK" } none
        (some { result := some "bundle", error := none }))),
      .task 5 (.sent true), .task 5 .go]

def refusedTwice : List BroadcastLabel :=
  refusedOnce ++ [.reply 0 1 rateLimited, .close 0, .task 5 (.sent false), .task 5 .go]

/-- An item that counts as sent after one refusal, and one that counts as failed after two. -/
theorem bundles_broadcast_acceptedOnce :
    ∃ b b' : Broadcasting,
      (b.replies.length = 2 ∧ b.pool.shared.metrics .jitoSent = 1 ∧ b.verdicts = [(0, true)] ∧
        b.Delivers twoEndpoints) ∧
      b'.replies.length = 2 ∧ b'.pool.shared.metrics .jitoSendFailed = 1 ∧
        b'.verdicts = [(0, false)] ∧ b'.Delivers twoEndpoints := by
  have started : (broadcastMachine oneSlot twoEndpoints).start (oneSlot.broadcast oneSecond .new) :=
    ⟨oneSecond, .new, le_refl _, rfl⟩
  have accepts : (Machine.play (Broadcasting.step oneSlot twoEndpoints) Machine.anyStep
      (oneSlot.broadcast oneSecond .new) acceptedOnce).any fun b =>
        b.replies.length = 2 ∧ b.pool.shared.metrics .jitoSent = 1 ∧ b.verdicts = [(0, true)] := by
    decide
  have refuses : (Machine.play (Broadcasting.step oneSlot twoEndpoints) Machine.anyStep
      (oneSlot.broadcast oneSecond .new) refusedTwice).any fun b =>
        b.replies.length = 2 ∧ b.pool.shared.metrics .jitoSendFailed = 1 ∧
          b.verdicts = [(0, false)] := by
    decide
  rcases (Option.any_eq_true _ _).mp accepts with ⟨b, played, checked⟩
  rcases (Option.any_eq_true _ _).mp refuses with ⟨b', played', checked'⟩
  obtain ⟨replies, sent, verdicts⟩ := of_decide_eq_true checked
  obtain ⟨replies', failed, verdicts'⟩ := of_decide_eq_true checked'
  exact ⟨b, b', ⟨replies, sent, verdicts,
      bundles_broadcast (Machine.play_reach (.ofStart started) played)⟩,
    replies', failed, verdicts',
      bundles_broadcast (Machine.play_reach (.ofStart started) played')⟩

end ArbBot
