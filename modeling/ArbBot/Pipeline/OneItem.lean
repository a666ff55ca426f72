import ArbBot.Foundation.Positions
import ArbBot.Pipeline.Scan

/-!
# One item for each entry

`Flow` lists how the tasks of a call hand on an opportunity, and `Holds` what they hold of it.
With `places_le_one` it follows that the items of a call are at most one for each entry of
`all_pairs`, and that each is for the route that the quotes of its entry merge into
(`one_item_per_entry`).
-/

namespace ArbBot

open Foundation

/-! ## What an entry yields -/

/-- A check of the entry `n` ends with the pair. -/
def Yields (cfg : Settings) (entries : List ScanEntry) (n : Nat) (pair : QuotePair) : Prop :=
  ∃ entry getQuote, entries[n]? = some entry ∧
    quoteCheck getQuote entry.tokenMint entry.amount entry.onlyDirect cfg.minProfitLamports =
      .profitable pair

/-- The quotes of the entry `n` merge into the opportunity. -/
def Merges (cfg : Settings) (entries : List ScanEntry) (n : Nat) (merged : Merged) : Prop :=
  ∃ pair, Yields cfg entries n pair ∧ dispatch pair = (Stage.tier1 merged).task

section Amount

variable {cfg : Settings} {entries : List ScanEntry} {n : Nat}

theorem amount_of_quoteCheck {getQuote : GetQuote} {tokenMint : String}
    {amount minProfitLamports : UInt64} {onlyDirect : Bool} {pair : QuotePair}
    (profitable :
      quoteCheck getQuote tokenMint amount onlyDirect minProfitLamports = .profitable pair) :
    pair.amount = amount :=
  (quoteCheck_profitable profitable).1

theorem amount_of_dispatch {pair : QuotePair} {merged : Merged}
    (dispatched : dispatch pair = (Stage.tier1 merged).task) : merged.amount = pair.amount := by
  unfold dispatch at dispatched
  split at dispatched
  · cases dispatched
  · split at dispatched
    · cases dispatched
    · cases dispatched
      rfl

theorem Merges.amount {merged : Merged} (merges : Merges cfg entries n merged) :
    ∃ entry, entries[n]? = some entry ∧ merged.amount = entry.amount := by
  rcases merges with ⟨pair, ⟨entry, getQuote, found, profitable⟩, dispatched⟩
  refine ⟨entry, found, ?_⟩
  rw [amount_of_dispatch dispatched, amount_of_quoteCheck profitable]

end Amount

/-! ## How an opportunity is handed on -/

/-- Neither a push nor a pair. -/
def Action.inert (action : Action) : Bool := action.pushes?.isNone && !action.yields

def Inert (pending : List Action) : Prop := ∀ action ∈ pending, action.inert

theorem Inert.tail {action : Action} {rest : List Action} (inert : Inert (action :: rest)) :
    Inert rest :=
  fun other member => inert other (List.mem_cons_of_mem _ member)

theorem inert_nil : Inert [] := fun _ none => absurd none List.not_mem_nil

theorem inert_of_all {pending : List Action} (all : pending.all Action.inert) : Inert pending :=
  List.all_eq_true.mp all

theorem Inert.append {before after : List Action} (first : Inert before) (last : Inert after) :
    Inert (before ++ after) :=
  fun action member => (List.mem_append.mp member).elim (first action) (last action)

/-- A stage that is done with an opportunity. -/
def Stage.over : Stage → Bool
  | .scan | .finished => true
  | _ => false

/-- The decisions of the tasks of a call. -/
inductive Flow (cfg : Settings) (s : Shared) : Stage → Choice → Shared → List Task → Prop
  | check (tokenMint : String) (amount : UInt64) (onlyDirect : Bool) :
    Flow cfg s .quotes (.check tokenMint amount onlyDirect) s [{
      pending := [.add .metisReqSent 2, .addToken tokenMint .qSent 2]
      stage := .quoteCheck tokenMint amount onlyDirect }, Stage.quotes.task]
  | quoted (tokenMint : String) (amount : UInt64) (onlyDirect : Bool) (getQuote : GetQuote) :
    Flow cfg s (.quoteCheck tokenMint amount onlyDirect) (.quoted getQuote) s [{
      pending := (quoteCheck getQuote tokenMint amount onlyDirect cfg.minProfitLamports).pending
        tokenMint
      stage := .finished }]
  | take {i : Nat} {pair : QuotePair} : s.opps[i]? = some pair →
    Flow cfg s .scan (.opp i) { s with opps := s.opps.eraseIdx i } [dispatch pair]
  | hand {stage stage' : Stage} {choice : Choice} {merged : Merged} {pending : List Action}
      (store : StoreInner) :
    stage.merged? = some merged → Inert pending →
    stage'.merged? = some merged ∨ stage'.arrives ∨ stage'.over →
    Flow cfg s stage choice { s with store := store } [{ pending := pending, stage := stage' }]
  | spawn (merged : Merged) (choice : Choice) :
    Flow cfg s (.spawn merged) choice s [Stage.scan.task, (Stage.metis merged).task]
  | push {stage next : Stage} {choice : Choice} (item : ReadyInstruction) :
    stage.arrives → next.over →
    Flow cfg s stage choice { s with nextId := s.nextId + 1 }
      [{ pending := [.push item, .add .queueIn 1, .add .queueDepth 1, .addPermit]
         stage := next }]

section Flow

variable {cfg : Settings} {s s' : Shared} {stage : Stage} {choice : Choice} {tasks : List Task}

theorem inert_drop (counter : Counter) : Inert (drop counter) := inert_of_all rfl

theorem inert_add (counter : Counter) (n : Int) : Inert [.add counter n] := inert_of_all rfl

theorem inert_metisAnswer (merged : Merged) (fetchMs : Nat)
    (result : Except SwapIxError SwapInstructionsResponse) :
    Inert (metisAnswer cfg merged fetchMs result).pending := by
  cases result with
  | error e => exact (inert_drop _).append (inert_of_all rfl)
  | ok swapIxs =>
      apply Inert.append
      · exact inert_of_all rfl
      · split
        · exact inert_of_all rfl
        · exact inert_nil

theorem flow_of_serve {merged : Merged} {sig : RouteTemplate → U128} {otherwise : Stage}
    {found : Option RouteTemplate × StoreInner} (holds : stage.merged? = some merged)
    (next : otherwise.merged? = some merged)
    (decided : serve cfg s merged sig otherwise found = some (s', tasks)) :
    Flow cfg s stage choice s' tasks := by
  unfold serve at decided
  split at decided
  · cases decided
    exact .hand found.2 holds inert_nil (Or.inl next)
  · split at decided
    · cases decided
    · cases decided
      exact .hand found.2 holds inert_nil (Or.inl next)
    · cases decided
      exact .hand found.2 holds (inert_of_all rfl) (Or.inr (Or.inl rfl))

theorem flow_of_quoteStep (decided : quoteStep cfg s stage choice = some (s', tasks)) :
    Flow cfg s stage choice s' tasks := by
  unfold quoteStep at decided
  split at decided
  · cases decided
    exact .check _ _ _
  · cases decided
    exact .quoted _ _ _ _
  · cases decided

theorem flow_of_scanStep (decided : scanStep cfg s stage choice = some (s', tasks)) :
    Flow cfg s stage choice s' tasks := by
  unfold scanStep at decided
  split at decided
  · split at decided
    · cases decided
    · rename_i pair found
      cases decided
      exact .take found
  · rename_i merged
    split at decided
    · exact flow_of_serve rfl rfl decided
    · cases decided
      exact .hand s.store rfl inert_nil (Or.inl rfl)
  · rename_i merged
    dsimp only at decided
    split at decided
    · cases decided
      exact .hand s.store rfl (inert_add _ _) (Or.inl rfl)
    · split at decided
      · cases decided
        exact .hand s.store rfl (inert_add _ _) (Or.inl rfl)
      · cases decided
        exact .hand s.store rfl inert_nil (Or.inl rfl)
  · rename_i merged
    split at decided
    · exact flow_of_serve rfl rfl decided
    · cases decided
      exact .hand s.store rfl inert_nil (Or.inl rfl)
  · rename_i merged
    split at decided
    · cases decided
      exact .hand s.store rfl (inert_drop _) (Or.inr (Or.inr rfl))
    · cases decided
      exact .hand s.store rfl (inert_add _ _) (Or.inl rfl)
  · cases decided
    exact .spawn _ _
  · cases decided
    exact .push _ rfl rfl
  · cases decided

theorem flow_of_metisStep (decided : metisStep cfg s stage choice = some (s', tasks)) :
    Flow cfg s stage choice s' tasks := by
  unfold metisStep at decided
  split at decided
  · rename_i merged result fetchMs
    cases decided
    refine .hand s.store rfl (inert_metisAnswer merged fetchMs result) ?_
    cases result with
    | error e => exact Or.inr (Or.inr rfl)
    | ok swapIxs => exact Or.inr (Or.inl rfl)
  · cases decided
    exact .push _ rfl rfl
  · cases decided

/-- A stage of a task of the call. -/
def Stage.ofCall : Stage → Bool
  | .quotes | .quoteCheck _ _ _ | .scan | .tier1 _ | .tier2 _ | .tier2Route _ | .tier3 _
  | .spawn _ | .serving _ _ | .metis _ | .answered _ _ | .finished => true
  | _ => false

/-- Each decision of a task of the call is one of them. -/
theorem flow_of_decide (inside : stage.ofCall)
    (decided : decideStage cfg s stage choice = some (s', tasks)) :
    Flow cfg s stage choice s' tasks := by
  unfold decideStage at decided
  split at decided
  · cases inside
  all_goals
    first
    | exact flow_of_quoteStep decided
    | exact flow_of_scanStep decided
    | exact flow_of_metisStep decided
    | cases inside

end Flow

/-! ## What the tasks of a call hold -/

/-- What a task of the call holds of the entry it works for. -/
inductive Holds (cfg : Settings) (entries : List ScanEntry) : Origin → Task → Prop
  | idle {origin : Origin} {pending : List Action} {stage : Stage} :
    Inert pending → stage = .quotes ∨ stage.over →
    Holds cfg entries origin { pending := pending, stage := stage }
  | checks {n : Nat} {merged : Option Merged} {pending : List Action} {entry : ScanEntry} :
    Inert pending → entries[n]? = some entry →
    Holds cfg entries { entry := some n, merged := merged } {
      pending := pending
      stage := .quoteCheck entry.tokenMint entry.amount entry.onlyDirect }
  | yields {n : Nat} {merged : Option Merged} {before : List Action} {pair : QuotePair} :
    Inert before → Yields cfg entries n pair →
    Holds cfg entries { entry := some n, merged := merged }
      { pending := before ++ [.yieldPair pair], stage := .finished }
  | merges {n : Nat} {merged : Merged} {earlier : Option Merged} {pending : List Action}
      {stage : Stage} :
    Inert pending → stage.merged? = some merged → Merges cfg entries n merged →
    Holds cfg entries { entry := some n, merged := earlier } { pending := pending, stage := stage }
  | arrives {n : Nat} {merged : Merged} {pending : List Action} {stage : Stage} :
    Inert pending → stage.arrives → Merges cfg entries n merged →
    Holds cfg entries { entry := some n, merged := some merged }
      { pending := pending, stage := stage }
  | pushes {n : Nat} {merged : Merged} {item : ReadyInstruction} {rest : List Action}
      {stage : Stage} :
    Inert rest → stage.over → Merges cfg entries n merged →
    Holds cfg entries { entry := some n, merged := some merged }
      { pending := .push item :: rest, stage := stage }

/-- The tasks of the call hold what the history says, and the others touch no pair. -/
def CallTask.Right (cfg : Settings) (entries : List ScanEntry) (t : CallTask) : Prop :=
  match t.origin with
  | none => t.task.Outside
  | some origin => Holds cfg entries origin t.task

/-- The history says which entry each ready pair and each item comes from. -/
structure Accounted (cfg : Settings) (entries : List ScanEntry) (c : Call) : Prop where
  length : c.ready.length = c.shared.opps.length
  ready (i : Nat) (pair : QuotePair) : c.shared.opps[i]? = some pair →
    ∃ n, c.ready[i]? = some (some n) ∧ Yields cfg entries n pair
  pushed : ∀ pushed ∈ c.pushed, ∃ n merged, pushed.entry = some n ∧
    pushed.merged = some merged ∧ Merges cfg entries n merged

section Hold

variable {cfg : Settings} {entries : List ScanEntry} {c c' : Call} {origin : Origin}
  {stage : Stage} {choice : Choice} {s' : Shared} {tasks : List Task}

theorem right_inherit {task : Task} (holds : Holds cfg entries origin task) :
    (inherit origin task).Right cfg entries := by
  have held : Holds cfg entries (if task.between then .none else origin) task := by
    split
    · rename_i between
      rcases task with ⟨pending, stage⟩
      unfold Task.between at between
      split at between
      · rename_i empty scan
        obtain rfl : pending = [] := empty
        obtain rfl : stage = .scan := scan
        exact .idle inert_nil (Or.inr rfl)
      · rename_i empty quotes
        obtain rfl : pending = [] := empty
        exact .idle inert_nil (Or.inl quotes)
      · cases between
    · exact holds
  exact held

theorem merged_of_over (ended : stage.over) : stage.merged? = none := by
  cases stage <;> first | rfl | cases ended

theorem merged_of_arrives (arrives : stage.arrives) : stage.merged? = none := by
  cases stage <;> first | rfl | cases arrives

theorem over_of_arrives (arrives : stage.arrives) : stage.over = false := by
  cases stage <;> first | rfl | cases arrives

theorem ofCall_of_merged {merged : Merged} (holds : stage.merged? = some merged) :
    stage.ofCall := by
  cases stage <;> first | rfl | cases holds

theorem ofCall_of_arrives (arrives : stage.arrives) : stage.ofCall := by
  cases stage <;> first | rfl | cases arrives

theorem ofCall_of_over (ended : stage.over) : stage.ofCall := by
  cases stage <;> first | rfl | cases ended

/-- A pair that is dispatched is held, or dropped. -/
theorem holds_dispatch {n : Nat} {merged : Option Merged} {pair : QuotePair}
    (yields : Yields cfg entries n pair) :
    Holds cfg entries { entry := some n, merged := merged } (dispatch pair) := by
  rcases dispatch_cases pair with ⟨counter, -, same⟩ | ⟨merged, same⟩
  · rw [same]
    exact .idle (inert_drop counter) (Or.inr rfl)
  · rw [same]
    exact .merges inert_nil rfl ⟨pair, yields, same⟩

/-- What a check leaves pending: a pair at the end, or none. -/
theorem pending_cases (tokenMint : String) (outcome : QuoteOutcome) :
    (∃ pair before, outcome = .profitable pair ∧ Inert before ∧
        outcome.pending tokenMint = before ++ [.yieldPair pair]) ∨
      Inert (outcome.pending tokenMint) := by
  cases outcome with
  | profitable pair =>
      exact Or.inl ⟨pair, [.add .metisRespTotal 1, .addToken tokenMint .routeOk 1,
        .addToken tokenMint .profitable 1, .add .metisRespOk 1], rfl, inert_of_all rfl, rfl⟩
  | _ => exact Or.inr (inert_of_all rfl)

theorem Holds.ofCall {task : Task} (holds : Holds cfg entries origin task) :
    task.stage.ofCall := by
  cases holds with
  | idle _ idle =>
      rcases idle with rfl | ended
      · rfl
      · exact ofCall_of_over ended
  | merges _ held _ => exact ofCall_of_merged held
  | arrives _ arrives _ => exact ofCall_of_arrives arrives
  | pushes _ ended _ => exact ofCall_of_over ended
  | checks _ _ | yields _ _ => rfl

theorem Holds.of_quoteCheck {tokenMint : String} {amount : UInt64} {onlyDirect : Bool}
    (holds : Holds cfg entries origin (Stage.quoteCheck tokenMint amount onlyDirect).task) :
    ∃ n merged, origin = { entry := some n, merged := merged } ∧
      entries[n]? = some { amount := amount, tokenMint := tokenMint, onlyDirect := onlyDirect } := by
  generalize same : (Stage.quoteCheck tokenMint amount onlyDirect).task = task at holds
  have stages := congrArg Task.stage same
  cases holds with
  | idle _ idle =>
      rcases idle with quotes | ended
      · cases stages.trans quotes
      · obtain rfl := stages
        cases ended
  | @checks n merged _ entry _ found =>
      cases stages
      exact ⟨n, merged, rfl, found⟩
  | merges _ held _ =>
      obtain rfl := stages
      cases held
  | arrives _ arrives _ =>
      obtain rfl := stages
      cases arrives
  | yields _ _ => cases stages
  | pushes _ ended _ =>
      obtain rfl := stages
      cases ended

theorem Holds.of_merged {merged : Merged} (holds : Holds cfg entries origin stage.task)
    (held : stage.merged? = some merged) :
    ∃ n earlier, origin = { entry := some n, merged := earlier } ∧ Merges cfg entries n merged := by
  generalize same : stage.task = task at holds
  obtain rfl : stage = task.stage := congrArg Task.stage same
  cases holds with
  | idle _ idle =>
      rcases idle with rfl | ended
      · cases held
      · cases (merged_of_over ended).symm.trans held
  | merges _ held' merges =>
      obtain rfl := Option.some.inj (held.symm.trans held')
      exact ⟨_, _, rfl, merges⟩
  | arrives _ arrives _ => cases (merged_of_arrives arrives).symm.trans held
  | pushes _ ended _ => cases (merged_of_over ended).symm.trans held
  | checks _ _ | yields _ _ => cases held

theorem Holds.of_arrives (holds : Holds cfg entries origin stage.task) (arrives : stage.arrives) :
    ∃ n merged, origin = { entry := some n, merged := some merged } ∧
      Merges cfg entries n merged := by
  generalize same : stage.task = task at holds
  obtain rfl : stage = task.stage := congrArg Task.stage same
  cases holds with
  | idle _ idle =>
      rcases idle with rfl | ended
      · cases arrives
      · cases (over_of_arrives arrives).symm.trans ended
  | merges _ held _ => cases (merged_of_arrives arrives).symm.trans held
  | arrives _ _ merges => exact ⟨_, _, rfl, merges⟩
  | pushes _ _ _ => cases congrArg Task.pending same
  | checks _ _ | yields _ _ => cases arrives

/-- The account is of the ready pairs and the items. -/
theorem Accounted.congr (accounted : Accounted cfg entries c) (same : s'.opps = c.shared.opps) :
    Accounted cfg entries { c with shared := s' } where
  length := accounted.length.trans (congrArg List.length same).symm
  ready i pair found := accounted.ready i pair (same ▸ found)
  pushed := accounted.pushed

theorem Accounted.add {n : Nat} {pair : QuotePair} (accounted : Accounted cfg entries c)
    (yields : Yields cfg entries n pair) (added : s'.opps = c.shared.opps ++ [pair]) :
    Accounted cfg entries { c with shared := s', ready := c.ready ++ [some n] } where
  length := by simp [added, accounted.length]
  ready i pair' found := by
    simp only [added, List.getElem?_append] at found
    simp only [List.getElem?_append, accounted.length]
    by_cases inside : i < c.shared.opps.length
    · rw [if_pos inside] at found ⊢
      exact accounted.ready i pair' found
    · rw [if_neg inside] at found ⊢
      rcases List.getElem?_eq_some_iff.mp found with ⟨bound, rfl⟩
      have last : i - c.shared.opps.length = 0 := by
        rw [List.length_singleton] at bound
        omega
      simp only [last]
      exact ⟨n, rfl, yields⟩
  pushed := accounted.pushed

theorem Accounted.take {i : Nat} (accounted : Accounted cfg entries c)
    (taken : s'.opps = c.shared.opps.eraseIdx i) :
    Accounted cfg entries { c with shared := s', ready := c.ready.eraseIdx i } where
  length := by simp only [taken, List.length_eraseIdx, accounted.length]
  ready j pair found := by
    simp only [taken, List.getElem?_eraseIdx] at found
    simp only [List.getElem?_eraseIdx]
    split at found
    · rename_i before
      rw [if_pos before]
      exact accounted.ready j pair found
    · rename_i after
      rw [if_neg after]
      exact accounted.ready (j + 1) pair found
  pushed := accounted.pushed

/-! ### A pending action -/

theorem note_of_inert {task : Task} {action : Action} {rest : List Action}
    (pending : task.pending = action :: rest) (inert : action.inert) :
    c.note origin task choice = (c, origin) := by
  unfold Call.note
  rw [pending]
  cases action <;> first | rfl | cases inert

theorem opps_of_yields {s : Shared} {action : Action} (quiet : action.yields = false) :
    (perform cfg s action).opps = s.opps := by
  cases action <;> first | rfl | cases quiet

theorem Action.inert.yields {action : Action} (inert : action.inert) : action.yields = false := by
  cases action <;> first | rfl | cases inert

/-- What a pending action leaves is right. -/
theorem accounted_of_pending {action : Action} {rest : List Action} (choice : Choice)
    (accounted : Accounted cfg entries c)
    (holds : Holds cfg entries origin { pending := action :: rest, stage := stage }) :
    Accounted cfg entries {
        (c.note origin { pending := action :: rest, stage := stage } choice).1 with
        shared := perform cfg c.shared action } ∧
      Holds cfg entries (c.note origin { pending := action :: rest, stage := stage } choice).2
        { pending := rest, stage := stage } := by
  have quiet : action.inert →
      Holds cfg entries origin { pending := rest, stage := stage } →
        Accounted cfg entries {
            (c.note origin { pending := action :: rest, stage := stage } choice).1 with
            shared := perform cfg c.shared action } ∧
          Holds cfg entries (c.note origin { pending := action :: rest, stage := stage } choice).2
            { pending := rest, stage := stage } := by
    intro inert later
    rw [note_of_inert rfl inert]
    exact ⟨accounted.congr (opps_of_yields (Action.inert.yields inert)), later⟩
  generalize whole : action :: rest = pending at holds
  cases holds with
  | idle inert idle =>
      subst whole
      exact quiet (inert action List.mem_cons_self) (.idle inert.tail idle)
  | checks inert found =>
      subst whole
      exact quiet (inert action List.mem_cons_self) (.checks inert.tail found)
  | merges inert held merges =>
      subst whole
      exact quiet (inert action List.mem_cons_self) (.merges inert.tail held merges)
  | arrives inert arrives merges =>
      subst whole
      exact quiet (inert action List.mem_cons_self) (.arrives inert.tail arrives merges)
  | @yields n _ before pair inert yields =>
      cases before with
      | cons first before =>
          obtain ⟨rfl, rfl⟩ := List.cons.inj whole
          exact quiet (inert action List.mem_cons_self) (.yields inert.tail yields)
      | nil =>
          obtain ⟨rfl, rfl⟩ := List.cons.inj whole
          exact ⟨accounted.add yields rfl, .idle inert_nil (Or.inr rfl)⟩
  | @pushes n merged item rest _ inert ended merges =>
      obtain ⟨rfl, rfl⟩ := List.cons.inj whole
      refine ⟨⟨accounted.length, accounted.ready, ?_⟩, .idle inert (Or.inr ended)⟩
      intro pushed member
      rcases List.mem_append.mp member with earlier | last
      · exact accounted.pushed pushed earlier
      · rw [List.mem_singleton.mp last]
        exact ⟨n, merged, rfl, rfl, merges⟩

/-! ### A decision -/

theorem note_of_merged {merged : Merged} (held : stage.merged? = some merged) :
    c.note origin stage.task choice = (c, { origin with merged := some merged }) := by
  cases stage <;> first | cases held; rfl | cases held

theorem note_of_arrives (arrives : stage.arrives) :
    c.note origin stage.task choice = (c, origin) := by
  cases stage <;> first | rfl | cases arrives

/-- What a decision leaves is right. -/
theorem accounted_of_flow (accounted : Accounted cfg entries c)
    (holds : Holds cfg entries origin stage.task) (polls : c.Polls entries choice)
    (flow : Flow cfg c.shared stage choice s' tasks) :
    Accounted cfg entries { (c.note origin stage.task choice).1 with shared := s' } ∧
      ∀ task ∈ tasks, Holds cfg entries (c.note origin stage.task choice).2 task := by
  cases flow with
  | check tokenMint amount onlyDirect =>
      refine ⟨⟨accounted.length, accounted.ready, accounted.pushed⟩, ?_⟩
      intro task member
      rcases List.mem_cons.mp member with rfl | member
      · exact .checks (inert_of_all rfl) polls
      · rw [List.mem_singleton.mp member]
        exact .idle inert_nil (Or.inl rfl)
  | quoted tokenMint amount onlyDirect getQuote =>
      refine ⟨accounted.congr rfl, ?_⟩
      rw [List.forall_mem_singleton]
      rcases pending_cases tokenMint
        (quoteCheck getQuote tokenMint amount onlyDirect cfg.minProfitLamports) with
        ⟨pair, before, profitable, inert, pending⟩ | inert
      · rcases holds.of_quoteCheck with ⟨n, merged, rfl, found⟩
        rw [pending]
        exact .yields inert ⟨_, getQuote, found, profitable⟩
      · exact .idle inert (Or.inr rfl)
  | @take i pair found =>
      rcases accounted.ready i pair found with ⟨n, ready, yields⟩
      have taken : (c.note origin Stage.scan.task (.opp i)).2 =
          { entry := some n, merged := none } := by
        simp only [Call.note, Stage.task, ready, Option.join_some]
      refine ⟨accounted.take rfl, ?_⟩
      rw [List.forall_mem_singleton, taken]
      exact holds_dispatch yields
  | @hand _ stage' _ merged pending store held inert next =>
      rcases holds.of_merged held with ⟨n, earlier, rfl, merges⟩
      rw [note_of_merged held, List.forall_mem_singleton]
      refine ⟨accounted.congr rfl, ?_⟩
      rcases next with held' | arrives | ended
      · exact .merges inert held' merges
      · exact .arrives inert arrives merges
      · exact .idle inert (Or.inr ended)
  | spawn merged choice =>
      rcases holds.of_merged rfl with ⟨n, earlier, rfl, merges⟩
      refine ⟨accounted.congr rfl, ?_⟩
      intro task member
      rcases List.mem_cons.mp member with rfl | member
      · exact .idle inert_nil (Or.inr rfl)
      · rw [List.mem_singleton.mp member]
        exact .merges inert_nil rfl merges
  | push item arrives ended =>
      rcases holds.of_arrives arrives with ⟨n, merged, rfl, merges⟩
      rw [note_of_arrives arrives, List.forall_mem_singleton]
      exact ⟨accounted.congr rfl, .pushes (inert_of_all rfl) ended merges⟩

/-! ### The other tasks -/

theorem Inert.outside {pending : List Action} (inert : Inert pending) (outside : stage.outside) :
    Task.Outside { pending := pending, stage := stage } :=
  ⟨outside, fun action member => Action.inert.yields (inert action member)⟩

theorem outside_task (outside : stage.outside) : stage.task.Outside := inert_nil.outside outside

theorem outside_requeued (item : ReadyInstruction) : (requeued item).Outside := by
  refine ⟨rfl, fun action member => ?_⟩
  simp only [requeued, List.mem_append, List.mem_cons, List.not_mem_nil, or_false] at member
  rcases member with first | rfl | rfl | rfl
  · split at first
    · exact absurd first List.not_mem_nil
    · rw [List.mem_singleton.mp first]
      rfl
  · rfl
  · rfl
  · rfl

theorem outside_of_workerStep {s : Shared}
    (decided : workerStep cfg s stage choice = some (s', tasks)) :
    (∀ task ∈ tasks, task.Outside) ∧ s'.opps = s.opps := by
  have worker : stage.ofCall = false := by
    cases stage <;> first | rfl | cases decided
  cases move_of_workerStep decided with
  | push item arrives _ _ _ => cases worker.symm.trans (ofCall_of_arrives arrives)
  | descend _ _ holds _ _ => cases stage <;> first | cases holds; done | cases worker
  | ramHit _ _ _ _ holds => cases stage <;> first | cases holds; done | cases worker
  | check _ _ _ | quoted _ _ _ _ | dropPair _ _ | takePair _ _ | noServe _ | spawn _
  | answered _ _ _ => cases worker
  | noGrpc item absent => exact ⟨List.forall_mem_singleton.mpr (outside_requeued item), rfl⟩
  | refuseGrpc item present refused =>
      exact ⟨List.forall_mem_singleton.mpr (outside_requeued item), rfl⟩
  | pop top =>
      refine ⟨List.forall_mem_singleton.mpr (Inert.outside ?_ rfl), rfl⟩
      exact List.forall_mem_singleton.mpr rfl
  | built item grant | sent item =>
      exact ⟨List.forall_mem_singleton.mpr ((inert_add _ _).outside rfl), rfl⟩
  | stale _ | dropBuild _ _ _ | sendFailed _ =>
      exact ⟨List.forall_mem_singleton.mpr ((inert_drop _).outside rfl), rfl⟩
  | _ => exact ⟨List.forall_mem_singleton.mpr (outside_task rfl), rfl⟩

theorem outside_of_metisStep {s : Shared}
    (decided : metisStep cfg s stage choice = some (s', tasks)) :
    (∀ task ∈ tasks, task.Outside) ∧ s'.opps = s.opps := by
  unfold metisStep at decided
  split at decided
  · rename_i merged result fetchMs
    cases decided
    have inert : Inert (metisAnswer cfg merged fetchMs result).pending :=
      inert_metisAnswer merged fetchMs result
    refine ⟨List.forall_mem_singleton.mpr (Inert.outside inert ?_), rfl⟩
    cases result <;> rfl
  · cases decided
    refine ⟨List.forall_mem_singleton.mpr ⟨rfl, fun action member => ?_⟩, rfl⟩
    simp only [List.mem_cons, List.not_mem_nil, or_false] at member
    rcases member with rfl | rfl | rfl | rfl <;> rfl
  · cases decided

/-- A task outside of the call stays outside, and leaves the pairs alone. -/
theorem outside_of_run {s : Shared} {task : Task} (outside : task.Outside)
    (ran : (pipeline cfg).run s task choice = some (s', tasks)) :
    (∀ task ∈ tasks, task.Outside) ∧ s'.opps = s.opps := by
  rcases task with ⟨pending, stage⟩
  cases pending with
  | cons action rest =>
      cases ran
      have quiet := outside.2 action List.mem_cons_self
      refine ⟨List.forall_mem_singleton.mpr ⟨outside.1, ?_⟩, opps_of_yields quiet⟩
      exact fun other member => outside.2 other (List.mem_cons_of_mem _ member)
  | nil =>
      have decided : decideStage cfg s stage choice = some (s', tasks) := ran
      have own := outside.1
      unfold decideStage at decided
      split at decided
      · split at decided
        · cases decided
          exact ⟨List.forall_mem_singleton.mpr (outside_task rfl), rfl⟩
        · cases decided
      all_goals
        first
        | exact outside_of_metisStep decided
        | exact outside_of_workerStep decided
        | cases decided
        | cases own

/-! ### One step -/

/-- **One step** keeps the history right. -/
theorem accounted_of_run {t : CallTask} {new : List CallTask}
    (ran : (scanCall cfg entries).run c t choice = some (c', new))
    (accounted : Accounted cfg entries c) (right : t.Right cfg entries) :
    Accounted cfg entries c' ∧ ∀ t' ∈ new, t'.Right cfg entries := by
  rcases t with ⟨task, works⟩
  rcases scanCall_cases ran with ⟨shared, tasks, stepped, noted⟩
  rcases noted with ⟨outside, rfl, rfl⟩ | ⟨origin, inside, polls, rfl, rfl⟩
  · obtain rfl : works = none := outside
    have kept := outside_of_run right stepped
    refine ⟨accounted.congr kept.2, fun t' member => ?_⟩
    rcases List.mem_map.mp member with ⟨task', inside, rfl⟩
    exact kept.1 task' inside
  · obtain rfl : works = some origin := inside
    have holds : Holds cfg entries origin task := right
    have handed : Accounted cfg entries { (c.note origin task choice).1 with shared := shared } ∧
        ∀ task' ∈ tasks, Holds cfg entries (c.note origin task choice).2 task' := by
      rcases task with ⟨pending, stage⟩
      cases pending with
      | cons action rest =>
          cases stepped
          have kept := accounted_of_pending choice accounted holds
          exact ⟨kept.1, List.forall_mem_singleton.mpr kept.2⟩
      | nil =>
          have flow := flow_of_decide holds.ofCall stepped
          exact accounted_of_flow accounted holds polls flow
    refine ⟨handed.1, fun t' member => ?_⟩
    rcases List.mem_map.mp member with ⟨task', inside, rfl⟩
    exact right_inherit (handed.2 task' inside)

end Hold

/-! ## The items of a call -/

/-- The item is for the route and the amount. -/
def Pushed.isFor (sig : U128) (amount : UInt64) (pushed : Pushed) : Bool :=
  pushed.merged.any fun merged => merged.sig = sig ∧ merged.amount = amount

section Runs

variable {cfg : Settings} {entries : List ScanEntry}
  {guard : Pool Call CallTask → Nat × Choice → Prop} {p : Pool Call CallTask}

theorem accounted_reach (reached : (scanMachine cfg entries).Reach guard p) :
    Accounted cfg entries p.shared := by
  have both : Accounted cfg entries p.shared ∧ ∀ t ∈ p.tasks, t.Right cfg entries := by
    refine reached.invariant
      (fun p => Accounted cfg entries p.shared ∧ ∀ t ∈ p.tasks, t.Right cfg entries) ?_ ?_
    · intro p starts
      rcases starts with ⟨shared, others, empty, outside, rfl⟩
      refine ⟨⟨?_, ?_, fun _ none => absurd none List.not_mem_nil⟩, ?_⟩
      · exact (congrArg List.length empty).symm
      · intro i pair found
        rw [show (callOver shared others).shared.shared.opps = [] from empty] at found
        cases found
      · intro t member
        rcases List.mem_append.mp member with own | other
        · rcases List.mem_map.mp own with ⟨stage, first, rfl⟩
          refine right_inherit (.idle inert_nil ?_)
          rcases List.mem_cons.mp first with rfl | last
          · exact Or.inl rfl
          · rw [List.mem_singleton.mp last]
            exact Or.inr rfl
        · rcases List.mem_map.mp other with ⟨task, beside, rfl⟩
          exact outside task beside
    · intro p label p' before _ taken
      have kept : ∀ c t choice c' new, (scanCall cfg entries).run c t choice = some (c', new) →
          Accounted cfg entries c → t.Right cfg entries →
            Accounted cfg entries c' ∧ (∀ t' ∈ new, t'.Right cfg entries) ∧
              ∀ t', CallTask.Right cfg entries t' → CallTask.Right cfg entries t' := by
        intro c t choice c' new ran accounted right
        have one := accounted_of_run ran accounted right
        exact ⟨one.1, one.2, fun _ same => same⟩
      exact System.next_keeps kept taken before
  exact both.1

/-- An entry is pushed once. -/
theorem pushed_nodup (reached : (scanMachine cfg entries).Reach guard p) :
    (p.shared.pushed.map Pushed.entry).Nodup := by
  rw [List.nodup_iff_count_le_one]
  intro entry
  cases entry with
  | none =>
      rw [List.count_eq_zero_of_not_mem]
      · exact Nat.zero_le 1
      · intro member
        rcases List.mem_map.mp member with ⟨pushed, inside, missing⟩
        rcases (accounted_reach reached).pushed pushed inside with ⟨n, merged, found, -⟩
        cases missing.symm.trans found
  | some n =>
      have once := places_le_one reached n
      simp only [Pool.total, Call.places] at once
      omega

/-- The items for a route and an amount are at most as many as the entries of the amount. -/
theorem countP_isFor_le (reached : (scanMachine cfg entries).Reach guard p) (sig : U128)
    (amount : UInt64) :
    p.shared.pushed.countP (Pushed.isFor sig amount) ≤ entries.countP (·.amount = amount) := by
  have pushed : ∀ pushed ∈ p.shared.pushed.filter (Pushed.isFor sig amount), ∃ n entry,
      pushed.entry = some n ∧ entries[n]? = some entry ∧ entry.amount = amount := by
    intro pushed member
    obtain ⟨inside, isFor⟩ := List.mem_filter.mp member
    rcases (accounted_reach reached).pushed pushed inside with ⟨n, merged, own, opportunity, merges⟩
    rcases merges.amount with ⟨entry, found, same⟩
    rw [Pushed.isFor, opportunity, Option.any_some, decide_eq_true_eq] at isFor
    exact ⟨n, entry, own, found, same.symm.trans isFor.2⟩
  have nodup : ((p.shared.pushed.filter (Pushed.isFor sig amount)).map Pushed.entry).Nodup :=
    (pushed_nodup reached).sublist (List.filter_sublist.map _)
  have positions :
      ((p.shared.pushed.filter (Pushed.isFor sig amount)).map (·.entry.getD 0)).Nodup := by
    have split : (p.shared.pushed.filter (Pushed.isFor sig amount)).map (·.entry.getD 0) =
        ((p.shared.pushed.filter (Pushed.isFor sig amount)).map Pushed.entry).map (·.getD 0) := by
      rw [List.map_map]
      rfl
    rw [split]
    refine nodup.map_on ?_
    intro entry member entry' member' same
    rcases List.mem_map.mp member with ⟨one, inside, rfl⟩
    rcases List.mem_map.mp member' with ⟨other, inside', rfl⟩
    rcases pushed one inside with ⟨n, -, own, -⟩
    rcases pushed other inside' with ⟨n', -, own', -⟩
    rw [own, own'] at same ⊢
    exact congrArg some same
  rw [List.countP_eq_length_filter, ← List.length_map (·.entry.getD 0)]
  refine length_le_countP positions ?_
  intro n member
  rcases List.mem_map.mp member with ⟨one, inside, rfl⟩
  rcases pushed one inside with ⟨n, entry, own, found, same⟩
  refine ⟨entry, ?_, decide_eq_true same⟩
  rw [own]
  exact found

/-- **One item for each entry.** In every run of a call, in whatever order its checks
complete, an entry of `all_pairs` ends in at most one item, by whatever tier, and the item is
for the route that the quotes of the entry merge into. So for a route and an amount there are
at most two items for each line of the tokens file, one free and one direct. -/
theorem one_item_per_entry {minLamports maxLamports stepLamports : UInt64} {fuel : Nat}
    {amounts : List UInt64}
    (ended : amountLoop maxLamports stepLamports fuel minLamports = some amounts)
    (reached : (scanMachine cfg (allPairs cfg.tokenMints amounts)).Reach guard p) :
    (p.shared.pushed.map Pushed.entry).Nodup ∧
      (∀ pushed ∈ p.shared.pushed, ∃ n merged, pushed.entry = some n ∧
        pushed.merged = some merged ∧ Merges cfg (allPairs cfg.tokenMints amounts) n merged) ∧
      ∀ sig amount,
        p.shared.pushed.countP (Pushed.isFor sig amount) ≤ 2 * cfg.tokenMints.length := by
  refine ⟨pushed_nodup reached, (accounted_reach reached).pushed, ?_⟩
  intro sig amount
  exact (countP_isFor_le reached sig amount).trans
    (entries_of_amount (amountLoop_nodup ended) amount)

end Runs

/-! ### The same route twice -/

/-- The entries of one amount and one token. -/
def usdcEntries : List ScanEntry := allPairs oneSlot.tokenMints [1000000]

/-- A check finds the same two pools, and Metis answers; the quote stream is at position `i`. -/
def scanned (i : Nat) (onlyDirect : Bool) : List (Nat × Choice) :=
  (i, .check "EPjFWdd5AufqSSqeM2qN1xzybapC8G4wEGkZwyTDt1v" 1000000 onlyDirect) ::
    List.replicate 2 (i, .go) ++
    (i, .quoted (roundTrip ["poolA"] ["poolB"])) :: List.replicate 5 (i, .go) ++
    (i + 2, .opp 0) :: List.replicate 6 (i + 2, .go) ++
    (i + 3, .answered (.ok tableSwap) 40) :: List.replicate 9 (i + 3, .go)

def usdcCall : Pool Call CallTask := callOver (oneSlot.spawn oneSecond .new).shared []

theorem callStarts_usdcCall : CallStarts usdcCall :=
  ⟨_, [], rfl, fun _ none => absurd none List.not_mem_nil, rfl⟩

theorem one_item_per_entry_usdc :
    amountLoop 1000000 1000000 2 1000000 = some [1000000] ∧
      ∃ p, (scanMachine oneSlot usdcEntries).Reach Machine.anyStep p ∧
        p.shared.pushed.length = 2 ∧ (p.shared.pushed.map Pushed.entry).Nodup ∧
          ∀ sig amount, p.shared.pushed.countP (Pushed.isFor sig amount) ≤ 2 := by
  have ended : amountLoop 1000000 1000000 2 1000000 = some [1000000] := by decide
  have played : ((scanCall oneSlot usdcEntries).exec Machine.anyStep usdcCall
      (scanned 0 false ++ scanned 1 true)).any fun p => p.shared.pushed.length = 2 := by decide
  rcases (Option.any_eq_true _ _).mp played with ⟨p, run, two⟩
  have reached : (scanMachine oneSlot usdcEntries).Reach Machine.anyStep p :=
    System.exec_reach (.ofStart callStarts_usdcCall) run
  have items := one_item_per_entry ended reached
  exact ⟨ended, p, reached, of_decide_eq_true two, items.1, items.2.2⟩

/-- The route through the two pools. -/
def twoPools : U128 := routeSig (poolQuote wsolMint wsolMint "0" ["poolA", "poolB"]).routePlan

/-- The free and the direct check find the same two pools. -/
theorem same_route_twice :
    ¬ ∀ (cfg : Settings) (minLamports maxLamports stepLamports : UInt64) (fuel : Nat)
      (amounts : List UInt64) (p : Pool Call CallTask),
        amountLoop maxLamports stepLamports fuel minLamports = some amounts →
          (scanMachine cfg (allPairs cfg.tokenMints amounts)).Reach Machine.anyStep p →
            ∀ sig amount, p.shared.pushed.countP (Pushed.isFor sig amount) ≤ 1 := by
  intro once
  have ended : amountLoop 1000000 1000000 2 1000000 = some [1000000] := by decide
  have played : ((scanCall oneSlot usdcEntries).exec Machine.anyStep usdcCall
      (scanned 0 false ++ scanned 1 true)).any
        fun p => p.shared.pushed.countP (Pushed.isFor twoPools 1000000) = 2 := by decide
  rcases (Option.any_eq_true _ _).mp played with ⟨p, run, two⟩
  have reached : (scanMachine oneSlot usdcEntries).Reach Machine.anyStep p :=
    System.exec_reach (.ofStart callStarts_usdcCall) run
  have one := once oneSlot 1000000 1000000 1000000 2 [1000000] p ended reached twoPools 1000000
  rw [of_decide_eq_true two] at one
  exact absurd one (by decide)

end ArbBot
