import ArbBot.Foundation.Simulation
import ArbBot.Pipeline.Slots

/-!
# The template store and the trades

With `serve_route` off, the template tiers only decide which counters and templates are
written. The view of a state leaves these out, and takes an opportunity at a template tier
for one on its way to Metis. A step of which nothing is heard keeps the view, and any other
depends on the view alone, so the trades are the same over any two stores and either setting
of `save_new` (`templates_without_influence`).
-/

namespace ArbBot

open Foundation

/-! ## Views -/

/-- The action writes counters or templates. -/
def Action.records : Action → Bool
  | .add _ _ | .addToken _ _ _ | .recordRouteHit _ | .insertRoute _ _ | .recordHops _ => true
  | _ => false

/-- A template tier. -/
def Stage.consults : Stage → Bool
  | .tier1 _ | .tier2 _ | .tier2Route _ => true
  | _ => false

def Stage.view : Stage → Stage
  | .tier1 merged | .tier2 merged | .tier2Route merged => .tier3 merged
  | stage => stage

def Task.view (task : Task) : Task where
  pending := task.pending.filter fun action => !action.records
  stage := task.stage.view

/-- A state without its counters and templates. -/
def Shared.view (s : Shared) : Shared :=
  { s with metrics := fun _ => 0, tokenMetrics := .new [], store := .new }

def viewOf (result : Shared × List Task) : Shared × List Task :=
  (result.1.view, result.2.map Task.view)

/-- Two states of the tasks with one view. -/
def Alike (p q : Pool Shared Task) : Prop :=
  p.shared.view = q.shared.view ∧ p.tasks.map Task.view = q.tasks.map Task.view

theorem Alike.symm {p q : Pool Shared Task} (alike : Alike p q) : Alike q p :=
  ⟨alike.1.symm, alike.2.symm⟩

theorem Alike.trans {p q r : Pool Shared Task} (alike : Alike p q) (alike' : Alike q r) :
    Alike p r :=
  ⟨alike.1.trans alike'.1, alike.2.trans alike'.2⟩

/-! ## What is heard, and what is traded -/

/-- The next step of the task writes counters or templates, or is at a template tier. -/
def Task.silent (task : Task) : Bool :=
  match task.pending with
  | action :: _ => action.records
  | [] => task.stage.consults

/-- What the next step of the task hears; a pending action hears no choice. -/
def Task.hears (task : Task) (choice : Choice) : Option Choice :=
  if task.silent then none else if task.pending.isEmpty then some choice else some .go

/-- What the step hears: the task, and a choice such as a reply of Metis. -/
def heard (entry : Machine.Entry (Pool Shared Task) (Nat × Choice)) : Option (Nat × Choice) :=
  (entry.before.tasks[entry.label.1]?).bind fun task =>
    (task.hears entry.label.2).map (entry.label.1, ·)

inductive Trade where
  /-- A merged quote is sent to Metis. -/
  | request (quote : QuoteResponse)
  /-- An item is pushed into the queue. -/
  | item (swapIxs : SwapInstructionsResponse) (hopCount : Nat)

/-- What the next step of the task trades; a requeue is none of the scan. -/
def Task.trades (task : Task) : List Trade :=
  match task.pending, task.stage with
  | .push _ :: _, .sleep => []
  | .push item :: _, _ => [.item item.swapIxs item.hopCount]
  | [], .spawn merged => [.request merged.quote]
  | _, _ => []

def traded (entry : Machine.Entry (Pool Shared Task) (Nat × Choice)) : List Trade :=
  ((entry.before.tasks[entry.label.1]?).map Task.trades).getD []

/-! ## Silent steps -/

section Silent

variable {cfg : Settings} {s s' : Shared} {task : Task} {choice : Choice} {tasks : List Task}

theorem trades_of_silent (silent : task.silent) : task.trades = [] := by
  rcases task with ⟨pending, stage⟩
  cases pending with
  | cons action rest => cases action <;> first | rfl | cases silent
  | nil => cases stage <;> first | rfl | cases silent

theorem view_of_records {action : Action} (records : action.records) :
    (perform cfg s action).view = s.view := by
  cases action <;> first | rfl | cases records

/-- **A silent step** keeps the view. -/
theorem view_of_silent (off : cfg.serveRoute = false) (silent : task.silent)
    (ran : (pipeline cfg).run s task choice = some (s', tasks)) :
    s'.view = s.view ∧ ∃ task', tasks = [task'] ∧ task'.view = task.view := by
  rcases task with ⟨pending, stage⟩
  cases pending with
  | cons action rest =>
      cases ran
      have records : action.records := silent
      refine ⟨view_of_records records, _, rfl, ?_⟩
      simp only [Task.view, List.filter_cons, records]
      rfl
  | nil =>
      have decided : decideStage cfg s stage choice = some (s', tasks) := ran
      cases stage with
      | tier1 merged =>
          cases choice with
          | go =>
              simp only [decideStage, scanStep, off] at decided
              cases decided
              exact ⟨rfl, _, rfl, rfl⟩
          | _ => cases decided
      | tier2 merged =>
          cases choice with
          | go =>
              simp only [decideStage, scanStep] at decided
              split at decided
              · cases decided
                exact ⟨rfl, _, rfl, rfl⟩
              · split at decided
                · cases decided
                  exact ⟨rfl, _, rfl, rfl⟩
                · cases decided
                  exact ⟨rfl, _, rfl, rfl⟩
          | _ => cases decided
      | tier2Route merged =>
          cases choice with
          | go =>
              simp only [decideStage, scanStep, off] at decided
              cases decided
              exact ⟨rfl, _, rfl, rfl⟩
          | _ => cases decided
      | _ => cases silent

/-- The silent steps before a task is heard are at most as many. -/
def Task.delay (task : Task) : Nat :=
  task.pending.length + match task.stage with
    | .tier1 _ => 6
    | .tier2 _ => 4
    | .tier2Route _ => 2
    | _ => 0

/-- A silent task goes on by itself. -/
theorem goes_on (off : cfg.serveRoute = false) (silent : task.silent) (s : Shared) :
    ∃ s' task', (pipeline cfg).run s task .go = some (s', [task']) ∧
      task'.delay < task.delay := by
  rcases task with ⟨pending, stage⟩
  cases pending with
  | cons action rest => exact ⟨_, _, rfl, by simp [Task.delay]⟩
  | nil =>
      cases stage with
      | tier1 merged =>
          refine ⟨s, (Stage.tier2 merged).task, ?_, by simp [Task.delay, Stage.task]⟩
          simp [pipeline, decideStage, scanStep, off]
      | tier2 merged =>
          simp only [pipeline, decideStage, scanStep]
          split
          · exact ⟨_, _, rfl, by simp [Task.delay]⟩
          · split
            · exact ⟨_, _, rfl, by simp [Task.delay]⟩
            · exact ⟨_, _, rfl, by simp [Task.delay, Stage.task]⟩
      | tier2Route merged =>
          refine ⟨s, (Stage.tier3 merged).task, ?_, by simp [Task.delay, Stage.task]⟩
          simp [pipeline, decideStage, scanStep, off]
      | _ => cases silent

end Silent

/-! ## The other steps -/

/-- The settings with another `save_new`. -/
def Settings.saving (cfg : Settings) (saveNew : Bool) : Settings :=
  { cfg with saveNew := saveNew }

section Loud

variable {cfg : Settings} {s : Shared} {stage : Stage} {choice : Choice} {saveNew : Bool}
  {task : Task}

theorem view_view (stage : Stage) : stage.view.view = stage.view := by
  cases stage <;> rfl

theorem Task.view_view (task : Task) : task.view.view = task.view := by
  rw [Task.view, Task.view, List.filter_filter, ArbBot.view_view]
  simp only [Bool.and_self]

theorem view_of_consults (waits : stage.consults = false) : stage.view = stage := by
  cases stage <;> first | rfl | cases waits

theorem perform_view (action : Action) :
    (perform (cfg.saving saveNew) s.view action).view = (perform cfg s action).view := by
  cases action <;> rfl

theorem metisAnswer_view (cfg : Settings) (saveNew : Bool) (merged : Merged) (fetchMs : Nat)
    (result : Except SwapIxError SwapInstructionsResponse) :
    (metisAnswer (cfg.saving saveNew) merged fetchMs result).view =
      (metisAnswer cfg merged fetchMs result).view := by
  cases result with
  | error e => rfl
  | ok swapIxs =>
      cases saveNew <;> cases saves : cfg.saveNew <;>
        simp [metisAnswer, Task.view, Settings.saving, saves, Action.records]

theorem scanStep_view (waits : stage.consults = false) :
    (scanStep (cfg.saving saveNew) s.view stage choice).map viewOf =
      (scanStep cfg s stage choice).map viewOf := by
  cases stage with
  | scan =>
      cases choice with
      | opp i =>
          have opps : s.view.opps = s.opps := rfl
          simp only [scanStep, opps]
          split <;> rfl
      | _ => rfl
  | tier3 merged =>
      cases choice with
      | go =>
          have serves : (cfg.saving saveNew).serveFromMetis = cfg.serveFromMetis := rfl
          simp only [scanStep, serves]
          split <;> rfl
      | _ => rfl
  | spawn merged => cases choice <;> rfl
  | serving swapIxs hopCount => cases choice <;> rfl
  | tier1 _ | tier2 _ | tier2Route _ => cases waits
  | _ => rfl

theorem metisStep_view :
    (metisStep (cfg.saving saveNew) s.view stage choice).map viewOf =
      (metisStep cfg s stage choice).map viewOf := by
  cases stage with
  | metis merged =>
      cases choice with
      | answered result fetchMs =>
          have answers := metisAnswer_view cfg saveNew merged fetchMs result
          simp only [metisStep, Option.map_some, viewOf, List.map_cons, List.map_nil, answers]
          rfl
      | _ => rfl
  | answered swapIxs hopCount => cases choice <;> rfl
  | _ => rfl

theorem tryLimiter_view {limiter : RateLimiter} {path : Path}
    {update : RateLimiter → Shared → Shared} {item : ReadyInstruction} {otherwise : Task}
    (updates : ∀ limiter s, (update limiter s.view).view = (update limiter s).view) :
    (tryLimiter s.view limiter path update item otherwise).map viewOf =
      (tryLimiter s limiter path update item otherwise).map viewOf := by
  have now : s.view.now = s.now := rfl
  unfold tryLimiter
  rw [now]
  split
  · rfl
  · rename_i limiter' acquired
    let granted := { s with grants := Function.update s.grants path (s.grants path ++ [s.now]) }
    have same : (update limiter' granted.view).view = (update limiter' granted).view :=
      updates limiter' granted
    exact congrArg (fun view => some (view, _)) same
  · rename_i limiter' refused
    exact congrArg (fun view => some (view, _)) (updates limiter' s)

theorem workerStep_view :
    (workerStep (cfg.saving saveNew) s.view stage choice).map viewOf =
      (workerStep cfg s stage choice).map viewOf := by
  cases stage with
  | acquire =>
      cases choice with
      | go =>
          have sem : s.view.lifoSem = s.lifoSem := rfl
          simp only [workerStep, sem]
          split <;> rfl
      | _ => rfl
  | pop =>
      cases choice with
      | go =>
          have lifo : s.view.lifo = s.lifo := rfl
          simp only [workerStep, lifo]
          split <;> rfl
      | _ => rfl
  | popped item =>
      cases choice with
      | go =>
          have now : s.view.now = s.now := rfl
          have age : (cfg.saving saveNew).queueMaxAgeMs = cfg.queueMaxAgeMs := rfl
          simp only [workerStep, now, age]
          split <;> rfl
      | _ => rfl
  | limit item =>
      cases choice with
      | go =>
          have limiter : s.view.jitoLimiter = s.jitoLimiter := rfl
          simp only [workerStep, limiter]
          apply tryLimiter_view
          exact fun _ _ => rfl
      | _ => rfl
  | limitGrpc item =>
      cases choice with
      | go =>
          have limiter : s.view.jitoGrpcLimiter = s.jitoGrpcLimiter := rfl
          simp only [workerStep, limiter]
          split
          · rfl
          · apply tryLimiter_view
            exact fun _ _ => rfl
      | _ => rfl
  | sending item =>
      cases choice with
      | sent ok => cases ok <;> rfl
      | _ => rfl
  | sleep | build _ _ | send _ _ => cases choice <;> rfl
  | _ => rfl

/-- A decision away from the template tiers depends on the view. -/
theorem decide_view (waits : stage.consults = false) :
    (decideStage (cfg.saving saveNew) s.view stage choice).map viewOf =
      (decideStage cfg s stage choice).map viewOf := by
  cases stage with
  | clock | quotes | quoteCheck _ _ _ => cases choice <;> rfl
  | tier1 _ | tier2 _ | tier2Route _ => cases waits
  | scan | tier3 _ | spawn _ | serving _ _ => exact scanStep_view waits
  | metis _ | answered _ _ => exact metisStep_view
  | finished => rfl
  | _ => exact workerStep_view

/-- **Any other step** depends on the view, and on what it hears. -/
theorem run_view (cfg : Settings) (saveNew : Bool) {hears : Choice}
    (sound : task.hears choice = some hears) :
    ((pipeline (cfg.saving saveNew)).run s.view task.view hears).map viewOf =
      ((pipeline cfg).run s task choice).map viewOf := by
  rcases task with ⟨pending, stage⟩
  cases pending with
  | cons action rest =>
      cases records : action.records with
      | true => simp [Task.hears, Task.silent, records] at sound
      | false =>
          have first : Task.view { pending := action :: rest, stage := stage } =
              { pending := action :: rest.filter fun action => !action.records,
                stage := stage.view } := by
            simp [Task.view, records]
          have later := Task.view_view { pending := rest, stage := stage }
          rw [first]
          simp only [pipeline, Option.map_some, viewOf, List.map_cons, List.map_nil]
          rw [perform_view]
          exact congrArg (fun task => some (_, [task])) later
  | nil =>
      cases consults : stage.consults with
      | true => simp [Task.hears, Task.silent, consults] at sound
      | false =>
          have same : choice = hears := by
            simpa [Task.hears, Task.silent, consults] using sound
          subst same
          have own : Task.view { pending := [], stage := stage } = stage.task := by
            rw [Task.view, view_of_consults consults]
            rfl
          rw [own]
          exact decide_view consults

theorem silent_of_hears (quiet : task.hears choice = none) : task.silent := by
  unfold Task.hears at quiet
  split at quiet
  · assumption
  · split at quiet <;> cases quiet

theorem loud_of_hears {hears : Choice} (sound : task.hears choice = some hears) :
    task.silent = false := by
  unfold Task.hears at sound
  split at sound
  · cases sound
  · rename_i loud
    exact Bool.eq_false_of_not_eq_true loud

theorem silent_view (loud : task.silent = false) : task.view.silent = false := by
  rcases task with ⟨pending, stage⟩
  cases pending with
  | cons action rest =>
      have own : action.records = false := loud
      simp [Task.view, Task.silent, own]
  | nil => cases stage <;> rfl

theorem hears_view (loud : task.silent = false) : task.view.hears choice = task.hears choice := by
  have empty : task.view.pending.isEmpty = task.pending.isEmpty := by
    rcases task with ⟨pending, stage⟩
    cases pending with
    | cons action rest =>
        have own : action.records = false := loud
        simp [Task.view, own]
    | nil => rfl
  rw [Task.hears, Task.hears, silent_view loud, loud, empty]

theorem trades_view (loud : task.silent = false) : task.view.trades = task.trades := by
  rcases task with ⟨pending, stage⟩
  cases pending with
  | cons action rest => cases action <;> first | cases loud; done | cases stage <;> rfl
  | nil => cases stage <;> rfl

end Loud

/-! ## Runs -/

section Runs

variable {cfg : Settings} {saveNew : Bool} {p p' q q' : Pool Shared Task}
  {label label' : Nat × Choice}

/-- What is heard and traded by the step of a task. -/
theorem heard_of_found {task : Task} (found : p.tasks[label.1]? = some task) :
    heard ⟨p, label, p'⟩ = (task.hears label.2).map (label.1, ·) := by
  rw [heard, found]
  rfl

theorem traded_of_found {task : Task} (found : p.tasks[label.1]? = some task) :
    traded ⟨p, label, p'⟩ = task.trades := by
  rw [traded, found]
  rfl

/-- Tasks that are replaced alike leave alike pools. -/
theorem alike_replaced {i : Nat} {s t : Shared} {new new' : List Task} (alike : Alike p q)
    (same : viewOf (s, new) = viewOf (t, new')) :
    Alike { shared := s, tasks := p.tasks.take i ++ new ++ p.tasks.drop (i + 1) }
      { shared := t, tasks := q.tasks.take i ++ new' ++ q.tasks.drop (i + 1) } := by
  obtain ⟨shared, tasks⟩ := Prod.mk.inj same
  refine ⟨shared, ?_⟩
  simp only [List.map_append, List.map_take, List.map_drop, alike.2, tasks]

theorem tasks_eq_replaced {i : Nat} {task : Task} (found : p.tasks[i]? = some task) :
    p.tasks.take i ++ [task] ++ p.tasks.drop (i + 1) = p.tasks := by
  rcases List.getElem?_eq_some_iff.mp found with ⟨inside, rfl⟩
  rw [List.append_assoc, List.singleton_append, List.cons_getElem_drop_succ,
    List.take_append_drop]

/-- A step that hears nothing trades nothing, and keeps the view. -/
theorem alike_of_quiet (off : cfg.serveRoute = false)
    (taken : (pipelineMachine cfg).step p label p') (quiet : heard ⟨p, label, p'⟩ = none) :
    traded ⟨p, label, p'⟩ = [] ∧ Alike p' p := by
  rcases System.next_eq_some_iff.mp taken with ⟨task, shared, tasks, found, ran, rfl⟩
  rw [heard_of_found found, Option.map_eq_none_iff] at quiet
  have silent := silent_of_hears quiet
  rw [traded_of_found found, trades_of_silent silent]
  refine ⟨rfl, ?_⟩
  obtain ⟨kept, task', rfl, same⟩ := view_of_silent off silent ran
  have replaced := alike_replaced (i := label.1) (p := p) (q := p) ⟨rfl, rfl⟩
    (show viewOf (shared, [task']) = viewOf (p.shared, [task]) by simp [viewOf, kept, same])
  rwa [tasks_eq_replaced found] at replaced

theorem silentlyKeeps_left (off : cfg.serveRoute = false) :
    Machine.SilentlyKeeps (pipelineMachine cfg) Alike heard traded := by
  intro p label p' q alike taken quiet
  obtain ⟨nothing, kept⟩ := alike_of_quiet off taken quiet
  exact ⟨nothing, kept.trans alike⟩

theorem silentlyKeeps_right (off : cfg.serveRoute = false) :
    Machine.SilentlyKeeps (pipelineMachine cfg) (fun q p => Alike p q) heard traded := by
  intro q label q' p alike taken quiet
  obtain ⟨nothing, kept⟩ := alike_of_quiet off taken quiet
  exact ⟨nothing, alike.trans kept.symm⟩

/-- Alike pools have alike tasks at a position. -/
theorem found_of_alike {i : Nat} {task : Task} (alike : Alike p q)
    (found : p.tasks[i]? = some task) :
    ∃ task', q.tasks[i]? = some task' ∧ task'.view = task.view := by
  have views : (q.tasks.map Task.view)[i]? = some task.view := by
    rw [← alike.2, List.getElem?_map, found]
    rfl
  rw [List.getElem?_map] at views
  exact Option.map_eq_some_iff.mp views

/-- The silent steps of a task bring it to one that is heard. -/
theorem catches_up (off : cfg.serveRoute = false) {i : Nat} {task : Task}
    (found : q.tasks[i]? = some task) :
    ∃ steps q' task', (pipelineMachine cfg).Trace q steps q' ∧ steps.filterMap heard = [] ∧
      Alike q' q ∧ q'.tasks[i]? = some task' ∧ task'.view = task.view ∧
        task'.silent = false := by
  induction delay : task.delay using Nat.strongRecOn generalizing q task with
  | ind _ ih =>
      cases silent : task.silent with
      | false => exact ⟨[], q, task, .nil q, rfl, ⟨rfl, rfl⟩, found, rfl, silent⟩
      | true =>
          obtain ⟨shared, next, ran, less⟩ := goes_on off silent q.shared
          obtain ⟨mid, replaced⟩ : ∃ mid : Pool Shared Task, mid = {
              shared := shared
              tasks := q.tasks.take i ++ [next] ++ q.tasks.drop (i + 1) } := ⟨_, rfl⟩
          have taken : (pipelineMachine cfg).step q (i, .go) mid :=
            System.next_eq_some_iff.mpr ⟨task, shared, [next], found, ran, replaced⟩
          have quiet : heard ⟨q, (i, .go), mid⟩ = none := by
            rw [heard_of_found found, Task.hears, silent]
            rfl
          have inside := (List.getElem?_eq_some_iff.mp found).1
          have found' : mid.tasks[i]? = some next := by
            rw [replaced, List.append_assoc, List.getElem?_append_right (by simp)]
            simp [Nat.min_eq_left (Nat.le_of_lt inside)]
          obtain ⟨-, _, single, view⟩ := view_of_silent off silent ran
          obtain rfl := (List.cons.inj single).1
          rcases ih _ (delay ▸ less) found' rfl with
            ⟨steps, q', task', trace, unheard, alike, reached, view', loud⟩
          refine ⟨_, q', task', trace.cons taken, ?_, ?_, reached, view'.trans view, loud⟩
          · rw [List.filterMap_cons_none quiet, unheard]
          · exact alike.trans (alike_of_quiet off taken quiet).2

/-- Tasks with one view that hear the same end up alike, and trade the same. -/
theorem results_of_views (cfg : Settings) (saveNew : Bool) {s t : Shared} {task task' : Task}
    {choice choice' hears : Choice}
    (shared : s.view = t.view) (view : task'.view = task.view)
    (sound : task.hears choice = some hears) (sound' : task'.hears choice' = some hears) :
    ((pipeline (cfg.saving saveNew)).run t task' choice').map viewOf =
      ((pipeline cfg).run s task choice).map viewOf ∧ task'.trades = task.trades := by
  have left : ((pipeline (cfg.saving saveNew)).run s.view task.view hears).map viewOf =
      ((pipeline cfg).run s task choice).map viewOf := run_view cfg saveNew sound
  have right : ((pipeline (cfg.saving saveNew)).run t.view task'.view hears).map viewOf =
      ((pipeline (cfg.saving saveNew)).run t task' choice').map viewOf :=
    run_view (cfg.saving saveNew) saveNew sound'
  rw [← shared, view] at right
  refine ⟨right.symm.trans left, ?_⟩
  rw [← trades_view (loud_of_hears sound), ← trades_view (loud_of_hears sound'), view]

/-- **The step lemma of agreement.** -/
theorem alike_of_heard (alike : Alike p q) (taken : (pipelineMachine cfg).step p label p')
    (taken' : (pipelineMachine (cfg.saving saveNew)).step q label' q')
    (hears : heard ⟨p, label, p'⟩ ≠ none)
    (same : heard ⟨p, label, p'⟩ = heard ⟨q, label', q'⟩) :
    traded ⟨p, label, p'⟩ = traded ⟨q, label', q'⟩ ∧ Alike p' q' := by
  rcases System.next_eq_some_iff.mp taken with ⟨task, shared, tasks, found, ran, rfl⟩
  rcases System.next_eq_some_iff.mp taken' with ⟨task', shared', tasks', found', ran', rfl⟩
  rw [heard_of_found found] at hears same
  rw [heard_of_found found'] at same
  cases sound : task.hears label.2 with
  | none => exact absurd (by rw [sound]; rfl) hears
  | some choice =>
      rw [sound] at same
      rcases Option.map_eq_some_iff.mp same.symm with ⟨choice', sound', pairs⟩
      obtain ⟨position, rfl⟩ := Prod.mk.inj pairs
      rcases found_of_alike alike found with ⟨_, there, view⟩
      rw [← position, found'] at there
      obtain rfl := Option.some.inj there
      obtain ⟨results, trades⟩ := results_of_views cfg saveNew alike.1 view sound sound'
      rw [ran, ran', Option.map_some, Option.map_some] at results
      rw [traded_of_found found, traded_of_found found', trades, position]
      exact ⟨rfl, alike_replaced alike (Option.some.inj results).symm⟩

/-- **The step lemma of matching.** -/
theorem matches_alike (off : cfg.serveRoute = false) :
    Machine.Matches (pipelineMachine cfg) (pipelineMachine (cfg.saving saveNew))
      Alike heard heard := by
  intro p label p' q alike taken
  cases quiet : heard ⟨p, label, p'⟩ with
  | none =>
      have kept := (alike_of_quiet off taken quiet).2
      exact ⟨[], q, .nil q, kept.trans alike, rfl⟩
  | some hears =>
      rcases System.next_eq_some_iff.mp taken with ⟨task, shared, tasks, found, ran, rfl⟩
      rw [heard_of_found found] at quiet
      rcases Option.map_eq_some_iff.mp quiet with ⟨choice, sound, rfl⟩
      rcases found_of_alike alike found with ⟨late, found', view⟩
      have off' : (cfg.saving saveNew).serveRoute = false := off
      rcases catches_up off' found' with
        ⟨steps, ready, task', trace, unheard, alike', reached, view', loud⟩
      have views := view'.trans view
      have sound' : task'.hears label.2 = some choice := by
        rw [← hears_view loud, views, hears_view (loud_of_hears sound), sound]
      have related := alike.trans alike'.symm
      obtain ⟨results, -⟩ := results_of_views cfg saveNew related.1 views sound sound'
      rw [ran, Option.map_some] at results
      rcases Option.map_eq_some_iff.mp results with ⟨⟨shared', tasks'⟩, ran', same⟩
      have last : (pipelineMachine (cfg.saving saveNew)).step ready label {
          shared := shared'
          tasks := ready.tasks.take label.1 ++ tasks' ++ ready.tasks.drop (label.1 + 1) } :=
        System.next_eq_some_iff.mpr ⟨task', shared', tasks', reached, ran', rfl⟩
      refine ⟨_, _, .snoc trace last, alike_replaced related same.symm, ?_⟩
      rw [Machine.filterMap_snoc_of_some (k := (label.1, choice)), unheard]
      · rfl
      · rw [heard_of_found reached, sound']
        rfl

/-- **Templates without influence.** With `serve_route` off, take any run over one store and
any other store and setting of `save_new`. There is a run over these that hears the same: the
same replies, in the same order among the steps of the tasks. And every run over these that
hears the same sends the same merged quotes to Metis and pushes the same items, in the same
order. -/
theorem templates_without_influence (off : cfg.serveRoute = false) (saveNew : Bool) (now : Nat)
    (store store' : StoreInner) {steps : List (Machine.Entry _ _)}
    (trace : (pipelineMachine cfg).Trace (cfg.spawn now store) steps p) :
    (∃ steps' p', (pipelineMachine (cfg.saving saveNew)).Trace
        ((cfg.saving saveNew).spawn now store') steps' p' ∧
          steps'.filterMap heard = steps.filterMap heard) ∧
      ∀ steps' p', (pipelineMachine (cfg.saving saveNew)).Trace
        ((cfg.saving saveNew).spawn now store') steps' p' →
          steps'.filterMap heard = steps.filterMap heard →
            steps'.flatMap traded = steps.flatMap traded := by
  have alike : Alike (cfg.spawn now store)
      ((cfg.saving saveNew).spawn now store') := ⟨rfl, rfl⟩
  refine ⟨?_, ?_⟩
  · rcases trace.matched (matches_alike off) alike with ⟨steps', p', trace', -, same⟩
    exact ⟨steps', p', trace', same⟩
  · intro steps' p' trace' same
    have off' : (cfg.saving saveNew).serveRoute = false := off
    have agree := trace.agree (silentlyKeeps_left off) (silentlyKeeps_right off')
      (fun _ _ _ _ _ _ alike taken taken' => alike_of_heard alike taken taken') trace' alike
      same.symm
    exact agree.1.symm

end Runs

/-- A store that knows the hops of the route. -/
def seenPools : StoreInner :=
  recordHops .new (poolQuote wsolMint wsolMint "0" ["poolA", "poolB"]).routePlan none

theorem templates_without_influence_seenPools :
    ∃ steps p, (pipelineMachine oneSlot).Trace (oneSlot.spawn oneSecond .new) steps p ∧
      p.shared.lifo.length = 1 ∧
      (∃ steps' p', (pipelineMachine (oneSlot.saving true)).Trace
          ((oneSlot.saving true).spawn oneSecond seenPools) steps' p' ∧
            steps'.filterMap heard = steps.filterMap heard) ∧
        ∀ steps' p', (pipelineMachine (oneSlot.saving true)).Trace
          ((oneSlot.saving true).spawn oneSecond seenPools) steps' p' →
            steps'.filterMap heard = steps.filterMap heard →
              steps'.flatMap traded = steps.flatMap traded := by
  have ended : ((pipeline oneSlot).exec Machine.anyStep (oneSlot.spawn oneSecond .new)
      (arrival 1)).any fun p => p.shared.lifo.length = 1 := by decide
  rcases (Option.any_eq_true _ _).mp ended with ⟨p, played, one⟩
  rcases System.exec_trace played with ⟨steps, trace, -⟩
  have same := templates_without_influence rfl true oneSecond .new seenPools trace
  exact ⟨steps, p, trace, of_decide_eq_true one, same⟩

end ArbBot
