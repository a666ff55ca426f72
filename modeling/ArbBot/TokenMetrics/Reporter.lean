import ArbBot.TokenMetrics.Accounting
import ArbBot.TokenMetrics.Calendar
import Mathlib.Data.Int.ModEq
import Mathlib.Data.UInt

/-!
# The reporter of the token metrics

The reporter takes the counters one by one with `swap(0)` while the pipeline goes on updating
them. `incremented` is the history of all updates; the reports, what the reporter has collected
for the next one and the counters add up to it (`Reporting.Conserves`), and the accumulator holds
the reports since the last summary (`Reporting.Summed`).

The counters of the pipeline are unbounded here; `swap` reads them as the `u64` they are. The
reports are the arguments of `write_json`; the layout of the file is left out.
-/

namespace ArbBot

open Foundation

/-! ## Reports -/

structure TokenSnapshot where
  mint : String
  counts : TokenCounter → UInt64

/-- What `write_json` is called with. -/
structure Report where
  snapshots : List TokenSnapshot
  timestamp : String
  windowMin : Nat

def writeJson (snapshots : List TokenSnapshot) (timestamp : String) (windowMin : Nat) : Report where
  snapshots := snapshots
  timestamp := timestamp
  windowMin := windowMin

/-! ## The reporter -/

/-- `swap(0)` on a counter of a row. -/
def TokenMetrics.swap (metrics : TokenMetrics) (i : Nat) (counter : TokenCounter) :
    UInt64 × TokenMetrics :=
  (UInt64.ofInt (metrics.row i counter),
    { metrics with
      stats := metrics.stats.modify i fun stat =>
        { stat with counts := Function.update stat.counts counter 0 } })

/-- A row of zeros for each token. -/
def TokenMetrics.zeros (metrics : TokenMetrics) : List TokenSnapshot :=
  metrics.stats.map fun stat => { mint := stat.mint, counts := fun _ => 0 }

/-- The counters in the order they are taken. -/
def TokenMetrics.cells (metrics : TokenMetrics) : List (Nat × TokenCounter) :=
  (List.range metrics.stats.length).flatMap fun i => TokenCounter.all.map fun c => (i, c)

inductive ReporterStage where
  /-- Before `interval.tick()`. -/
  | waiting
  /-- A snapshot, zero in the counters that are still to be taken. -/
  | swapping (timestamp : String) (snap : List TokenSnapshot) (todo : List (Nat × TokenCounter))

/-- The pipeline with its reporter. -/
structure Reporting where
  pool : Pool Shared Task
  acc : List TokenSnapshot
  windows : UInt32
  stage : ReporterStage
  /-- The reports of five minutes and those of thirty. -/
  reports5 : List Report
  reports30 : List Report
  incremented : Nat → TokenCounter → Int

inductive ReportingLabel where
  | task (i : Nat) (choice : Choice)
  /-- The interval ticks, at this second of the system clock. -/
  | tick (totalSecs : UInt64)
  /-- The reporter goes on. -/
  | report

/-- The rows of the accumulator with those of a snapshot added. -/
def addRows : List TokenSnapshot → List TokenSnapshot → List TokenSnapshot
  | a :: acc, s :: snap =>
      { a with counts := fun c => a.counts c + s.counts c } :: addRows acc snap
  | acc, _ => acc

/-- The accumulator, reset. -/
def resetRows (acc : List TokenSnapshot) : List TokenSnapshot :=
  acc.map fun a => { a with counts := fun _ => 0 }

namespace Reporting

def metrics (r : Reporting) : TokenMetrics := r.pool.shared.tokenMetrics

/-- The history of an update that a task is about to make. -/
def note (r : Reporting) (task : Task) : Nat → TokenCounter → Int :=
  match task.pending with
  | .addToken mint counter n :: _ => fun i c =>
      r.incremented i c + if r.metrics.index[mint]? = some i ∧ c = counter then n else 0
  | _ => r.incremented

/-- The end of a window. -/
def finish (r : Reporting) (timestamp : String) (snap : List TokenSnapshot) : Reporting :=
  let acc := addRows r.acc snap
  let reports5 := r.reports5 ++ [writeJson snap timestamp 5]
  if 6 ≤ r.windows then
    { r with
      acc := resetRows acc
      windows := 0
      stage := .waiting
      reports5 := reports5
      reports30 := r.reports30 ++ [writeJson acc timestamp 30] }
  else { r with acc := acc, stage := .waiting, reports5 := reports5 }

/-- The next counter is taken. -/
def take (r : Reporting) (timestamp : String) (snap : List TokenSnapshot) (i : Nat)
    (counter : TokenCounter) (todo : List (Nat × TokenCounter)) : Reporting :=
  let (value, metrics) := r.metrics.swap i counter
  let snap := snap.modify i fun row =>
    { row with counts := Function.update row.counts counter value }
  { r with
    pool := { r.pool with shared := { r.pool.shared with tokenMetrics := metrics } }
    stage := .swapping timestamp snap todo }

def step (cfg : Settings) (r : Reporting) : ReportingLabel → Option Reporting
  | .task i choice =>
      match r.pool.tasks[i]?, (pipeline cfg).next r.pool i choice with
      | some task, some pool => some { r with pool := pool, incremented := r.note task }
      | _, _ => none
  | .tick totalSecs =>
      match r.stage, nowIso totalSecs with
      | .waiting, some timestamp =>
          some { r with
            windows := r.windows + 1
            stage := .swapping timestamp r.metrics.zeros r.metrics.cells }
      | _, _ => none
  | .report =>
      match r.stage with
      | .waiting => none
      | .swapping timestamp snap [] => some (r.finish timestamp snap)
      | .swapping timestamp snap ((i, counter) :: todo) =>
          some (r.take timestamp snap i counter todo)

end Reporting

/-- The pipeline and the reporter at their start. -/
def Settings.report (cfg : Settings) (now : Nat) (store : StoreInner) : Reporting where
  pool := cfg.spawn now store
  acc := (cfg.spawn now store).shared.tokenMetrics.zeros
  windows := 0
  stage := .waiting
  reports5 := []
  reports30 := []
  incremented := fun _ _ => 0

/-- Any interleaving of the pipeline with the reporter. -/
def reportingMachine (cfg : Settings) : Machine Reporting ReportingLabel :=
  .ofFun (fun r => ∃ now store, oneSecond ≤ now ∧ r = cfg.report now store) (Reporting.step cfg)

/-! ## Cells -/

/-- A counter of a row. -/
def cell (rows : List TokenSnapshot) (i : Nat) (counter : TokenCounter) : UInt64 :=
  match rows[i]? with
  | none => 0
  | some row => row.counts counter

/-- The sum of a counter over reports. -/
def sumOf (reports : List Report) (i : Nat) (counter : TokenCounter) : Nat :=
  (reports.map fun report => (cell report.snapshots i counter).toNat).sum

def mints (rows : List TokenSnapshot) : List String := rows.map TokenSnapshot.mint

section Cells

variable {rows acc snap : List TokenSnapshot} {metrics : TokenMetrics} {i j : Nat}
  {counter c : TokenCounter}

theorem cell_modify (inside : i < rows.length) (value : UInt64) :
    cell (rows.modify i fun row =>
        { row with counts := Function.update row.counts counter value }) j c =
      if (j, c) = (i, counter) then value else cell rows j c := by
  unfold cell
  by_cases same : i = j
  · subst same
    simp only [List.getElem?_modify_eq, List.getElem?_eq_getElem inside, Option.map_eq_map,
      Option.map_some, Function.update_apply, Prod.mk.injEq, true_and]
  · simp only [List.getElem?_modify_ne _ _ same, Prod.mk.injEq, Ne.symm same, false_and, if_false]

theorem mints_modify (value : UInt64) :
    mints (rows.modify i fun row =>
      { row with counts := Function.update row.counts counter value }) = mints rows := by
  apply List.ext_getElem?
  intro j
  simp only [mints, List.getElem?_map, List.getElem?_modify]
  cases rows[j]? with
  | none => rfl
  | some row => split <;> rfl

theorem cell_addRows (same : snap.length = acc.length) :
    cell (addRows acc snap) i c = cell acc i c + cell snap i c := by
  induction acc generalizing snap i with
  | nil =>
      obtain rfl := List.length_eq_zero_iff.mp same
      simp [addRows, cell]
  | cons a acc ih =>
      cases snap with
      | nil => cases same
      | cons s snap =>
          cases i with
          | zero => rfl
          | succ i => exact ih (Nat.succ.inj same)

theorem mints_addRows : mints (addRows acc snap) = mints acc := by
  induction acc generalizing snap with
  | nil => rfl
  | cons a acc ih =>
      cases snap with
      | nil => rfl
      | cons s snap => exact congrArg (List.cons a.mint) ih

theorem cell_resetRows : cell (resetRows acc) i c = 0 := by
  unfold cell resetRows
  rw [List.getElem?_map]
  cases acc[i]? <;> rfl

theorem mints_resetRows : mints (resetRows acc) = mints acc := by
  rw [mints, resetRows, List.map_map]
  rfl

theorem cell_zeros : cell metrics.zeros i c = 0 := by
  unfold cell TokenMetrics.zeros
  rw [List.getElem?_map]
  cases metrics.stats[i]? <;> rfl

theorem mints_zeros : mints metrics.zeros = metrics.stats.map TokenStat.mint := by
  rw [mints, TokenMetrics.zeros, List.map_map]
  rfl

theorem length_mints : (mints rows).length = rows.length := List.length_map _

/-- The counters are taken once each. -/
theorem nodup_cells : metrics.cells.Nodup := by
  unfold TokenMetrics.cells
  rw [List.nodup_flatMap]
  constructor
  · intro i _
    simp [TokenCounter.all]
  · refine List.nodup_range.imp ?_
    intro i j differ
    simp [Function.onFun, List.Disjoint, TokenCounter.all, differ]

theorem lt_of_mem_cells (member : (i, c) ∈ metrics.cells) : i < metrics.stats.length := by
  unfold TokenMetrics.cells at member
  rw [List.mem_flatMap] at member
  obtain ⟨j, inside, member⟩ := member
  obtain ⟨d, -, same⟩ := List.mem_map.mp member
  cases same
  exact List.mem_range.mp inside

theorem sumOf_append (first second : List Report) :
    sumOf (first ++ second) i c = sumOf first i c + sumOf second i c := by
  rw [sumOf, List.map_append, List.sum_append, sumOf, sumOf]

theorem sumOf_singleton (report : Report) :
    sumOf [report] i c = (cell report.snapshots i c).toNat := by
  rw [sumOf, List.map_singleton, List.sum_singleton]

end Cells

/-! ### Changes of the rows -/

namespace TokenMetrics

variable {metrics : TokenMetrics} {tokenMints : List String} {mint : String} {i j : Nat}
  {counter c : TokenCounter} {n : Int}

theorem mints_modify (f : TokenStat → TokenStat) (named : ∀ stat, (f stat).mint = stat.mint) :
    (metrics.stats.modify i f).map TokenStat.mint = metrics.stats.map TokenStat.mint := by
  apply List.ext_getElem?
  intro j
  simp only [List.getElem?_map, List.getElem?_modify]
  cases metrics.stats[j]? with
  | none => rfl
  | some stat => split <;> simp [named]

theorem mints_add : (metrics.add mint counter n).stats.map TokenStat.mint =
    metrics.stats.map TokenStat.mint := by
  unfold add
  split
  · rfl
  · exact mints_modify _ fun _ => rfl

theorem mints_swap : (metrics.swap i counter).2.stats.map TokenStat.mint =
    metrics.stats.map TokenStat.mint :=
  mints_modify _ fun _ => rfl

/-- `swap` takes one counter. -/
theorem row_swap : (metrics.swap i counter).2.row j c =
    if (j, c) = (i, counter) then 0 else metrics.row j c := by
  unfold swap row
  by_cases same : i = j
  · subst same
    simp only [List.getElem?_modify_eq, Prod.mk.injEq, true_and]
    cases metrics.stats[i]? with
    | none => simp
    | some stat => simp [Function.update_apply]
  · simp only [List.getElem?_modify_ne _ _ same, Prod.mk.injEq, Ne.symm same, false_and, if_false]

theorem Indexed.swap (indexed : Indexed tokenMints metrics) :
    Indexed tokenMints (metrics.swap i counter).2 :=
  ⟨indexed.index, (List.length_modify _ _ _).trans indexed.length⟩

end TokenMetrics

/-! ## Updates only add -/

/-- The updates a task is about to make add. -/
def Task.Adds (task : Task) : Prop :=
  ∀ mint counter n, Action.addToken mint counter n ∈ task.pending → 0 ≤ n

section Adds

variable {cfg : Settings} {s s' : Shared} {task : Task} {tasks : List Task} {choice : Choice}

theorem adds_of_aside (aside : task.Aside) : task.Adds :=
  fun _ _ _ member => nomatch aside.2 _ member

theorem adds_of_move {stage : Stage} (move : Move cfg s stage s' tasks) :
    ∀ t ∈ tasks, t.Adds := by
  cases place : stage.isCheck with
  | true =>
      cases stage with
      | quoteCheck mint amount onlyDirect =>
          rcases move_quoteCheck move with ⟨outcome, rfl⟩
          refine List.forall_mem_singleton.mpr ?_
          intro mint' counter n member
          cases outcome <;> simp [QuoteOutcome.pending] at member <;> omega
      | _ => cases place
  | false =>
      by_cases start : stage = .quotes
      · subst start
        rcases move_quotes move with ⟨mint, amount, onlyDirect, rfl⟩
        refine List.forall_mem_cons.mpr ⟨?_, List.forall_mem_singleton.mpr ?_⟩
        · intro mint' counter n member
          simp at member
          omega
        · exact fun _ _ _ member => absurd member List.not_mem_nil
      · intro t member
        exact adds_of_aside (aside_of_move move place start t member)

theorem adds_run (ran : (pipeline cfg).run s task choice = some (s', tasks)) (own : task.Adds) :
    ∀ t ∈ tasks, t.Adds := by
  rcases run_cases ran with ⟨action, rest, pending, rfl, rfl⟩ | ⟨pending, move⟩
  · refine List.forall_mem_singleton.mpr ?_
    intro mint counter n member
    exact own mint counter n (pending ▸ List.mem_cons_of_mem _ member)
  · exact adds_of_move move

end Adds

/-! ## Conservation -/

/-- The updates of a counter are in the reports, in what is collected for the next one and in
the counter, up to what a `u64` cannot hold. -/
structure Kept (reported collected : Nat) (counter incremented : Int) : Prop where
  nonneg : 0 ≤ counter
  congruent : (reported + collected + counter) % 2 ^ 64 = incremented % 2 ^ 64
  below : reported + collected + counter ≤ incremented

namespace Kept

variable {reported collected : Nat} {counter incremented : Int}

theorem add (kept : Kept reported collected counter incremented) {n : Int}
    (adds : 0 ≤ n) : Kept reported collected (counter + n) (incremented + n) := by
  obtain ⟨nonneg, congruent, below⟩ := kept
  constructor <;> omega

/-- `swap` returns the counter modulo `2 ^ 64`. -/
theorem swap (kept : Kept reported 0 counter incremented) :
    Kept reported (UInt64.ofInt counter).toNat 0 incremented := by
  obtain ⟨nonneg, congruent, below⟩ := kept
  have value : ((UInt64.ofInt counter).toNat : Int) = counter % 2 ^ 64 := by
    rw [UInt64.ofInt, UInt64.toNat_ofNat']
    omega
  constructor <;> omega

theorem finish (kept : Kept reported collected counter incremented) :
    Kept (reported + collected) 0 counter incremented := by
  obtain ⟨nonneg, congruent, below⟩ := kept
  constructor <;> omega

/-- As long as a `u64` holds the updates, nothing is missing. -/
theorem exact (kept : Kept reported collected counter incremented)
    (fits : incremented < 2 ^ 64) : reported + collected + counter = incremented := by
  obtain ⟨nonneg, congruent, below⟩ := kept
  omega

end Kept

/-- What is taken for the next report. -/
def ReporterStage.collected (stage : ReporterStage) (i : Nat) (counter : TokenCounter) : UInt64 :=
  match stage with
  | .waiting => 0
  | .swapping _ snap _ => cell snap i counter

namespace Reporting

def reported (r : Reporting) (i : Nat) (counter : TokenCounter) : Nat := sumOf r.reports5 i counter

def Conserves (r : Reporting) (i : Nat) (c : TokenCounter) : Prop :=
  Kept (r.reported i c) (r.stage.collected i c).toNat (r.metrics.row i c) (r.incremented i c)

/-- A snapshot has its rows, and nothing yet of the counters to be taken. -/
def Taking (cfg : Settings) : ReporterStage → Prop
  | .waiting => True
  | .swapping _ snap todo =>
      mints snap = cfg.tokenMints ∧ todo.Nodup ∧
        ∀ e ∈ todo, e.1 < cfg.tokenMints.length ∧ cell snap e.1 e.2 = 0

structure Sound (cfg : Settings) (r : Reporting) : Prop where
  indexed : TokenMetrics.Indexed cfg.tokenMints r.metrics
  mints : r.metrics.stats.map TokenStat.mint = cfg.tokenMints
  adds : ∀ task ∈ r.pool.tasks, task.Adds
  taking : Taking cfg r.stage
  cells : ∀ i c, r.Conserves i c

section Steps

variable {cfg : Settings} {r r' : Reporting}

/-- A step of the pipeline updates at most one counter. -/
theorem note_run {s' : Shared} {task : Task} {tasks : List Task} {choice : Choice}
    (ran : (pipeline cfg).run r.pool.shared task choice = some (s', tasks))
    (indexed : TokenMetrics.Indexed cfg.tokenMints r.metrics) (own : task.Adds) (i : Nat)
    (c : TokenCounter) :
    ∃ n, 0 ≤ n ∧ s'.tokenMetrics.row i c = r.metrics.row i c + n ∧
      r.note task i c = r.incremented i c + n := by
  rcases run_cases ran with ⟨action, rest, pending, rfl, rfl⟩ | ⟨pending, move⟩
  · unfold note
    rw [pending]
    cases action with
    | addToken mint counter n =>
        have adds := own mint counter n (pending ▸ List.mem_cons_self)
        refine ⟨_, ?_, indexed.row_add i c, ?_⟩
        · split
          · exact adds
          · exact le_refl 0
        · rw [indexed.index]
    | _ => exact ⟨0, le_refl 0, (add_zero _).symm, (add_zero _).symm⟩
  · refine ⟨0, le_refl 0, ?_, ?_⟩
    · rw [(metrics_of_move move).2, add_zero]
      rfl
    · unfold note
      rw [pending, add_zero]

theorem mints_run {s s' : Shared} {task : Task} {tasks : List Task} {choice : Choice}
    (ran : (pipeline cfg).run s task choice = some (s', tasks)) :
    s'.tokenMetrics.stats.map TokenStat.mint = s.tokenMetrics.stats.map TokenStat.mint := by
  rcases run_cases ran with ⟨action, rest, pending, rfl, rfl⟩ | ⟨pending, move⟩
  · cases action with
    | addToken mint counter n => exact TokenMetrics.mints_add
    | _ => rfl
  · rw [(metrics_of_move move).2]

theorem Sound.task (sound : r.Sound cfg) {i : Nat} {choice : Choice}
    (taken : r.step cfg (.task i choice) = some r') : r'.Sound cfg := by
  simp only [step] at taken
  split at taken
  · rename_i task pool found went
    cases taken
    rcases System.next_eq_some_iff.mp went with ⟨task', shared, tasks, found', ran, rfl⟩
    obtain rfl : task = task' := Option.some.inj (found.symm.trans found')
    have own := sound.adds task (List.mem_of_getElem? found)
    refine ⟨indexed_run ran sound.indexed, (mints_run ran).trans sound.mints, ?_, sound.taking,
      ?_⟩
    · intro t member
      rw [List.mem_append, List.mem_append] at member
      rcases member with (earlier | new) | later
      · exact sound.adds t (List.mem_of_mem_take earlier)
      · exact adds_run ran own t new
      · exact sound.adds t (List.mem_of_mem_drop later)
    · intro j c
      obtain ⟨n, adds, row, noted⟩ := note_run ran sound.indexed own j c
      have before := (sound.cells j c).add adds
      rw [← row, ← noted] at before
      exact before
  · cases taken

theorem Sound.tick (sound : r.Sound cfg) {totalSecs : UInt64}
    (taken : r.step cfg (.tick totalSecs) = some r') : r'.Sound cfg := by
  simp only [step] at taken
  split at taken
  · rename_i timestamp waits shown
    cases taken
    refine ⟨sound.indexed, sound.mints, sound.adds, ?_, ?_⟩
    · refine ⟨mints_zeros.trans sound.mints, nodup_cells, ?_⟩
      intro e member
      exact ⟨sound.indexed.length ▸ lt_of_mem_cells member, cell_zeros⟩
    · intro i c
      have before := sound.cells i c
      unfold Conserves at before ⊢
      rw [waits] at before
      simp only [ReporterStage.collected, cell_zeros] at before ⊢
      exact before
  · cases taken

theorem Sound.take (sound : r.Sound cfg) {timestamp : String} {snap : List TokenSnapshot}
    {i : Nat} {counter : TokenCounter} {todo : List (Nat × TokenCounter)}
    (swapping : r.stage = .swapping timestamp snap ((i, counter) :: todo)) :
    (r.take timestamp snap i counter todo).Sound cfg := by
  have taking := sound.taking
  rw [swapping] at taking
  obtain ⟨named, distinct, zero⟩ := taking
  obtain ⟨inside, empty⟩ := zero (i, counter) List.mem_cons_self
  have present : i < snap.length := by
    rw [← length_mints, named]
    exact inside
  refine ⟨sound.indexed.swap, TokenMetrics.mints_swap.trans sound.mints, sound.adds, ?_, ?_⟩
  · refine ⟨(mints_modify _).trans named, distinct.of_cons, ?_⟩
    intro e member
    have other : e ≠ (i, counter) := fun same =>
      (List.nodup_cons.mp distinct).1 (same ▸ member)
    rw [cell_modify present, if_neg other]
    exact zero e (List.mem_cons_of_mem _ member)
  · intro j c
    have before := sound.cells j c
    unfold Conserves at before ⊢
    rw [swapping] at before
    simp only [Reporting.take, metrics, ReporterStage.collected, cell_modify present,
      TokenMetrics.row_swap] at before ⊢
    by_cases own : (j, c) = (i, counter)
    · cases own
      rw [empty] at before
      rw [if_pos rfl, if_pos rfl]
      exact before.swap
    · rw [if_neg own, if_neg own]
      exact before

/-- The end of a window reports what was collected. -/
theorem Sound.finish (sound : r.Sound cfg) {timestamp : String} {snap : List TokenSnapshot}
    (swapping : r.stage = .swapping timestamp snap []) : (r.finish timestamp snap).Sound cfg := by
  have cells : ∀ i c, Kept (sumOf (r.reports5 ++ [writeJson snap timestamp 5]) i c) 0
      (r.metrics.row i c) (r.incremented i c) := by
    intro i c
    have before := sound.cells i c
    unfold Conserves at before
    rw [swapping] at before
    rw [sumOf_append, sumOf_singleton]
    exact before.finish
  unfold Reporting.finish
  dsimp only
  split
  · exact ⟨sound.indexed, sound.mints, sound.adds, trivial, cells⟩
  · exact ⟨sound.indexed, sound.mints, sound.adds, trivial, cells⟩

theorem Sound.report (sound : r.Sound cfg) (taken : r.step cfg .report = some r') :
    r'.Sound cfg := by
  simp only [step] at taken
  split at taken
  · cases taken
  · rename_i timestamp snap swapping
    cases taken
    exact sound.finish swapping
  · rename_i timestamp snap i counter todo swapping
    cases taken
    exact sound.take swapping

theorem Sound.step (sound : r.Sound cfg) {label : ReportingLabel}
    (taken : r.step cfg label = some r') : r'.Sound cfg := by
  cases label with
  | task i choice => exact sound.task taken
  | tick totalSecs => exact sound.tick taken
  | report => exact sound.report taken

theorem sound_start (cfg : Settings) (now : Nat) (store : StoreInner) :
    (cfg.report now store).Sound cfg where
  indexed := TokenMetrics.indexed_new cfg.tokenMints
  mints := by
    have named : (TokenStat.mint ∘ fun mint => { mint := mint, counts := fun _ => 0 }) = id := rfl
    rw [metrics, Settings.report, Settings.spawn, TokenMetrics.new, List.map_map, named,
      List.map_id]
  adds := by
    refine cfg.forall_spawn (P := Task.Adds) now store ?_ ?_ ?_ ?_ <;>
      exact fun _ _ _ member => absurd member List.not_mem_nil
  taking := trivial
  cells i c := by
    have zero : (cfg.report now store).metrics.row i c = 0 := TokenMetrics.row_new _ i c
    unfold Conserves
    rw [zero]
    exact ⟨le_refl 0, rfl, le_refl 0⟩

end Steps

end Reporting

/-! ## Summaries -/

/-- The windows that have begun and are not reported. -/
def ReporterStage.started : ReporterStage → Nat
  | .waiting => 0
  | .swapping _ _ _ => 1

namespace Reporting

/-- The accumulator holds the reports since the last summary, fewer than six. -/
structure Summed (cfg : Settings) (r : Reporting) : Prop where
  named : ∀ report ∈ r.reports5, mints report.snapshots = cfg.tokenMints
  mints : mints r.acc = cfg.tokenMints
  windows : r.windows.toNat + 6 * r.reports30.length = r.reports5.length + r.stage.started
  since : 6 * r.reports30.length ≤ r.reports5.length
  fewer : r.reports5.length < 6 * r.reports30.length + 6
  acc : ∀ i c, (cell r.acc i c).toNat =
    sumOf (r.reports5.drop (6 * r.reports30.length)) i c % 2 ^ 64
  summaries : ∀ k report, r.reports30[k]? = some report →
    ArbBot.mints report.snapshots = cfg.tokenMints ∧
      ∀ i c, (cell report.snapshots i c).toNat =
        sumOf ((r.reports5.drop (6 * k)).take 6) i c % 2 ^ 64

section Windows

variable {cfg : Settings} {r r' : Reporting} {timestamp : String} {snap : List TokenSnapshot}

/-- Six reports are not changed by a later one. -/
theorem six_append (reports : List Report) (report : Report) {k : Nat}
    (inside : 6 * k + 6 ≤ reports.length) :
    ((reports ++ [report]).drop (6 * k)).take 6 = (reports.drop (6 * k)).take 6 := by
  rw [List.drop_append_of_le_length (by omega), List.take_append_of_le_length]
  rw [List.length_drop]
  omega

theorem Summed.acc_finish (summed : r.Summed cfg) (named : ArbBot.mints snap = cfg.tokenMints)
    (i : Nat) (c : TokenCounter) :
    (cell (addRows r.acc snap) i c).toNat =
      sumOf ((r.reports5 ++ [writeJson snap timestamp 5]).drop (6 * r.reports30.length)) i c %
        2 ^ 64 := by
  have lengths : snap.length = r.acc.length := by
    rw [← length_mints, named, ← summed.mints, length_mints]
  rw [cell_addRows lengths, UInt64.toNat_add, summed.acc,
    List.drop_append_of_le_length summed.since, sumOf_append, sumOf_singleton, Nat.mod_add_mod]
  rfl

theorem Summed.finish (summed : r.Summed cfg) (named : ArbBot.mints snap = cfg.tokenMints)
    (swapping : r.stage.started = 1) : (r.finish timestamp snap).Summed cfg := by
  have windows := summed.windows
  have since := summed.since
  have fewer := summed.fewer
  rw [swapping] at windows
  have reports : ∀ report ∈ r.reports5 ++ [writeJson snap timestamp 5],
      ArbBot.mints report.snapshots = cfg.tokenMints :=
    List.forall_mem_append.mpr ⟨summed.named, List.forall_mem_singleton.mpr named⟩
  have accNamed : ArbBot.mints (addRows r.acc snap) = cfg.tokenMints :=
    mints_addRows.trans summed.mints
  have earlier : ∀ k report, r.reports30[k]? = some report →
      ArbBot.mints report.snapshots = cfg.tokenMints ∧ ∀ i c,
        (cell report.snapshots i c).toNat =
          sumOf (((r.reports5 ++ [writeJson snap timestamp 5]).drop (6 * k)).take 6) i c %
            2 ^ 64 := by
    intro k report found
    obtain ⟨inside, -⟩ := List.getElem?_eq_some_iff.mp found
    rw [six_append _ _ (by omega)]
    exact summed.summaries k report found
  unfold Reporting.finish
  dsimp only
  split
  · rename_i full
    have six : 6 ≤ r.windows.toNat := UInt32.le_iff_toNat_le.mp full
    have length : (r.reports5 ++ [writeJson snap timestamp 5]).length =
        6 * (r.reports30.length + 1) := by
      rw [List.length_append, List.length_singleton]
      omega
    refine ⟨reports, mints_resetRows.trans accNamed, ?_, ?_, ?_, ?_, ?_⟩
    · simp only [length, List.length_append, List.length_singleton, ReporterStage.started]
      exact Nat.zero_add _
    · simp only [length, List.length_append, List.length_singleton, le_refl]
    · simp only [length, List.length_append, List.length_singleton]
      omega
    · intro i c
      simp only [List.length_append, List.length_singleton]
      rw [cell_resetRows, List.drop_eq_nil_of_le length.le]
      rfl
    · intro k report found
      dsimp only at found
      rcases lt_trichotomy k r.reports30.length with old | here | beyond
      · rw [List.getElem?_append_left old] at found
        exact earlier k report found
      · subst here
        rw [List.getElem?_append_right (le_refl _), Nat.sub_self] at found
        cases found
        refine ⟨accNamed, ?_⟩
        intro i c
        dsimp only
        rw [List.take_of_length_le]
        · exact summed.acc_finish named i c
        · rw [List.length_drop, length]
          omega
      · rw [List.getElem?_eq_none] at found
        · cases found
        · rw [List.length_append, List.length_singleton]
          omega
  · rename_i partly
    have fewWindows : r.windows.toNat < 6 := by
      rw [UInt32.le_iff_toNat_le] at partly
      exact Nat.lt_of_not_le partly
    refine ⟨reports, accNamed, ?_, ?_, ?_, ?_, earlier⟩
    · simp only [List.length_append, List.length_singleton, ReporterStage.started]
      omega
    · simp only [List.length_append, List.length_singleton]
      omega
    · simp only [List.length_append, List.length_singleton]
      omega
    · intro i c
      exact summed.acc_finish named i c

theorem Summed.step (summed : r.Summed cfg) (sound : r.Sound cfg) {label : ReportingLabel}
    (taken : r.step cfg label = some r') : r'.Summed cfg := by
  obtain ⟨named, rows, windows, since, fewer, acc, summaries⟩ := summed
  cases label with
  | task i choice =>
      simp only [Reporting.step] at taken
      split at taken
      · cases taken
        exact ⟨named, rows, windows, since, fewer, acc, summaries⟩
      · cases taken
  | tick totalSecs =>
      simp only [Reporting.step] at taken
      split at taken
      · rename_i timestamp waits shown
        cases taken
        rw [waits] at windows
        simp only [ReporterStage.started] at windows
        have next : (r.windows + 1).toNat = r.windows.toNat + 1 := by
          rw [UInt32.toNat_add, UInt32.toNat_one, Nat.mod_eq_of_lt (by omega)]
        refine ⟨named, rows, ?_, since, fewer, acc, summaries⟩
        simp only [ReporterStage.started, next]
        omega
      · cases taken
  | report =>
      simp only [Reporting.step] at taken
      split at taken
      · cases taken
      · rename_i timestamp snap swapping
        cases taken
        have taking := sound.taking
        rw [swapping] at taking
        refine Summed.finish ⟨named, rows, windows, since, fewer, acc, summaries⟩ taking.1 ?_
        rw [swapping]
        rfl
      · rename_i timestamp snap i counter todo swapping
        cases taken
        rw [swapping] at windows
        exact ⟨named, rows, windows, since, fewer, acc, summaries⟩

theorem summed_start (cfg : Settings) (now : Nat) (store : StoreInner) :
    (cfg.report now store).Summed cfg where
  named := fun _ member => absurd member List.not_mem_nil
  mints := mints_zeros.trans (sound_start cfg now store).mints
  windows := rfl
  since := le_refl 0
  fewer := Nat.zero_lt_succ 5
  acc i c := by
    have zero : cell (cfg.report now store).acc i c = 0 := cell_zeros
    rw [zero]
    rfl
  summaries := fun _ _ found => nomatch found

theorem sound_of_reach (reached : (reportingMachine cfg).Reach Machine.anyStep r) :
    r.Sound cfg ∧ r.Summed cfg := by
  refine reached.invariant (fun r => r.Sound cfg ∧ r.Summed cfg) ?_ ?_
  · intro r started
    rcases started with ⟨now, store, -, rfl⟩
    exact ⟨sound_start cfg now store, summed_start cfg now store⟩
  · intro r label r' before _ taken
    exact ⟨before.1.step taken, before.2.step before.1 taken⟩

end Windows

end Reporting

/-- A part of the reports sums to at most all of them. -/
theorem sumOf_slice_le (reports : List Report) (a b : Nat) (i : Nat) (c : TokenCounter) :
    sumOf ((reports.drop a).take b) i c ≤ sumOf reports i c := by
  have split : reports =
      reports.take a ++ ((reports.drop a).take b ++ (reports.drop a).drop b) := by
    rw [List.take_append_drop, List.take_append_drop]
  have sums := congrArg (sumOf · i c) split
  simp only [sumOf_append] at sums
  omega

/-- The reports of five and of thirty minutes and the updates of the counters. -/
structure ReportsConserve (cfg : Settings) (r : Reporting) : Prop where
  /-- Every report has a row for each token. -/
  named : ∀ report ∈ r.reports5 ++ r.reports30, mints report.snapshots = cfg.tokenMints
  /-- The updates are in the reports, in the next one and in the counter, as sums of `u64`. -/
  events : ∀ i c, (sumOf r.reports5 i c + (r.stage.collected i c).toNat + r.metrics.row i c) %
    2 ^ 64 = r.incremented i c % 2 ^ 64
  exact : ∀ i c, r.incremented i c < 2 ^ 64 →
    sumOf r.reports5 i c + (r.stage.collected i c).toNat + r.metrics.row i c = r.incremented i c
  /-- Each six reports have a summary. -/
  sixes : r.reports30.length = r.reports5.length / 6
  summaries : ∀ k summary, r.reports30[k]? = some summary → ∀ i c,
    (cell summary.snapshots i c).toNat =
      sumOf ((r.reports5.drop (6 * k)).take 6) i c % 2 ^ 64 ∧
    (r.incremented i c < 2 ^ 64 →
      (cell summary.snapshots i c).toNat = sumOf ((r.reports5.drop (6 * k)).take 6) i c)

/-- **No report loses or repeats an event.** In any interleaving of the pipeline with the swaps
of the reporter, whatever the number of windows. -/
theorem reports_conserve {cfg : Settings} {r : Reporting}
    (reached : (reportingMachine cfg).Reach Machine.anyStep r) : ReportsConserve cfg r := by
  obtain ⟨sound, summed⟩ := Reporting.sound_of_reach reached
  refine ⟨?_, fun i c => (sound.cells i c).congruent, fun i c => (sound.cells i c).exact, ?_, ?_⟩
  · refine List.forall_mem_append.mpr ⟨summed.named, ?_⟩
    intro report member
    obtain ⟨k, found⟩ := List.getElem?_of_mem member
    exact (summed.summaries k report found).1
  · have since := summed.since
    have fewer := summed.fewer
    omega
  · intro k summary found i c
    have value := (summed.summaries k summary found).2 i c
    refine ⟨value, ?_⟩
    intro fits
    have part := sumOf_slice_le r.reports5 (6 * k) 6 i c
    obtain ⟨nonneg, -, below⟩ := sound.cells i c
    rw [value]
    apply Nat.mod_eq_of_lt
    rw [Reporting.reported] at below
    omega

/-! ### Two checks among the swaps of a window -/

/-- The first tick, at the origin of the system clock. -/
def firstTick : Reporting :=
  let start := repeatedMint.report oneSecond .new
  { start with
    windows := start.windows + 1
    stage := .swapping ((nowIso 0).getD "") start.metrics.zeros start.metrics.cells }

def amongSwaps : List ReportingLabel :=
  List.replicate 3 .report ++ twoChecks.map (fun label => .task label.1 label.2) ++
    List.replicate 8 .report

theorem reach_firstTick : (reportingMachine repeatedMint).Reach Machine.anyStep firstTick := by
  obtain ⟨-, t, calendar, -⟩ := isoTime_eq_some 0
  have shown : nowIso 0 = some ((nowIso 0).getD "") := by
    rw [nowIso, calendar]
    rfl
  have started : (reportingMachine repeatedMint).start (repeatedMint.report oneSecond .new) :=
    ⟨oneSecond, .new, Nat.le_refl _, rfl⟩
  have ticked : (repeatedMint.report oneSecond .new).step repeatedMint (.tick 0) =
      some firstTick := by
    simp only [Reporting.step]
    rw [shown]
    rfl
  exact (Machine.Reach.ofStart started).step trivial ticked

theorem reach_amongSwaps :
    ∃ r, (reportingMachine repeatedMint).Reach Machine.anyStep r ∧ r.reports5.length = 1 ∧
      r.pool.shared.metrics .metisRespOk = 1 := by
  have ended : (Machine.play (Reporting.step repeatedMint) Machine.anyStep firstTick
      amongSwaps).any fun r =>
        r.reports5.length = 1 ∧ r.pool.shared.metrics .metisRespOk = 1 := by decide
  rcases (Option.any_eq_true _ _).mp ended with ⟨r, played, last⟩
  rw [decide_eq_true_eq] at last
  exact ⟨r, Machine.play_reach reach_firstTick played, last⟩

theorem reports_conserve_amongSwaps :
    ∃ r, (reportingMachine repeatedMint).Reach Machine.anyStep r ∧ r.reports5.length = 1 ∧
      r.pool.shared.metrics .metisRespOk = 1 ∧ ReportsConserve repeatedMint r := by
  rcases reach_amongSwaps with ⟨r, reached, one, answered⟩
  exact ⟨r, reached, one, answered, reports_conserve reached⟩

end ArbBot
