import ArbBot.Persistence.Crash
import ArbBot.Persistence.RoundTrip
import ArbBot.Pipeline.Opportunity
import ArbBot.Pipeline.Slots
import ArbBot.Pipeline.StoreCalls

/-!
# Lifetimes of the bot

The process may end at any instant, also inside a flush. It is then started again over what
is on the disk. A `Bot` is the pipeline of the running process beside its flush task and the
disk, and `botMachine` runs it over any number of lifetimes.

* `restart_restores`: a new process holds the routes and the index that the store held when
  some earlier flush copied it, or none at all, for one of three reasons.
* `items_backed`: in every lifetime, all that is queued or held is an instruction for a
  checked opportunity, from an answer of Metis in this lifetime or an earlier one.
-/

namespace ArbBot

open Foundation

/-! ## The bot -/

/-- The template store is loaded and flushed. -/
def Settings.persists (cfg : Settings) : Bool := cfg.saveNew || cfg.serveRoute

/-- What a start meets: the names that the directory of the hops lists, and the files that can
be read. -/
structure DiskView where
  names : List String
  readable : String → Bool

/-- The content of the files that can be read. -/
def DiskView.read (view : DiskView) (disk : String → Option (List UInt8)) :
    String → Option (List UInt8) :=
  fun path => if view.readable path then disk path else none

/-- The store a process starts with. -/
def startStore (serde : Serde) (cfg : Settings) (disk : String → Option (List UInt8))
    (view : DiskView) : StoreInner :=
  if cfg.persists then
    (loadRoutesAt serde (view.read disk) (loadHopsAt serde (view.read disk) view.names .new).2).2
  else .new

/-- The store a flush copies. -/
def Flush.store : Flush → StoreInner
  | .routes g _ | .hops g _ => g

structure Bot where
  pool : Pool Shared Task
  flusher : Flusher

inductive BotEvent where
  | run (i : Nat) (choice : Choice)
  | flush (part : Flush)
  | io
  /-- The process ends, and a new one starts. -/
  | crash (now : Nat) (view : DiskView)

inductive BotStep (serde : Serde) (cfg : Settings) : Bot → BotEvent → Bot → Prop
  | run {b : Bot} {i : Nat} {choice : Choice} {pool : Pool Shared Task} :
    (pipeline cfg).next b.pool i choice = some pool →
    BotStep serde cfg b (.run i choice) { b with pool := pool }
  | flush {b : Bot} {part : Flush} {flusher : Flusher} :
    cfg.persists → part.store = b.pool.shared.store →
    FlusherStep serde b.flusher (.flush part) flusher →
    BotStep serde cfg b (.flush part) { b with flusher := flusher }
  | io {b : Bot} {flusher : Flusher} :
    FlusherStep serde b.flusher .io flusher →
    BotStep serde cfg b .io { b with flusher := flusher }
  | crash {b : Bot} {now : Nat} {view : DiskView} {flusher : Flusher} :
    FlusherStep serde b.flusher .crash flusher → oneSecond ≤ now →
    BotStep serde cfg b (.crash now view)
      { pool := cfg.spawn now (startStore serde cfg flusher.writer.disk view)
        flusher := flusher }

/-- The first process finds no file of an earlier one. -/
def botMachine (serde : Serde) (cfg : Settings) : Machine Bot BotEvent where
  start b := (flushMachine serde).start b.flusher ∧ ∃ now view, oneSecond ≤ now ∧
    b.pool = cfg.spawn now (startStore serde cfg b.flusher.writer.disk view)
  step := BotStep serde cfg

/-- The answers of the network in a step are among those Metis may give. -/
def MetisAnswers.AllowsStep (metis : MetisAnswers) (b : Bot) : BotEvent → Prop
  | .run i choice => ∀ task, b.pool.tasks[i]? = some task → metis.Allows task choice
  | _ => True

/-- What `serde_json` writes of the routes it reads again. -/
def Serde.ReadsBack (serde : Serde) : Prop :=
  ∀ file content, serde.routes file = some content → ∃ file',
    serde.readRoutes content = some file' ∧ file'.routes = file.routes ∧
      ∀ key : String, file'.hopPairs[key]? = file.hopPairs[key]?

/-! ## What a start finds -/

/-- The routes without their variants, and the index. -/
structure Restores (g g' : StoreInner) : Prop where
  routes : ∀ sig t', g'.segments.Holds sig t' ↔ ∃ t, g.segments.Holds sig t ∧ t' = t.cold
  index : ∀ key : String, g'.hopPairIndex[key]? = g.hopPairIndex[key]?

section Start

variable {serde : Serde} {cfg : Settings} {f : Flusher}

theorem restores_new : Restores .new .new where
  routes sig t' := by
    simp [StoreInner.new, StoreInner.segments, Segments.Holds]
  index _ := rfl

/-- Loading the hops first changes nothing for the routes. -/
theorem restores_load {g hops : StoreInner} {file : RouteFile}
    (disjoint : g.segments.Disjoint)
    (keyed : g.segments.All fun sig t => t.routeSignature = sig) (snapshot : Snapshot g file)
    (routes : hops.segments = StoreInner.new.segments)
    (index : hops.hopPairIndex = StoreInner.new.hopPairIndex) :
    Restores g (loadRoutesFromDisk hops file).2 where
  routes sig t' := by
    have loaded : (loadRoutesFromDisk hops file).2.segments =
        (loadRoutesFromDisk .new file).2.segments := by
      rw [segments_loadRoutesFromDisk, segments_loadRoutesFromDisk, routes]
    have once : (loadRoutesFromDisk .new file).2.segments.Disjoint := by
      rw [segments_loadRoutesFromDisk]
      exact Segments.disjoint_new.fillAll
    rw [loaded, ← Segments.find_eq_some_iff once]
    exact find_reload disjoint keyed snapshot
  index key := by
    have none : hops.hopPairIndex[key]? = none := by
      rw [index]
      exact Std.HashMap.getElem?_empty
    rw [hopPairIndex_loadRoutesFromDisk, none]
    exact snapshot.pairSig key

/-- **What a start restores.** -/
theorem restores_startStore (reads : serde.ReadsBack)
    (reached : (flushMachine serde).Reach Machine.anyStep f)
    (flushed : ∀ g file, Flush.routes g file ∈ f.flushes → g.segments.Disjoint ∧
      g.segments.All fun sig t => t.routeSignature = sig) (view : DiskView) :
    (Restores .new (startStore serde cfg f.writer.disk view) ∧
        (cfg.persists = false ∨ f.writer.disk routesPath = none ∨
          view.readable routesPath = false)) ∨
      ∃ g file, Flush.routes g file ∈ f.flushes ∧
        Restores g (startStore serde cfg f.writer.disk view) := by
  unfold startStore
  by_cases persists : cfg.persists = true
  · rw [if_pos persists]
    cases content : view.read f.writer.disk routesPath with
    | none =>
        refine Or.inl ⟨?_, Or.inr ?_⟩
        · rw [loadRoutesAt, content]
          exact ⟨restores_new.routes, fun _ => rfl⟩
        · rw [DiskView.read] at content
          split at content
          · exact Or.inl content
          · rename_i unreadable
            exact Or.inr (Bool.eq_false_iff.mpr unreadable)
    | some bytes =>
        have inPlace : f.writer.disk routesPath = some bytes := by
          rw [DiskView.read] at content
          split at content
          · exact content
          · cases content
        rcases (flush_crashSafe reached).1 bytes inPlace with ⟨g, file, member, snapshot, written⟩
        rcases reads file bytes written with ⟨file', read, routes, pairs⟩
        have snapshot' : Snapshot g file' :=
          ⟨routes ▸ snapshot.routes, fun key => (pairs key).trans (snapshot.hopPairs key)⟩
        obtain ⟨disjoint, keyed⟩ := flushed g file member
        refine Or.inr ⟨g, file, member, ?_⟩
        rw [loadRoutesAt, content, Option.bind_some, read]
        exact restores_load disjoint keyed snapshot' rfl rfl
  · rw [if_neg persists]
    exact Or.inl ⟨restores_new, Or.inl (Bool.eq_false_iff.mpr persists)⟩

theorem Restores.backed {metis : MetisAnswers} {g g' : StoreInner} (restores : Restores g g')
    (backed : StoreBacked metis cfg g) : StoreBacked metis cfg g' where
  templates sig t' holds := by
    rcases (restores.routes sig t').mp holds with ⟨t, held, rfl⟩
    exact (backed.templates sig t held).cold
  entries key sig found := backed.entries key sig (restores.index key ▸ found)

theorem disjoint_startStore (serde : Serde) (cfg : Settings) (disk : String → Option (List UInt8))
    (view : DiskView) : (startStore serde cfg disk view).segments.Disjoint := by
  unfold startStore
  split
  · unfold loadRoutesAt
    split
    · rw [segments_loadRoutesFromDisk]
      exact Segments.disjoint_new.fillAll
    · exact Segments.disjoint_new
  · exact Segments.disjoint_new

end Start

/-! ## Runs -/

section Runs

variable {serde : Serde} {cfg : Settings} {metis : MetisAnswers} {b b' : Bot} {event : BotEvent}

/-- One entry a signature, under the signature the template carries. -/
def StoreInner.Tidy (g : StoreInner) : Prop :=
  g.segments.Disjoint ∧ g.segments.All fun sig t => t.routeSignature = sig

theorem tidy_startStore (serde : Serde) (cfg : Settings) (disk : String → Option (List UInt8))
    (view : DiskView) : (startStore serde cfg disk view).Tidy := by
  refine ⟨disjoint_startStore serde cfg disk view, ?_⟩
  unfold startStore
  split
  · unfold loadRoutesAt
    split
    · rw [segments_loadRoutesFromDisk]
      refine Segments.all_fillAll.mpr ⟨all_initial _, fun sig t _ first => ?_⟩
      exact keyed_entries (Segments.mem_of_lookup first)
    · exact all_initial _
  · exact all_initial _

theorem tidy_of_next {p p' : Pool Shared Task} {i : Nat} {choice : Choice}
    (tidy : p.shared.store.Tidy) (taken : (pipeline cfg).next p i choice = some p') :
    p'.shared.store.Tidy := by
  rcases System.next_eq_some_iff.mp taken with ⟨task, shared, tasks, -, ran, rfl⟩
  have calls := calls_of_run ran
  cases call : task.storeCall? cfg with
  | none =>
      rw [call] at calls
      rw [show shared.store = p.shared.store from calls]
      exact tidy
  | some call' =>
      rw [call] at calls
      rcases calls { World.initial with store := p.shared.store } rfl with ⟨w', step, store⟩
      have disjoint := disjoint_of_step tidy.1 step
      have keyed := keyed_of_step tidy.2 step
      rw [store] at disjoint keyed
      exact ⟨disjoint, keyed⟩

/-- What holds of the store of the running process and of all copies that were flushed. -/
structure Bot.Stores (P : StoreInner → Prop) (b : Bot) : Prop where
  live : P b.pool.shared.store
  flushed : ∀ g file, Flush.routes g file ∈ b.flusher.flushes → P g

theorem flushes_of_step {f f' : Flusher} {event : FlushEvent}
    (step : FlusherStep serde f event f') :
    f'.flushes = f.flushes ∨
      ∃ part, event = .flush part ∧ f'.flushes = f.flushes ++ [part] := by
  cases step with
  | flush => exact Or.inr ⟨_, rfl, rfl⟩
  | io => exact Or.inl rfl
  | crash => exact Or.inl rfl

/-- A flush copies what holds of the live store. -/
theorem Bot.Stores.flush {P : StoreInner → Prop} {part : Flush} {flusher : Flusher}
    (stores : b.Stores P) (copied : part.store = b.pool.shared.store)
    (step : FlusherStep serde b.flusher (.flush part) flusher) :
    Bot.Stores P { b with flusher := flusher } := by
  refine ⟨stores.live, fun g file member => ?_⟩
  rcases flushes_of_step step with same | ⟨part', event, more⟩
  · rw [same] at member
    exact stores.flushed g file member
  · cases event
    rw [more, List.mem_append, List.mem_singleton] at member
    rcases member with earlier | rfl
    · exact stores.flushed g file earlier
    · rw [show g = b.pool.shared.store from copied]
      exact stores.live

/-- A step that flushes nothing keeps what holds of the copies. -/
theorem Bot.Stores.quiet {P : StoreInner → Prop} {pool : Pool Shared Task} {flusher : Flusher}
    (stores : b.Stores P) (live : P pool.shared.store)
    (same : flusher.flushes = b.flusher.flushes) :
    Bot.Stores P { pool := pool, flusher := flusher } :=
  ⟨live, fun g file member => stores.flushed g file (same ▸ member)⟩

theorem flushes_io {f f' : Flusher} (step : FlusherStep serde f .io f') :
    f'.flushes = f.flushes := by
  cases step
  rfl

theorem flushes_crash {f f' : Flusher} (step : FlusherStep serde f .crash f') :
    f'.flushes = f.flushes := by
  cases step
  rfl

/-- The flush task of a bot runs as one alone. -/
theorem reach_flusher {guard : Bot → BotEvent → Prop}
    (reached : (botMachine serde cfg).Reach guard b) :
    (flushMachine serde).Reach Machine.anyStep b.flusher := by
  refine reached.invariant
    (fun b => (flushMachine serde).Reach Machine.anyStep b.flusher) ?_ ?_
  · intro b started
    exact .ofStart started.1
  · intro b event b' before _ taken
    cases taken with
    | run => exact before
    | flush _ _ step => exact before.step trivial step
    | io step => exact before.step trivial step
    | crash step _ => exact before.step trivial step

theorem reach_tidy {guard : Bot → BotEvent → Prop}
    (reached : (botMachine serde cfg).Reach guard b) : b.Stores StoreInner.Tidy := by
  refine reached.invariant (Bot.Stores StoreInner.Tidy) ?_ ?_
  · rintro ⟨pool, flusher⟩ ⟨⟨-, -, -, unflushed, -⟩, now, view, -, spawned⟩
    obtain rfl : pool = cfg.spawn now (startStore serde cfg flusher.writer.disk view) := spawned
    refine ⟨tidy_startStore serde cfg _ view, fun g file member => ?_⟩
    rw [show flusher.flushes = [] from unflushed] at member
    cases member
  · intro b event b' before _ taken
    cases taken with
    | run next => exact before.quiet (tidy_of_next before.live next) rfl
    | flush _ copied step => exact before.flush copied step
    | io step => exact before.quiet before.live (flushes_io step)
    | crash step _ => exact before.quiet (tidy_startStore serde cfg _ _) (flushes_crash step)

/-! ### Restarts -/

/-- Every flush of the routes copied the store of an earlier moment. -/
theorem flushed_earlier {b₀ : Bot} {steps : List (Machine.Entry Bot BotEvent)}
    (trace : (botMachine serde cfg).Trace b₀ steps b) (unflushed : b₀.flusher.flushes = [])
    {g : StoreInner} {file : RouteFile} (member : Flush.routes g file ∈ b.flusher.flushes) :
    ∃ entry ∈ steps, entry.label = .flush (.routes g file) ∧
      g = entry.before.pool.shared.store := by
  induction trace with
  | nil =>
      rw [unflushed] at member
      cases member
  | @snoc b b' event steps _ taken ih =>
      have later : Flush.routes g file ∈ b.flusher.flushes →
          ∃ entry ∈ steps ++ [(⟨b, event, b'⟩ : Machine.Entry Bot BotEvent)],
            entry.label = .flush (.routes g file) ∧ g = entry.before.pool.shared.store := by
        intro old
        rcases ih old with ⟨entry, inside, made⟩
        exact ⟨entry, List.mem_append_left _ inside, made⟩
      cases taken with
      | run => exact later member
      | io step => exact later (flushes_io step ▸ member)
      | crash step _ => exact later (flushes_crash step ▸ member)
      | flush _ copied step =>
          rcases flushes_of_step step with same | ⟨part, event, more⟩
          · exact later (same ▸ member)
          · cases event
            rw [more, List.mem_append, List.mem_singleton] at member
            rcases member with earlier | rfl
            · exact later earlier
            · exact ⟨_, List.mem_append_right _ (List.mem_singleton_self _), rfl, copied⟩

/-- **A restart restores one moment.** In every run, a process that starts after a crash
holds the routes, without their variants, and the whole index that the store held when one
flush earlier in the run copied it; or it holds none, because the store is not persisted, no
`routes.json` was ever put in place, or the one in place cannot be read. -/
theorem restart_restores (reads : serde.ReadsBack) {b₀ : Bot} {now : Nat} {view : DiskView}
    {steps : List (Machine.Entry Bot BotEvent)}
    (started : (botMachine serde cfg).start b₀)
    (trace : (botMachine serde cfg).Trace b₀ steps b)
    (crashed : BotStep serde cfg b (.crash now view) b') :
    (Restores .new b'.pool.shared.store ∧
        (cfg.persists = false ∨ b'.flusher.writer.disk routesPath = none ∨
          view.readable routesPath = false)) ∨
      ∃ entry ∈ steps, ∃ file,
        entry.label = .flush (.routes entry.before.pool.shared.store file) ∧
          Restores entry.before.pool.shared.store b'.pool.shared.store := by
  have reached := trace.reach started
  have after := reach_flusher (reached.step trivial crashed)
  have tidy := reach_tidy (reached.step trivial crashed)
  cases crashed with
  | crash step _ =>
      rcases restores_startStore reads after tidy.flushed view with
        none | ⟨g, file, member, restores⟩
      · exact Or.inl none
      · rw [show Flusher.flushes _ = _ from flushes_crash step] at member
        rcases flushed_earlier trace started.1.2.2.2.1 member with ⟨entry, inside, label, rfl⟩
        exact Or.inr ⟨entry, inside, file, label, restores⟩

/-! ### Items -/

theorem shared_backed_spawn (now : Nat) {g : StoreInner} (backed : StoreBacked metis cfg g) :
    (cfg.spawn now g).shared.Backed metis cfg ∧
      ∀ task ∈ (cfg.spawn now g).tasks, task.Backed metis cfg := by
  refine ⟨⟨backed, fun _ none => absurd none List.not_mem_nil,
    fun _ none => absurd none List.not_mem_nil⟩, ?_⟩
  exact cfg.forall_spawn now g (backed_task trivial) (backed_task trivial) (backed_task trivial)
    (backed_task trivial)

/-- What a start restores from backed copies is backed. -/
theorem backed_startStore {f : Flusher} (reads : serde.ReadsBack)
    (reached : (flushMachine serde).Reach Machine.anyStep f)
    (tidy : ∀ g file, Flush.routes g file ∈ f.flushes → g.Tidy)
    (flushed : ∀ g file, Flush.routes g file ∈ f.flushes → StoreBacked metis cfg g)
    (view : DiskView) :
    StoreBacked metis cfg (startStore serde cfg f.writer.disk view) := by
  rcases restores_startStore reads reached tidy view with
    ⟨restores, -⟩ | ⟨g, file, member, restores⟩
  · exact restores.backed storeBacked_new
  · exact restores.backed (flushed g file member)

/-- **Nothing in flight is without an opportunity.** When Metis answers as it may, then in
every lifetime, whatever crashes and torn flushes came before: every pair is a round trip of
two of its quotes past the threshold, and every item that is queued, on its way into the queue
or held by a worker carries an instruction that Metis gave to a checked opportunity of as many
hops, or one made from its answers to related opportunities for just the amounts of this one. -/
theorem items_backed (reads : serde.ReadsBack)
    (reached : (botMachine serde cfg).Reach metis.AllowsStep b) :
    b.pool.shared.Backed metis cfg ∧ ∀ task ∈ b.pool.tasks, task.Backed metis cfg := by
  have inv : (b.pool.shared.Backed metis cfg ∧ ∀ task ∈ b.pool.tasks, task.Backed metis cfg) ∧
      b.Stores (StoreBacked metis cfg) := by
    refine reached.invariant_of_reach (fun b =>
      (b.pool.shared.Backed metis cfg ∧ ∀ task ∈ b.pool.tasks, task.Backed metis cfg) ∧
        b.Stores (StoreBacked metis cfg)) ?_ ?_
    · rintro ⟨pool, flusher⟩ started
      obtain ⟨idle, now, view, -, spawned⟩ := started
      obtain rfl : pool = cfg.spawn now (startStore serde cfg flusher.writer.disk view) := spawned
      have unflushed : ∀ g file, Flush.routes g file ∉ flusher.flushes := by
        intro g file member
        rw [show flusher.flushes = [] from idle.2.2.2.1] at member
        cases member
      have backed : StoreBacked metis cfg (startStore serde cfg flusher.writer.disk view) :=
        backed_startStore reads (.ofStart idle)
          (fun g file member => (unflushed g file member).elim)
          (fun g file member => (unflushed g file member).elim) view
      exact ⟨shared_backed_spawn now backed, backed,
        fun g file member => (unflushed g file member).elim⟩
    · intro b event b' earlier before allowed taken
      obtain ⟨pool, stores⟩ := before
      have after := reach_flusher (earlier.step allowed taken)
      have tidy := reach_tidy (earlier.step allowed taken)
      cases taken with
      | @run i choice _ next =>
          have kept : ∀ s task choice s' tasks, metis.Allows task choice →
              (pipeline cfg).run s task choice = some (s', tasks) → s.Backed metis cfg →
                task.Backed metis cfg → s'.Backed metis cfg ∧
                  (∀ task ∈ tasks, task.Backed metis cfg) ∧
                    ∀ task : Task, task.Backed metis cfg → task.Backed metis cfg := by
            intro s task choice s' tasks answers ran shared backed
            obtain ⟨shared', created⟩ := backed_of_run answers ran shared backed
            exact ⟨shared', created, fun _ same => same⟩
          have pool' := System.next_keeps_allowed kept allowed next pool
          exact ⟨pool', stores.quiet pool'.1.store rfl⟩
      | flush _ copied step => exact ⟨pool, stores.flush copied step⟩
      | io step => exact ⟨pool, stores.quiet stores.live (flushes_io step)⟩
      | @crash now view flusher step _ =>
          have same := flushes_crash step
          have backed := backed_startStore reads after tidy.flushed
            (fun g file member => stores.flushed g file (same ▸ member)) view
          exact ⟨shared_backed_spawn now backed, stores.quiet backed same⟩
  exact inv.1

end Runs

/-! ## An item that is queued -/

/-- A first process over an empty disk. -/
def firstBot (serde : Serde) (cfg : Settings) : Bot where
  pool := cfg.spawn oneSecond (startStore serde cfg (fun _ => none) ⟨[], fun _ => true⟩)
  flusher := ⟨⟨fun _ => none, [], false⟩, .idle, []⟩

theorem start_firstBot (serde : Serde) (cfg : Settings) :
    (botMachine serde cfg).start (firstBot serde cfg) :=
  ⟨⟨rfl, rfl, rfl, rfl, fun _ _ => rfl⟩, oneSecond, ⟨[], fun _ => true⟩, Nat.le_refl _, rfl⟩

/-- A schedule of the pipeline goes on with a run of the bot. -/
theorem trace_exec {serde : Serde} {cfg : Settings} {b₀ b : Bot} {pool : Pool Shared Task}
    {steps : List (Machine.Entry Bot BotEvent)} {schedule : List (Nat × Choice)}
    (trace : (botMachine serde cfg).Trace b₀ steps b)
    (played : (pipeline cfg).exec Machine.anyStep b.pool schedule = some pool) :
    ∃ more, (botMachine serde cfg).Trace b₀ (steps ++ more) { b with pool := pool } ∧
      ∀ entry ∈ more, ∃ label ∈ schedule, entry.label = .run label.1 label.2 := by
  induction schedule generalizing b steps with
  | nil =>
      obtain rfl := Option.some.inj played
      exact ⟨[], by rwa [List.append_nil], by simp⟩
  | cons label rest ih =>
      rcases Machine.play_cons played with ⟨next, -, taken, played⟩
      have step : BotStep serde cfg b (.run label.1 label.2) { b with pool := next } := .run taken
      rcases ih (b := { b with pool := next }) (trace.snoc step) played with ⟨more, later, ran⟩
      rw [List.append_assoc] at later
      refine ⟨_, later, fun entry member => ?_⟩
      rcases List.mem_cons.mp member with rfl | member
      · exact ⟨label, List.mem_cons_self, rfl⟩
      · rcases ran entry member with ⟨label', inside, same⟩
        exact ⟨label', List.mem_cons_of_mem _ inside, same⟩

/-- A schedule of answers that Metis may give. -/
theorem reach_exec {serde : Serde} {cfg : Settings} {metis : MetisAnswers} {b : Bot}
    {pool : Pool Shared Task} {schedule : List (Nat × Choice)}
    (started : (botMachine serde cfg).start b)
    (answers : ∀ label ∈ schedule, ∀ task, metis.Allows task label.2)
    (played : (pipeline cfg).exec Machine.anyStep b.pool schedule = some pool) :
    (botMachine serde cfg).Reach metis.AllowsStep { b with pool := pool } := by
  rcases trace_exec (.nil b) played with ⟨steps, trace, ran⟩
  refine trace.reach_guarded started fun entry member => ?_
  rcases ran entry member with ⟨label, inside, same⟩
  rw [same]
  exact fun task _ => answers label inside task

theorem readsBack_emptySerde : emptySerde.ReadsBack := by
  intro file content written
  simp only [emptySerde, Option.ite_none_right_eq_some, Option.some.injEq, Bool.and_eq_true,
    List.isEmpty_iff] at written
  rcases written with ⟨⟨noRoutes, noPairs⟩, rfl⟩
  refine ⟨⟨1, [], ∅⟩, by simp [emptySerde], noRoutes.symm, fun key => ?_⟩
  rw [Std.HashMap.getElem?_of_isEmpty noPairs, Std.HashMap.getElem?_empty]

/-- The two pools of an arrival, and the instruction for them. -/
def poolsMetis : MetisAnswers where
  quote inputMint outputMint amount onlyDirect quote :=
    roundTrip ["poolA"] ["poolB"] inputMint outputMint amount onlyDirect = some quote
  swapInstructions _ swapIxs := swapIxs = tableSwap

theorem items_backed_arrival :
    ∃ b, (botMachine emptySerde oneSlot).Reach poolsMetis.AllowsStep b ∧
      b.pool.shared.lifo.length = 1 ∧
        ∀ item ∈ b.pool.shared.lifo, ItemBacked poolsMetis oneSlot item := by
  have ended : ((pipeline oneSlot).exec Machine.anyStep (firstBot emptySerde oneSlot).pool
      (arrival 1)).any fun p => p.shared.lifo.length = 1 := by decide
  rcases (Option.any_eq_true _ _).mp ended with ⟨p, played, queued⟩
  have answers : ∀ label ∈ arrival 1, ∀ task, poolsMetis.Allows task label.2 := by
    simp [arrival, MetisAnswers.Allows, poolsMetis]
  have reached := reach_exec (start_firstBot emptySerde oneSlot) answers played
  exact ⟨_, reached, of_decide_eq_true queued, (items_backed readsBack_emptySerde reached).1.lifo⟩

/-! ## A route that is captured, flushed and restored -/

/-- The process ends between two steps on the disk. -/
theorem step_crash (serde : Serde) (cfg : Settings) (b : Bot) (now : Nat) (view : DiskView)
    (later : oneSecond ≤ now) :
    BotStep serde cfg b (.crash now view)
      { pool := cfg.spawn now (startStore serde cfg b.flusher.writer.disk view)
        flusher := ⟨⟨b.flusher.writer.disk, [], false⟩, .idle, b.flusher.flushes⟩ } :=
  .crash (.crash .between) later

def capturing : Settings := { oneSlot with saveNew := true }

/-- A quote through a pool with both mints. -/
def pooledQuote (inputMint outputMint outAmount pool : String) : QuoteResponse :=
  { poolQuote inputMint outputMint outAmount [] with
    routePlan := .array [.object [("swapInfo", .object [("ammKey", .string pool),
      ("inputMint", .string inputMint), ("outputMint", .string outputMint)])]] }

def pooledTrip : GetQuote := fun inputMint outputMint _ _ =>
  if inputMint = wsolMint then some (pooledQuote inputMint outputMint "150" "poolA")
  else some (pooledQuote inputMint outputMint "1010000" "poolB")

/-- A pair is found, merged and missed by Tier 1. -/
def untilTierTwo : List (Nat × Choice) :=
  (1, .check "EPjFWdd5AufqSSqeM2qN1xzybapC8G4wEGkZwyTDt1v" 1000000 true) ::
    List.replicate 2 (1, .go) ++
    (1, .quoted pooledTrip) :: List.replicate 5 (1, .go) ++ [(3, .opp 0), (3, .go)]

/-- Metis is asked for the pair, and its answer is stored. -/
def untilStored : List (Nat × Choice) :=
  List.replicate 4 (3, .go) ++ (4, .answered (.ok tableSwap) 40) :: List.replicate 6 (4, .go)

theorem isSome_untilTierTwo : ((pipeline capturing).exec Machine.anyStep
    (capturing.spawn oneSecond .new) untilTierTwo).isSome := by
  decide

/-- The pipeline before the lookup of the hops. -/
def atTierTwo : Pool Shared Task :=
  ((pipeline capturing).exec Machine.anyStep (capturing.spawn oneSecond .new) untilTierTwo).get
    isSome_untilTierTwo

/-- The pair after the merge. -/
def pooled : Merged where
  quote := { pooledQuote wsolMint wsolMint "1006600" "" with
    routePlan := .array [
      .object [("swapInfo", .object [("ammKey", .string "poolA"),
        ("inputMint", .string wsolMint),
        ("outputMint", .string "EPjFWdd5AufqSSqeM2qN1xzybapC8G4wEGkZwyTDt1v")])],
      .object [("swapInfo", .object [("ammKey", .string "poolB"),
        ("inputMint", .string "EPjFWdd5AufqSSqeM2qN1xzybapC8G4wEGkZwyTDt1v"),
        ("outputMint", .string wsolMint)])]] }
  hopCount := 2
  amount := 1000000

/-- Both hops are unknown. -/
def unknownHops : Task where
  pending := [.add .hopTemplateMissing 2]
  stage := .tier3 pooled

/-- The pipeline after the lookup. -/
def afterTierTwo : Pool Shared Task :=
  { atTierTwo with tasks := atTierTwo.tasks.take 3 ++ [unknownHops] ++ atTierTwo.tasks.drop 4 }

theorem next_atTierTwo : (pipeline capturing).next atTierTwo 3 .go = some afterTierTwo := by
  have missing : checkHops .new pooled.quote.routePlan = (false, 2) := checkHops_new _
  have ran : (pipeline capturing).run atTierTwo.shared (Stage.tier2 pooled).task .go =
      some (atTierTwo.shared, [unknownHops]) := by
    show scanStep capturing atTierTwo.shared (.tier2 pooled) .go = _
    rw [scanStep, show atTierTwo.shared.store = .new from rfl, missing]
    rfl
  exact System.next_eq_some_iff.mpr ⟨_, _, _, rfl, ran, rfl⟩

theorem isSome_untilStored : ((pipeline capturing).exec Machine.anyStep afterTierTwo
    untilStored).isSome := by
  decide

/-- The pipeline after the capture. -/
def afterCapture : Pool Shared Task :=
  ((pipeline capturing).exec Machine.anyStep afterTierTwo untilStored).get isSome_untilStored

def pooledTemplate : RouteTemplate :=
  newTemplate Base64.standard pooled.sig tableSwap 1000000 1006600

def pooledPair : String :=
  "poolA:So11111111111111111111111111111111111111112:" ++
    "EPjFWdd5AufqSSqeM2qN1xzybapC8G4wEGkZwyTDt1v:none:0|" ++
    "poolB:EPjFWdd5AufqSSqeM2qN1xzybapC8G4wEGkZwyTDt1v:" ++
    "So11111111111111111111111111111111111111112:none:0"

/-- `routes.json` with one route and its index entry. -/
def pooledFile : RouteFile where
  schemaVersion := 1
  routes := [.fromTemplate pooledTemplate]
  hopPairs := (∅ : Std.HashMap String String).insert pooledPair (sigText pooled.sig)

/-- The text of this file. -/
def pooledText : List UInt8 :=
  asBytes ("\x7b\"schema_version\":1,\"routes\":[\x7b\"sig\":\"" ++ sigText pooled.sig ++
    "\",\"swap_ixs\":\x7b\"computeBudgetInstructions\":[],\"setupInstructions\":[]," ++
    "\"swapInstruction\":\x7b\"programId\":\"JUP6LkbZbjS1jKKwapdHNy74zcZ3tLUZoi5QNyVTaV4\"," ++
    "\"accounts\":[\x7b\"pubkey\":\"So11111111111111111111111111111111111111112\"," ++
    "\"isSigner\":false,\"isWritable\":false\x7d],\"data\":\"\"\x7d,\"cleanupInstruction\":null," ++
    "\"addressLookupTableAddresses\":[\"GbPYrQEDYV9Bn4Kp9oT3h5sQSYFpwLyhpD7PJE8xgRHX\"]\x7d," ++
    "\"template_in_amount\":1000000,\"template_quoted_out\":1006600,\"in_amount_offset\":null," ++
    "\"quoted_out_offset\":null,\"seen_count\":1,\"hit_count\":0\x7d],\"hop_pairs\":\x7b\"" ++
    pooledPair ++ "\":\"" ++ sigText pooled.sig ++ "\"\x7d\x7d")

/-- `serde_json` on this file. -/
def pooledSerde : Serde where
  routes file :=
    if file.routes = pooledFile.routes ∧
        file.hopPairs.toList = [(pooledPair, sigText pooled.sig)] then
      some pooledText
    else none
  hops _ := none
  readRoutes bytes := if bytes = pooledText then some pooledFile else none
  readHops _ := none

theorem toList_hopPairs_pooledFile :
    pooledFile.hopPairs.toList = [(pooledPair, sigText pooled.sig)] := by
  have inserted : pooledFile.hopPairs.toList.Perm _ := Std.HashMap.toList_insert_perm
  rw [Std.HashMap.toList_empty, List.filter_nil] at inserted
  exact List.perm_singleton.mp inserted

theorem readsBack_pooledSerde : pooledSerde.ReadsBack := by
  intro file content written
  simp only [pooledSerde, Option.ite_none_right_eq_some, Option.some.injEq] at written
  rcases written with ⟨⟨routes, pairs⟩, rfl⟩
  refine ⟨pooledFile, by simp only [pooledSerde, if_true], routes.symm,
    fun key => Option.ext fun sig => ?_⟩
  rw [← Std.HashMap.mem_toList_iff_getElem?_eq_some, ← Std.HashMap.mem_toList_iff_getElem?_eq_some,
    pairs, toList_hopPairs_pooledFile]

theorem store_afterCapture : afterCapture.shared.store =
    recordHops (insertRoute Base64.standard .new pooled.sig tableSwap 1000000 1006600
      pooled.quote.routePlan) pooled.quote.routePlan none := by
  rfl

theorem find_new (sig : U128) : StoreInner.new.segments.find sig = none :=
  Segments.find_eq_none_iff.mpr (not_live_initial sig)

/-- The route is the only one. -/
theorem segments_afterCapture : afterCapture.shared.store.segments =
    ⟨(∅ : Std.HashMap U128 RouteTemplate).insert pooled.sig pooledTemplate, ∅⟩ := by
  have room : StoreInner.new.segments.hot.size < routeSegCap := by
    rw [show StoreInner.new.segments.hot.size = 0 from Std.HashMap.size_empty]
    decide
  have pushed : afterCapture.shared.store.segments =
      StoreInner.new.segments.push routeSegCap pooled.sig pooledTemplate := by
    rw [store_afterCapture, segments_recordHops, segments_insertRoute, find_new]
    rfl
  rw [pushed, Segments.push_of_room room]
  rfl

set_option maxRecDepth 20000 in
theorem pairKey_pooled : pairKey pooled.quote.routePlan = some pooledPair := by
  decide

theorem hopPairIndex_afterCapture : afterCapture.shared.store.hopPairIndex =
    (∅ : Std.HashMap String U128).insertIfNew pooledPair pooled.sig := by
  rw [store_afterCapture, hopPairIndex_recordHops, hopPairIndex_insertRoute, pairKey_pooled,
    find_new]
  rfl

/-- What a flush of this store may write. -/
theorem snapshot_afterCapture : Snapshot afterCapture.shared.store pooledFile where
  routes := by
    have inserted : ((∅ : Std.HashMap U128 RouteTemplate).insert pooled.sig
        pooledTemplate).toList.Perm _ := Std.HashMap.toList_insert_perm
    have hot : afterCapture.shared.store.routesHot = _ :=
      congrArg Segments.hot segments_afterCapture
    have cold : afterCapture.shared.store.routesCold = ∅ :=
      congrArg Segments.cold segments_afterCapture
    rw [Std.HashMap.toList_empty, List.filter_nil] at inserted
    have records := inserted.map fun route => RouteRecord.fromTemplate route.2
    rw [List.map_singleton] at records
    rw [flushRoutes, hot, cold, Std.HashMap.toList_empty, List.append_nil, pooledFile]
    exact records.symm
  hopPairs key := by
    rw [flushRoutes, Std.HashMap.getElem?_map, hopPairIndex_afterCapture, pooledFile,
      Std.HashMap.getElem?_insert, Std.HashMap.getElem?_insertIfNew]
    by_cases same : pooledPair = key
    · simp [same]
    · simp [same]

theorem jobs_pooledFile (g : StoreInner) :
    (Flush.routes g pooledFile).jobs pooledSerde = [⟨routesPath, pooledText⟩] := by
  have written : pooledSerde.routes pooledFile = some pooledText := by
    simp only [pooledSerde, toList_hopPairs_pooledFile, and_self, if_true]
  simp only [Flush.jobs, written, Option.map_some, Option.toList_some]

def capturedBot : Bot where
  pool := afterCapture
  flusher := ⟨⟨fun _ => none, [], false⟩, .idle, []⟩

/-- The first process runs until the route is captured. -/
theorem trace_captured : ∃ steps,
    (botMachine pooledSerde capturing).Trace (firstBot pooledSerde capturing) steps capturedBot ∧
      ∀ entry ∈ steps, ∃ i choice, entry.label = .run i choice := by
  rcases trace_exec (.nil (M := botMachine pooledSerde capturing) (firstBot pooledSerde capturing))
    (Option.some_get isSome_untilTierTwo).symm with ⟨first, looked, ranFirst⟩
  have missed := looked.snoc (BotStep.run next_atTierTwo)
  rcases trace_exec missed (Option.some_get isSome_untilStored).symm with ⟨later, stored, ranLater⟩
  refine ⟨_, stored, fun entry member => ?_⟩
  rcases List.mem_append.mp member with member | member
  · rcases List.mem_append.mp member with member | member
    · rcases ranFirst entry member with ⟨label, -, same⟩
      exact ⟨_, _, same⟩
    · exact ⟨3, .go, congrArg Machine.Entry.label (List.mem_singleton.mp member)⟩
  · rcases ranLater entry member with ⟨label, -, same⟩
    exact ⟨_, _, same⟩

/-- The route is captured, its flush is put in place, and the process ends. -/
theorem restart_restores_captured :
    ∃ (b b' : Bot) (steps : List (Machine.Entry Bot BotEvent)),
      (botMachine pooledSerde capturing).Trace (firstBot pooledSerde capturing) steps b ∧
        b'.flusher.writer.disk routesPath = some pooledText ∧
          (∃ entry ∈ steps, ∃ file,
            entry.label = .flush (.routes entry.before.pool.shared.store file) ∧
              Restores entry.before.pool.shared.store b'.pool.shared.store) ∧
          b'.pool.shared.store.segments.Holds pooled.sig pooledTemplate.cold ∧
          b'.pool.shared.store.hopPairIndex[pooledPair]? = some pooled.sig := by
  obtain ⟨steps, captured, ran⟩ := trace_captured
  have flushed : BotStep pooledSerde capturing capturedBot
      (.flush (.routes afterCapture.shared.store pooledFile)) _ :=
    .flush rfl rfl (.flush rfl nofun snapshot_afterCapture)
  rw [jobs_pooledFile] at flushed
  have trace := ((captured.snoc flushed).snoc (BotStep.io (.io .write))).snoc
    (BotStep.io (.io .rename))
  have restored := restart_restores readsBack_pooledSerde (start_firstBot pooledSerde capturing)
    trace (step_crash pooledSerde capturing _ oneSecond ⟨[], fun _ => true⟩ (Nat.le_refl oneSecond))
  have apart : routesPath ≠ tmpPath routesPath := finalPath_ne_tmpPath (Or.inl rfl)
  have inPlace : Function.update (Function.update (Function.update (fun _ => none)
      (tmpPath routesPath) (some pooledText)) routesPath
        (Function.update (fun _ => none) (tmpPath routesPath) (some pooledText)
          (tmpPath routesPath))) (tmpPath routesPath) none routesPath = some pooledText := by
    rw [Function.update_of_ne apart, Function.update_self, Function.update_self]
  rcases restored with ⟨-, off | absent | unreadable⟩ | ⟨entry, member, file, label, restores⟩
  · cases off
  · cases inPlace.symm.trans absent
  · cases unreadable
  · -- The flush after the capture is the only one.
    have before : entry.before = capturedBot := by
      simp only [List.mem_append, List.mem_singleton] at member
      rcases member with ((ran' | rfl) | rfl) | rfl
      · rcases ran entry ran' with ⟨i, choice, same⟩
        cases same.symm.trans label
      · rfl
      · cases label
      · cases label
    have held : capturedBot.pool.shared.store.segments.Holds pooled.sig pooledTemplate := by
      rw [capturedBot, segments_afterCapture]
      exact Or.inl Std.HashMap.getElem?_insert_self
    have indexed : capturedBot.pool.shared.store.hopPairIndex[pooledPair]? = some pooled.sig := by
      rw [capturedBot, hopPairIndex_afterCapture, Std.HashMap.getElem?_insertIfNew]
      simp
    refine ⟨_, _, _, trace, inPlace, ⟨entry, member, file, label, restores⟩, ?_, ?_⟩
    · exact (restores.routes _ _).mpr ⟨pooledTemplate, before ▸ held, rfl⟩
    · exact (restores.index _).trans (before ▸ indexed)

end ArbBot
