import ArbBot.Pipeline.Funnel
import Mathlib.Algebra.Order.BigOperators.Group.List

/-!
# Slots

The limiters bound the grants of each path (`Limits`). `overdrawn` books the sends of a
path against its grants; every decision keeps the books but the drop of an item that holds
a slot (`overdrawn_move`). So each send has a grant of its own (`used_le_granted`), and
each grant a send just when no such drop occurs (`slots_used_iff`).
-/

namespace ArbBot

open Foundation Sdk

/-! ## Grants -/

/-- The limit of a path. -/
def Settings.limit (cfg : Settings) : Path → Nat
  | .rest => cfg.jitoMaxPerSecond.toNat
  | .grpc => (cfg.grpcMaxPerSecond.getD 0).toNat

/-- The limiter paces these grants at the given rate. -/
def Keeps (limiter : RateLimiter) (maxPerSecond : UInt32) (now : Nat) (grants : List Nat) :
    Prop :=
  limiter.maxPerSecond = maxPerSecond ∧ ∃ last ≤ now, limiter.Paced last grants

/-- What holds of the clock, the limiters and the grants. -/
structure Limits (cfg : Settings) (s : Shared) : Prop where
  late : oneSecond ≤ s.now
  rest : Keeps s.jitoLimiter cfg.jitoMaxPerSecond s.now (s.grants .rest)
  grpc : ∀ limiter, s.jitoGrpcLimiter = some limiter →
    ∃ maxPerSecond, cfg.grpcMaxPerSecond = some maxPerSecond ∧
      Keeps limiter maxPerSecond s.now (s.grants .grpc)
  noGrpc : s.jitoGrpcLimiter = none → s.grants .grpc = []

section Limits

variable {limiter limiter' : RateLimiter} {maxPerSecond : UInt32} {now now' : Nat}
  {grants : List Nat} {granted : Bool}

theorem Keeps.wait (keeps : Keeps limiter maxPerSecond now grants) (later : now ≤ now') :
    Keeps limiter maxPerSecond now' grants := by
  rcases keeps with ⟨same, last, past, paced⟩
  exact ⟨same, last, past.trans later, paced⟩

theorem Keeps.call (keeps : Keeps limiter maxPerSecond now grants) (late : oneSecond ≤ now)
    (called : limiter.tryAcquire now = some (granted, limiter')) :
    Keeps limiter' maxPerSecond now (if granted then grants ++ [now] else grants) := by
  rcases keeps with ⟨same, last, past, paced⟩
  rcases paced.tryAcquire past late with ⟨granted', limiter'', called', same', paced', -⟩
  rw [called] at called'
  cases called'
  exact ⟨same'.trans same, now, Nat.le_refl _, paced'⟩

theorem Keeps.sparse (keeps : Keeps limiter maxPerSecond now grants) :
    Sparse oneSecond maxPerSecond.toNat grants := by
  rcases keeps with ⟨rfl, last, -, paced⟩
  exact paced.sparse

variable {cfg : Settings} {s s' : Shared}

theorem limits_spawn (cfg : Settings) {now : Nat} (store : StoreInner)
    (late : oneSecond ≤ now) : Limits cfg (cfg.spawn now store).shared where
  late := late
  rest := ⟨rfl, now, Nat.le_refl _, RateLimiter.paced_new _ _⟩
  grpc limiter present := by
    rcases Option.map_eq_some_iff.mp present with ⟨maxPerSecond, set, rfl⟩
    exact ⟨maxPerSecond, set, rfl, now, Nat.le_refl _, RateLimiter.paced_new _ _⟩
  noGrpc _ := rfl

theorem Limits.perform (limits : Limits cfg s) (action : Action) :
    Limits cfg (perform cfg s action) := by
  cases action <;> exact ⟨limits.late, limits.rest, limits.grpc, limits.noGrpc⟩

/-- **One decision** keeps the limits. -/
theorem Limits.move {stage : Stage} {tasks : List Task} (limits : Limits cfg s)
    (move : Move cfg s stage s' tasks) : Limits cfg s' := by
  cases move with
  | wait nanoseconds =>
      have later : s.now ≤ s.now + nanoseconds := Nat.le_add_right _ _
      refine ⟨limits.late.trans later, limits.rest.wait later, ?_, limits.noGrpc⟩
      intro limiter present
      rcases limits.grpc limiter present with ⟨maxPerSecond, set, keeps⟩
      exact ⟨maxPerSecond, set, keeps.wait later⟩
  | grantRest item acquired =>
      refine ⟨limits.late, ?_, ?_, ?_⟩
      · simpa using limits.rest.call limits.late acquired
      · simpa using limits.grpc
      · simpa using limits.noGrpc
  | refuseRest item acquired =>
      exact ⟨limits.late, limits.rest.call limits.late acquired, limits.grpc, limits.noGrpc⟩
  | grantGrpc item present acquired =>
      rcases limits.grpc _ present with ⟨maxPerSecond, set, keeps⟩
      refine ⟨limits.late, ?_, ?_, by simp⟩
      · simpa using limits.rest
      · rintro limiter ⟨⟩
        exact ⟨maxPerSecond, set, by simpa using keeps.call limits.late acquired⟩
  | refuseGrpc item present acquired =>
      rcases limits.grpc _ present with ⟨maxPerSecond, set, keeps⟩
      refine ⟨limits.late, limits.rest, ?_, by simp⟩
      rintro limiter ⟨⟩
      exact ⟨maxPerSecond, set, keeps.call limits.late acquired⟩
  | _ => exact ⟨limits.late, limits.rest, limits.grpc, limits.noGrpc⟩

theorem Limits.reach {guard : Pool Shared Task → Nat × Choice → Prop} {p : Pool Shared Task}
    (reached : (pipelineMachine cfg).Reach guard p) : Limits cfg p.shared := by
  refine System.Reach.shared (Limits cfg) ?_ ?_ reached
  · intro p given
    rcases given with ⟨now, store, late, rfl⟩
    exact limits_spawn cfg store late
  · intro s task choice s' tasks ran limits
    rcases run_cases ran with ⟨action, rest, -, rfl, -⟩ | ⟨-, move⟩
    · exact limits.perform action
    · exact limits.move move

/-- No second holds more grants of a path than its limit. -/
theorem Limits.sparse (limits : Limits cfg s) (path : Path) :
    Sparse oneSecond (cfg.limit path) (s.grants path) := by
  cases path with
  | rest => exact limits.rest.sparse
  | grpc =>
      cases present : s.jitoGrpcLimiter with
      | none =>
          rw [limits.noGrpc present]
          exact sparse_nil _ _
      | some limiter =>
          rcases limits.grpc limiter present with ⟨maxPerSecond, set, keeps⟩
          rw [Settings.limit, set]
          exact keeps.sparse

end Limits

/-! ## Sends use up grants -/

/-- The sends of a path. -/
def Shared.sendsOn (s : Shared) (path : Path) : List Send := s.sends.filter (·.path = path)

/-- A stage holds a slot of the path, granted at an instant of the given kind. -/
def Stage.holdsSlot (cfg : Settings) (path : Path) (kind : Nat → Bool) (stage : Stage) : Int :=
  if stage.grant?.any fun grant => pathOf cfg grant = path ∧ kind grant.instant then 1 else 0

/-- How many more sends than grants there are for the instants of a kind. -/
def overdrawn (path : Path) (kind : Nat → Bool) (s : Shared) : Int :=
  ((s.sendsOn path).map Send.grantedAt).countP kind - (s.grants path).countP kind

section Slots

variable {cfg : Settings} {path : Path} {kind : Nat → Bool} {s s' : Shared} {stage : Stage}
  {tasks : List Task}

theorem holdsSlot_nonneg (cfg : Settings) (path : Path) (kind : Nat → Bool) (stage : Stage) :
    0 ≤ stage.holdsSlot cfg path kind := by
  rw [Stage.holdsSlot]
  split <;> simp

theorem holdsSlot_of_none (none : stage.grant? = none) :
    stage.holdsSlot cfg path kind = 0 := by
  rw [Stage.holdsSlot, none]
  rfl

theorem holdsSlot_of_some {grant : Grant} (some : stage.grant? = some grant) :
    stage.holdsSlot cfg path kind =
      if pathOf cfg grant = path ∧ kind grant.instant then 1 else 0 := by
  simp only [Stage.holdsSlot, some, Option.any_some, decide_eq_true_eq]

theorem grant_of_holdsPair (holds : stage.holdsPair) : stage.grant? = none := by
  cases stage <;> first | rfl | cases holds

theorem grant_of_arrives (arrives : stage.arrives) : stage.grant? = none := by
  cases stage <;> first | rfl | cases arrives

theorem grant_metisAnswer (cfg : Settings) (merged : Merged) (fetchMs : Nat)
    (result : Except SwapIxError SwapInstructionsResponse) :
    (metisAnswer cfg merged fetchMs result).stage.grant? = none := by
  cases result <;> rfl

/-- A grant leaves its path with one send less than before. -/
theorem overdrawn_granted (s : Shared) (path limiter : Path) (kind : Nat → Bool)
    (jitoLimiter : RateLimiter) (jitoGrpcLimiter : Option RateLimiter) :
    overdrawn path kind { s with
        grants := Function.update s.grants limiter (s.grants limiter ++ [s.now])
        jitoLimiter := jitoLimiter
        jitoGrpcLimiter := jitoGrpcLimiter } =
      overdrawn path kind s - if limiter = path ∧ kind s.now then 1 else 0 := by
  rw [overdrawn, overdrawn, Shared.sendsOn, Shared.sendsOn]
  dsimp only
  by_cases same : limiter = path
  · subst same
    rw [Function.update_self, List.countP_append, List.countP_singleton]
    by_cases counted : kind s.now
    · simp only [counted, if_true, and_self]
      omega
    · simp [counted]
  · rw [Function.update_of_ne (Ne.symm same), if_neg fun both => same both.1, sub_zero]

/-- A send. -/
theorem overdrawn_sent (s : Shared) (path : Path) (kind : Nat → Bool) (send : Send) :
    overdrawn path kind { s with sends := s.sends ++ [send] } =
      overdrawn path kind s + if send.path = path ∧ kind send.grantedAt then 1 else 0 := by
  rw [overdrawn, overdrawn, Shared.sendsOn, Shared.sendsOn, List.filter_append, List.map_append,
    List.countP_append]
  by_cases same : send.path = path
  · by_cases counted : kind send.grantedAt
    · simp only [same, counted, decide_true, List.filter_cons_of_pos, List.filter_nil,
        List.map_singleton, List.countP_singleton, and_self, if_true]
      omega
    · simp [same, counted]
  · simp [same]

/-- **One decision** keeps the books, or drops an item that holds a slot. -/
theorem overdrawn_move (limits : Limits cfg s) (move : Move cfg s stage s' tasks) :
    (∀ path kind, overdrawn path kind s' + (tasks.map (·.stage.holdsSlot cfg path kind)).sum =
        overdrawn path kind s + stage.holdsSlot cfg path kind) ∨
      ∃ item grant counter, stage = .build item grant ∧ s' = s ∧
        tasks = [{ pending := drop counter, stage := .acquire }] := by
  cases move with
  | dropBuild item grant exit => exact Or.inr ⟨item, grant, _, rfl, rfl, rfl⟩
  | descend store counters holds next scan =>
      apply Or.inl
      intro path kind
      rw [List.map_singleton, List.sum_singleton, holdsSlot_of_none (grant_of_holdsPair holds),
        holdsSlot_of_none (grant_of_holdsPair next)]
      rfl
  | ramHit store merged sig patched holds =>
      apply Or.inl
      intro path kind
      rw [holdsSlot_of_none (grant_of_holdsPair holds)]
      rfl
  | answered merged fetchMs result =>
      apply Or.inl
      intro path kind
      rw [List.map_singleton, List.sum_singleton,
        holdsSlot_of_none (grant_metisAnswer cfg merged fetchMs result)]
      rfl
  | push item arrives next _ _ =>
      apply Or.inl
      intro path kind
      have ended : ∀ next : Stage, next = .scan ∨ next = .finished → next.grant? = none := by
        rintro next (rfl | rfl) <;> rfl
      rw [List.map_singleton, List.sum_singleton, holdsSlot_of_none (grant_of_arrives arrives),
        holdsSlot_of_none (ended _ next)]
      rfl
  | grantRest item acquired =>
      apply Or.inl
      intro path kind
      have path' : pathOf cfg { limiter := .rest, instant := s.now } = .rest := rfl
      rw [overdrawn_granted, List.map_singleton, List.sum_singleton, Stage.task,
        holdsSlot_of_some rfl, holdsSlot_of_none rfl, path', add_zero]
      exact sub_add_cancel _ _
  | grantGrpc item present acquired =>
      apply Or.inl
      intro path kind
      rcases limits.grpc _ present with ⟨maxPerSecond, set, -⟩
      have path' : pathOf cfg { limiter := .grpc, instant := s.now } = .grpc := by
        simp only [pathOf, set, Option.isSome_some, if_true]
      rw [overdrawn_granted, List.map_singleton, List.sum_singleton, Stage.task,
        holdsSlot_of_some rfl, holdsSlot_of_none rfl, path', add_zero]
      exact sub_add_cancel _ _
  | built item grant =>
      apply Or.inl
      intro path kind
      rw [List.map_singleton, List.sum_singleton]
      rfl
  | send item grant =>
      apply Or.inl
      intro path kind
      rw [overdrawn_sent, List.map_singleton, List.sum_singleton, Stage.task,
        holdsSlot_of_none rfl, holdsSlot_of_some rfl, add_zero]
      rfl
  | _ => exact Or.inl fun path kind => rfl

/-- No decision overdraws. -/
theorem overdrawn_move_le (path : Path) (kind : Nat → Bool) (limits : Limits cfg s)
    (move : Move cfg s stage s' tasks) :
    overdrawn path kind s' + (tasks.map (·.stage.holdsSlot cfg path kind)).sum ≤
      overdrawn path kind s + stage.holdsSlot cfg path kind := by
  rcases overdrawn_move limits move with kept | ⟨item, grant, counter, rfl, rfl, rfl⟩
  · exact Int.le_of_eq (kept path kind)
  · exact Int.add_le_add_left (holdsSlot_nonneg cfg path kind _) _

theorem overdrawn_perform (path : Path) (kind : Nat → Bool) (cfg : Settings) (s : Shared)
    (action : Action) : overdrawn path kind (perform cfg s action) = overdrawn path kind s := by
  cases action <;> rfl

/-- The sends and the slots that are held, against the grants. -/
def slotTotal (cfg : Settings) (path : Path) (kind : Nat → Bool) (p : Pool Shared Task) : Int :=
  p.total (overdrawn path kind) (·.stage.holdsSlot cfg path kind)

theorem slotTotal_spawn (cfg : Settings) (path : Path) (kind : Nat → Bool) (now : Nat)
    (store : StoreInner) : slotTotal cfg path kind (cfg.spawn now store) = 0 := by
  rw [slotTotal, cfg.total_spawn now store rfl rfl rfl rfl]
  rfl

theorem slotTotal_nonpos {guard : Pool Shared Task → Nat × Choice → Prop} {p : Pool Shared Task}
    (path : Path) (kind : Nat → Bool) (reached : (pipelineMachine cfg).Reach guard p) :
    slotTotal cfg path kind p ≤ 0 := by
  refine System.Reach.total_le ?_ ?_ reached
  · intro p task choice s' tasks earlier ran
    rcases run_cases ran with ⟨action, rest, -, rfl, rfl⟩ | ⟨-, move⟩
    · rw [List.map_singleton, List.sum_singleton, overdrawn_perform]
    · exact overdrawn_move_le path kind (Limits.reach earlier) move
  · intro p given
    rcases given with ⟨now, store, -, rfl⟩
    exact Int.le_of_eq (slotTotal_spawn cfg path kind now store)

theorem sum_holdsSlot_nonneg (cfg : Settings) (path : Path) (kind : Nat → Bool)
    (tasks : List Task) : 0 ≤ (tasks.map (·.stage.holdsSlot cfg path kind)).sum := by
  apply List.sum_nonneg
  intro slots member
  rcases List.mem_map.mp member with ⟨task, _, rfl⟩
  exact holdsSlot_nonneg cfg path kind task.stage

/-- **Each send of a path has a grant of its own.** -/
theorem used_le_granted {guard : Pool Shared Task → Nat × Choice → Prop} {p : Pool Shared Task}
    (path : Path) (reached : (pipelineMachine cfg).Reach guard p) :
    ((p.shared.sendsOn path).map Send.grantedAt).Subperm (p.shared.grants path) := by
  rw [List.subperm_ext_iff]
  intro instant _
  have nonpos := slotTotal_nonpos path (· == instant) reached
  have held := sum_holdsSlot_nonneg cfg path (· == instant) p.tasks
  rw [slotTotal, Pool.total, overdrawn] at nonpos
  rw [List.count_eq_countP, List.count_eq_countP]
  omega

end Slots

/-! ## Slots that are wasted -/

/-- What was built can be sent. -/
def Sendable : Option (Transaction × Option Nat) → Prop
  | some (tx, some length) => accountLockCount tx ≤ 64 ∧ length ≤ 1232
  | _ => False

instance (result : Option (Transaction × Option Nat)) : Decidable (Sendable result) :=
  match result with
  | some (_, some _) => inferInstanceAs (Decidable (_ ∧ _))
  | some (_, none) => isFalse id
  | none => isFalse id

/-- What the task at the position has built, if it ends a build. -/
def buildEnd (p : Pool Shared Task) (label : Nat × Choice) :
    Option (Option (Transaction × Option Nat)) :=
  match p.tasks[label.1]?, label.2 with
  | some { pending := [], stage := .build _ _ }, .built result => some result
  | _, _ => none

/-- If the task at the position ends a build, what it built can be sent. -/
def KeepsSlot (p : Pool Shared Task) (label : Nat × Choice) : Prop :=
  ∀ result ∈ buildEnd p label, Sendable result

instance (p : Pool Shared Task) (label : Nat × Choice) : Decidable (KeepsSlot p label) :=
  inferInstanceAs (Decidable (∀ result ∈ buildEnd p label, _))

/-- No worker holds a slot. -/
def Quiescent (p : Pool Shared Task) : Prop := ∀ task ∈ p.tasks, task.stage.grant? = none

instance (p : Pool Shared Task) : Decidable (Quiescent p) :=
  inferInstanceAs (Decidable (∀ task ∈ p.tasks, _))

/-- Each limiter has granted as many slots as there were sends on its path. -/
def NoSlotWasted (s : Shared) : Prop :=
  ∀ path, (s.grants path).length = (s.sendsOn path).length

section Wasted

variable {cfg : Settings} {p p' : Pool Shared Task} {label : Nat × Choice}

theorem stage_checkBuilt_of_sendable (item : ReadyInstruction) (grant : Grant)
    {result : Option (Transaction × Option Nat)} (sendable : Sendable result) :
    (checkBuilt item grant result).stage = .send item grant := by
  rcases result with _ | ⟨tx, _ | length⟩
  · exact sendable.elim
  · exact sendable.elim
  · simp only [checkBuilt, if_neg (Nat.not_lt.mpr sendable.1), if_neg (Nat.not_lt.mpr sendable.2)]

theorem stage_checkBuilt_of_not_sendable (item : ReadyInstruction) (grant : Grant)
    {result : Option (Transaction × Option Nat)} (unsendable : ¬ Sendable result) :
    (checkBuilt item grant result).stage = .acquire := by
  rcases result with _ | ⟨tx, _ | length⟩
  · rfl
  · rw [checkBuilt]
    split <;> rfl
  · rw [checkBuilt]
    split
    · rfl
    · rename_i locks
      have long : length > 1232 :=
        Nat.not_le.mp fun short => unsendable ⟨Nat.not_lt.mp locks, short⟩
      simp only [if_pos long]

/-- A worker that builds goes on with what was built. -/
theorem run_build {s s' : Shared} {item : ReadyInstruction} {grant : Grant} {choice : Choice}
    {tasks : List Task}
    (ran : (pipeline cfg).run s (Stage.build item grant).task choice = some (s', tasks)) :
    ∃ result, choice = .built result ∧ s' = s ∧ tasks = [checkBuilt item grant result] := by
  cases choice with
  | built result =>
      cases ran
      exact ⟨result, rfl, rfl, rfl⟩
  | _ => cases ran

/-- The slots of a path. -/
abbrev pathTotal (cfg : Settings) (path : Path) (p : Pool Shared Task) : Int :=
  slotTotal cfg path (fun _ => true) p

/-- **One step** keeps the books of both paths, or wastes a slot of one of them. -/
theorem pathTotal_step (limits : Limits cfg p.shared)
    (taken : (pipeline cfg).next p label.1 label.2 = some p') :
    (KeepsSlot p label ∧ ∀ path, pathTotal cfg path p' = pathTotal cfg path p) ∨
      (¬ KeepsSlot p label ∧ ∃ path, pathTotal cfg path p' = pathTotal cfg path p - 1) := by
  rcases System.next_eq_some_iff.mp taken with ⟨task, shared, tasks, found, ran, rfl⟩
  have books : ∀ path change, overdrawn path (fun _ => true) shared +
      (tasks.map (·.stage.holdsSlot cfg path fun _ => true)).sum + change =
        overdrawn path (fun _ => true) p.shared +
          task.stage.holdsSlot cfg path (fun _ => true) →
      pathTotal cfg path
          { shared := shared
            tasks := p.tasks.take label.1 ++ tasks ++ p.tasks.drop (label.1 + 1) } =
        pathTotal cfg path p - change := by
    intro path change booked
    rw [pathTotal, pathTotal, slotTotal, slotTotal, Pool.total_replaced, Pool.total_eq_add found,
      ← booked]
    omega
  have other : (∀ item grant, task ≠ (Stage.build item grant).task) → KeepsSlot p label := by
    intro different result built
    unfold buildEnd at built
    split at built
    · rename_i item grant result' found' _
      exact absurd (Option.some.inj (found.symm.trans found')) (different item grant)
    · cases built
  rcases run_cases ran with ⟨action, rest, pending, rfl, rfl⟩ | ⟨pending, move⟩
  · refine Or.inl ⟨other fun item grant same => ?_, fun path => ?_⟩
    · rw [same] at pending
      cases pending
    · rw [← sub_zero (pathTotal cfg path p)]
      apply books path 0
      rw [List.map_singleton, List.sum_singleton, overdrawn_perform, add_zero]
  · rcases task with ⟨actions, stage⟩
    obtain rfl : actions = [] := pending
    by_cases builds : ∃ item grant, stage = .build item grant
    · rcases builds with ⟨item, grant, rfl⟩
      rcases run_build ran with ⟨result, chosen, rfl, rfl⟩
      have built : buildEnd p label = some result := by
        rw [buildEnd, found, chosen]
      by_cases sendable : Sendable result
      · refine Or.inl ⟨?_, fun path => ?_⟩
        · intro result' built'
          cases built.symm.trans built'
          exact sendable
        · rw [← sub_zero (pathTotal cfg path p)]
          apply books path 0
          rw [List.map_singleton, List.sum_singleton,
            stage_checkBuilt_of_sendable item grant sendable, add_zero]
          rfl
      · refine Or.inr ⟨fun keeps => sendable (keeps result built), ?_⟩
        have held : (Stage.build item grant).holdsSlot cfg (pathOf cfg grant) (fun _ => true) = 1 := by
          rw [holdsSlot_of_some rfl, if_pos ⟨rfl, rfl⟩]
        refine ⟨pathOf cfg grant, books _ 1 ?_⟩
        rw [List.map_singleton, List.sum_singleton,
          stage_checkBuilt_of_not_sendable item grant sendable, holdsSlot_of_none rfl, held,
          add_zero]
    · refine Or.inl ⟨other fun item grant same => builds ⟨item, grant, ?_⟩, fun path => ?_⟩
      · cases same
        rfl
      · rw [← sub_zero (pathTotal cfg path p)]
        apply books path 0
        rcases overdrawn_move limits move with kept | ⟨item, grant, counter, build, -, -⟩
        · rw [add_zero]
          exact kept path _
        · exact absurd ⟨item, grant, build⟩ builds

/-- A quiescent pool has used all its slots just when its books balance. -/
theorem noSlotWasted_iff (cfg : Settings) (quiescent : Quiescent p) :
    NoSlotWasted p.shared ↔ ∀ path, pathTotal cfg path p = 0 := by
  apply forall_congr'
  intro path
  have held : (p.tasks.map (·.stage.holdsSlot cfg path fun _ => true)).sum = 0 := by
    apply List.sum_eq_zero
    intro slots member
    rcases List.mem_map.mp member with ⟨task, inside, rfl⟩
    exact holdsSlot_of_none (quiescent task inside)
  rw [pathTotal, slotTotal, Pool.total, held, overdrawn, List.countP_true,
    List.length_map]
  omega

/-- **No slot is wasted** in a run just when no build of the run loses what it builds. -/
theorem slots_used_iff {start : Pool Shared Task} {steps : List (Machine.Entry _ _)}
    (spawned : Spawned cfg start) (trace : (pipelineMachine cfg).Trace start steps p)
    (quiescent : Quiescent p) :
    NoSlotWasted p.shared ↔ ∀ entry ∈ steps, KeepsSlot entry.before entry.label := by
  have nonpos : ∀ path, pathTotal cfg path p ≤ 0 := fun path =>
    slotTotal_nonpos path _ (trace.reach spawned)
  rw [noSlotWasted_iff cfg quiescent]
  clear quiescent
  induction trace with
  | nil =>
      rcases spawned with ⟨now, store, -, rfl⟩
      exact iff_of_true (fun path => slotTotal_spawn cfg path _ now store) (by simp)
  | @snoc mid p label steps trace taken ih =>
      have reached := trace.reach spawned
      have before : ∀ path, pathTotal cfg path mid ≤ 0 := fun path =>
        slotTotal_nonpos path _ reached
      rw [List.forall_mem_append, List.forall_mem_singleton]
      refine Iff.trans ?_ (and_congr_left' (ih before))
      rcases pathTotal_step (Limits.reach reached) taken with ⟨keeps, same⟩ | ⟨loses, path, less⟩
      · rw [and_iff_left keeps]
        exact forall_congr' fun path => by rw [same path]
      · refine iff_of_false (fun balanced => ?_) (fun both => loses both.2)
        have balanced' := balanced path
        have most := before path
        omega

end Wasted

/-! ### One slot a second -/

def oneSlot : Settings :=
  { twoWorkers with
    serveRoute := false
    saveNew := false
    jitoMaxPerSecond := 1
    grpcMaxPerSecond := none }

/-- A pair is found, merged, answered and queued; the quote stream is at position `i`. -/
def arrival (i : Nat) : List (Nat × Choice) :=
  (i, .check "EPjFWdd5AufqSSqeM2qN1xzybapC8G4wEGkZwyTDt1v" 1000000 true) ::
    List.replicate 2 (i, .go) ++
    (i, .quoted (roundTrip ["poolA"] ["poolB"])) :: List.replicate 5 (i, .go) ++
    (i + 2, .opp 0) :: List.replicate 6 (i + 2, .go) ++
    (i + 3, .answered (.ok tableSwap) 40) :: List.replicate 9 (i + 3, .go)

/-- The worker at position `i` takes an item and a slot. -/
def acquisition (i : Nat) : List (Nat × Choice) := List.replicate 5 (i, .go)

/-- The build of the worker at position `i` ends, and the worker sends. -/
def submission (i : Nat) : List (Nat × Choice) :=
  (i, .built (some ({ message := tableMessage }, some 400))) :: List.replicate 2 (i, .go)

theorem spawned_oneSlot : Spawned oneSlot (oneSlot.spawn oneSecond .new) :=
  ⟨oneSecond, .new, Nat.le_refl _, rfl⟩

theorem slots_used_promptBuild :
    ∃ steps p, (pipelineMachine oneSlot).Trace (oneSlot.spawn oneSecond .new) steps p ∧
      Quiescent p ∧ (p.shared.grants .rest).length = 1 ∧
        (∀ entry ∈ steps, KeepsSlot entry.before entry.label) ∧ NoSlotWasted p.shared := by
  have ended : ((pipeline oneSlot).exec KeepsSlot (oneSlot.spawn oneSecond .new)
      (arrival 1 ++ acquisition 5 ++ submission 5)).any
        fun p => Quiescent p ∧ (p.shared.grants .rest).length = 1 := by decide
  rcases (Option.any_eq_true _ _).mp ended with ⟨p, played, checked⟩
  rw [decide_eq_true_eq] at checked
  rcases System.exec_trace played with ⟨steps, trace, keeps⟩
  exact ⟨steps, p, trace, checked.1, checked.2, keeps,
    (slots_used_iff spawned_oneSlot trace checked.1).mpr keeps⟩

/-- A slot is granted, the build fails and the item is dropped. -/
theorem slot_wasted :
    ¬ ∀ (cfg : Settings) (p : Pool Shared Task), (pipelineMachine cfg).Reach Machine.anyStep p →
      Quiescent p → NoSlotWasted p.shared := by
  intro used
  have ended : ((pipeline oneSlot).exec Machine.anyStep (oneSlot.spawn oneSecond .new)
      (arrival 1 ++ acquisition 5 ++ [(5, .built none)])).any
        fun p => Quiescent p ∧ p.shared.grants .rest = [1000000000] ∧ p.shared.sends = [] := by
    decide
  rcases (Option.any_eq_true _ _).mp ended with ⟨p, played, checked⟩
  rw [decide_eq_true_eq] at checked
  have reached : (pipelineMachine oneSlot).Reach Machine.anyStep p :=
    System.exec_reach (.ofStart spawned_oneSlot) played
  have equal := used oneSlot p reached checked.1 .rest
  rw [Shared.sendsOn, checked.2.1, checked.2.2] at equal
  cases equal

end ArbBot
