import ArbBot.Pipeline.Slots

/-!
# The rate of the sends

A send may start long after its grant, so what bounds the grants bounds the sends only in
a run where no two sends of a path start within a second whose grants were a second or
more apart (`sends_bounded`).
-/

namespace ArbBot

open Foundation Sdk

/-! ## Sends that are spaced as their grants -/

/-- Two sends that start within a second on one path were granted within a second. -/
def Spaced (e e' : Send) : Prop :=
  e.path = e'.path → Close oneSecond e.startedAt e'.startedAt →
    Close oneSecond e.grantedAt e'.grantedAt

instance (e e' : Send) : Decidable (Spaced e e') :=
  inferInstanceAs (Decidable (_ → (_ ∧ _) → (_ ∧ _)))

/-- The call of `send_bundle` that the task at the position is about to make. -/
def nextSend (cfg : Settings) (p : Pool Shared Task) (i : Nat) : Option Send :=
  match p.tasks[i]? with
  | some { pending := [], stage := .send item grant } => some (started cfg p.shared.now item grant)
  | _ => none

/-- What the task at the position is about to send is spaced from all sends before. -/
def SendsSpaced (cfg : Settings) (p : Pool Shared Task) (label : Nat × Choice) : Prop :=
  ∀ send ∈ nextSend cfg p label.1, ∀ e ∈ p.shared.sends, Spaced e send

instance (cfg : Settings) (p : Pool Shared Task) (label : Nat × Choice) :
    Decidable (SendsSpaced cfg p label) :=
  inferInstanceAs (Decidable (∀ send ∈ nextSend cfg p label.1, _))

/-- No second has more starts of sends on a path than its limit. -/
def SendsBounded (cfg : Settings) (s : Shared) : Prop :=
  ∀ path, Sparse oneSecond (cfg.limit path) ((s.sendsOn path).map Send.startedAt)

theorem spaced_reach {cfg : Settings} {p : Pool Shared Task}
    (reached : (pipelineMachine cfg).Reach (SendsSpaced cfg) p) :
    p.shared.sends.Pairwise Spaced := by
  refine reached.invariant (fun p => p.shared.sends.Pairwise Spaced) ?_ ?_
  · intro p given
    rcases given with ⟨now, store, -, rfl⟩
    exact List.Pairwise.nil
  · intro p label p' before allowed taken
    rcases System.next_eq_some_iff.mp taken with ⟨task, shared, tasks, found, ran, rfl⟩
    rcases run_cases ran with ⟨action, rest, -, rfl, -⟩ | ⟨pending, move⟩
    · cases action <;> exact before
    · rcases task with ⟨actions, stage⟩
      obtain rfl : actions = [] := pending
      cases move with
      | send item grant =>
          have next : nextSend cfg p label.1 = some (started cfg p.shared.now item grant) := by
            rw [nextSend, found]
          refine List.pairwise_append.mpr ⟨before, List.pairwise_singleton _ _, ?_⟩
          intro e member send same
          rw [List.mem_singleton.mp same]
          exact allowed _ next e member
      | _ => exact before

/-- **The rate of the sends.** While the sends of each path start as spaced as their slots
were granted, no second starts more of them than its limit. -/
theorem sends_bounded {cfg : Settings} {p : Pool Shared Task}
    (reached : (pipelineMachine cfg).Reach (SendsSpaced cfg) p) : SendsBounded cfg p.shared := by
  intro path
  have sparse := (Limits.reach reached).sparse path
  let pairs := (p.shared.sendsOn path).map fun e => (e.grantedAt, e.startedAt)
  have grants : pairs.map Prod.fst = (p.shared.sendsOn path).map Send.grantedAt := by
    rw [List.map_map]
    rfl
  have starts : pairs.map Prod.snd = (p.shared.sendsOn path).map Send.startedAt := by
    rw [List.map_map]
    rfl
  rw [← starts]
  refine sparse.delayed lt_add_oneSecond ?_ ?_
  · rw [grants]
    exact used_le_granted path reached
  · have onPath : (p.shared.sendsOn path).Pairwise fun e e' =>
        Close oneSecond e.startedAt e'.startedAt → Close oneSecond e.grantedAt e'.grantedAt := by
      apply ((spaced_reach reached).filter _).imp_of_mem
      intro e e' member member' spaced
      have path₁ : e.path = path := of_decide_eq_true (List.mem_filter.mp member).2
      have path₂ : e'.path = path := of_decide_eq_true (List.mem_filter.mp member').2
      exact spaced (path₁.trans path₂.symm)
    exact List.pairwise_map.mpr onPath

/-! ### Two builds with one slot a second -/

/-- Each build ends at once. -/
def promptBuilds : List (Nat × Choice) :=
  arrival 1 ++ acquisition 5 ++ submission 5 ++ (0, .wait oneSecond) :: arrival 2 ++
    acquisition 8 ++ submission 8

/-- The first build takes a second. -/
def slowBuild : List (Nat × Choice) :=
  arrival 1 ++ acquisition 5 ++ (0, .wait oneSecond) :: arrival 2 ++ acquisition 8 ++
    submission 8 ++ submission 7

theorem sends_bounded_promptBuilds :
    ∃ p, (pipeline oneSlot).exec (SendsSpaced oneSlot) (oneSlot.spawn oneSecond .new)
        promptBuilds = some p ∧ p.shared.sends.length = 2 ∧ SendsBounded oneSlot p.shared := by
  have ended : ((pipeline oneSlot).exec (SendsSpaced oneSlot) (oneSlot.spawn oneSecond .new)
      promptBuilds).any fun p => p.shared.sends.length = 2 := by decide
  rcases (Option.any_eq_true _ _).mp ended with ⟨p, played, length⟩
  have reached : (pipelineMachine oneSlot).Reach (SendsSpaced oneSlot) p :=
    System.exec_reach (.ofStart spawned_oneSlot) played
  exact ⟨p, played, of_decide_eq_true length, sends_bounded reached⟩

/-- With one slot a second, two sends start at one instant: the slot of the first was
granted a second before, and its build was slow. -/
theorem sends_bunch :
    ¬ ∀ (cfg : Settings) (p : Pool Shared Task), (pipelineMachine cfg).Reach Machine.anyStep p →
      SendsBounded cfg p.shared := by
  intro bounded
  have ended : ((pipeline oneSlot).exec Machine.anyStep (oneSlot.spawn oneSecond .new)
      slowBuild).any fun p => p.shared.sends = [
        { id := 1, path := .rest, grantedAt := 2000000000, startedAt := 2000000000 },
        { id := 0, path := .rest, grantedAt := 1000000000, startedAt := 2000000000 }] := by
    decide
  rcases (Option.any_eq_true _ _).mp ended with ⟨p, played, sends⟩
  have reached : (pipelineMachine oneSlot).Reach Machine.anyStep p :=
    System.exec_reach (.ofStart spawned_oneSlot) played
  have one := bounded oneSlot p reached .rest 2000000000
  rw [Shared.sendsOn, of_decide_eq_true sends] at one
  exact absurd one (by decide)

end ArbBot
