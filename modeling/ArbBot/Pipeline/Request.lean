import ArbBot.Pipeline.Tasks

/-!
# One request of the scan loop

`scanTiers` is what the scan loop does to the store between a merge and the push or Tier 3:
Tier 1, and Tier 2 where Tier 1 does not serve. `alone_scanTiers` shows that these are the
stages of the scan loop when no other task comes between them.
-/

namespace ArbBot

open Foundation

/-! ## One request -/

/-- An instruction from RAM and the template it is from. -/
structure Served where
  template : RouteTemplate
  instruction : SwapInstructionsResponse

/-- A template that was looked up serves the amount, and its hit is recorded; `none` is a
panic. -/
def serveFound (codec : TextCodec) (amount : UInt64) (sig : RouteTemplate → U128)
    (found : Option RouteTemplate × StoreInner) : Option (Option Served × StoreInner) :=
  match found.1 with
  | none => some (none, found.2)
  | some tmpl =>
      match serveRoute codec tmpl amount (onChainFloor amount) with
      | .error _ => none
      | .ok none => some (none, found.2)
      | .ok (some patched) =>
          some (some { template := tmpl, instruction := patched },
            recordRouteHit found.2 (sig tmpl))

def tierOne (cfg : Settings) (g : StoreInner) (routePlan : Json) (amount : UInt64) :
    Option (Option Served × StoreInner) :=
  if cfg.serveRoute then
    serveFound cfg.codec amount (fun _ => routeSig routePlan) (getRoute g (routeSig routePlan))
  else some (none, g)

def tierTwo (cfg : Settings) (g : StoreInner) (routePlan : Json) (amount : UInt64) :
    Option (Option Served × StoreInner) :=
  if (checkHops g routePlan).1 && cfg.serveRoute then
    serveFound cfg.codec amount RouteTemplate.routeSignature (getRouteForHops g routePlan)
  else some (none, g)

/-- The tiers of `scan_all_tokens` that serve from RAM. -/
def scanTiers (cfg : Settings) (g : StoreInner) (routePlan : Json) (amount : UInt64) :
    Option (Option Served × StoreInner) :=
  match tierOne cfg g routePlan amount with
  | some (none, g') => tierTwo cfg g' routePlan amount
  | result => result

section Request

variable {cfg : Settings} {codec : TextCodec} {amount : UInt64} {sig : RouteTemplate → U128}
  {found : Option RouteTemplate × StoreInner} {routePlan : Json} {served : Option Served}
  {g g' : StoreInner}

theorem serveFound_cases (ran : serveFound codec amount sig found = some (served, g')) :
    (served = none ∧ g' = found.2) ∨
      ∃ tmpl patched, found.1 = some tmpl ∧
        serveRoute codec tmpl amount (onChainFloor amount) = .ok (some patched) ∧
          served = some { template := tmpl, instruction := patched } ∧
            g' = recordRouteHit found.2 (sig tmpl) := by
  unfold serveFound at ran
  split at ran
  · cases ran
    exact Or.inl ⟨rfl, rfl⟩
  · rename_i tmpl looked
    split at ran
    · cases ran
    · cases ran
      exact Or.inl ⟨rfl, rfl⟩
    · rename_i patched answered
      cases ran
      exact Or.inr ⟨tmpl, patched, looked, answered, rfl, rfl⟩

/-- **The tiers of a request**: Tier 1 serves, or Tier 2 goes on with the store of Tier 1. -/
theorem scanTiers_cases (ran : scanTiers cfg g routePlan amount = some (served, g')) :
    (∃ s, served = some s ∧ tierOne cfg g routePlan amount = some (some s, g')) ∨
      ∃ g₁, tierOne cfg g routePlan amount = some (none, g₁) ∧
        tierTwo cfg g₁ routePlan amount = some (served, g') := by
  unfold scanTiers at ran
  split at ran
  · rename_i g₁ first
    exact Or.inr ⟨g₁, first, ran⟩
  · rename_i notServed
    cases served with
    | none => exact (notServed g' ran).elim
    | some s => exact Or.inl ⟨s, rfl, ran⟩

end Request

/-! ## The scan loop alone -/

/-- Where a request leaves the scan loop. -/
def afterTiers (merged : Merged) : Option Served → Stage
  | some s => .serving s.instruction merged.hopCount
  | none => .tier3 merged

section Alone

variable {cfg : Settings} {s s' : Shared} {merged : Merged} {served : Option Served}
  {g : StoreInner} {stage : Stage} {task : Task}

theorem alone_pending (cfg : Settings) (s : Shared) (pending : List Action) (stage : Stage) :
    Relation.ReflTransGen (pipeline cfg).Alone (s, { pending := pending, stage := stage })
      (pending.foldl (perform cfg) s, stage.task) := by
  induction pending generalizing s with
  | nil => exact .refl
  | cons action rest ih => exact .head ⟨.go, rfl⟩ (ih (perform cfg s action))

/-- What is pending is performed after a decision. -/
theorem alone_decided (decided : decideStage cfg s stage .go = some (s', [task])) :
    Relation.ReflTransGen (pipeline cfg).Alone (s, stage.task)
      (task.pending.foldl (perform cfg) s', task.stage.task) :=
  .head (b := (s', task)) ⟨.go, decided⟩ (alone_pending cfg s' task.pending task.stage)

/-- A lookup of the scan loop and what it serves. -/
theorem alone_serve {signature : RouteTemplate → U128} {otherwise : Stage}
    {found : Option RouteTemplate × StoreInner}
    (decides : decideStage cfg s stage .go = serve cfg s merged signature otherwise found)
    (ran : serveFound cfg.codec merged.amount signature found = some (served, g)) :
    ∃ s', s'.store = g ∧ Relation.ReflTransGen (pipeline cfg).Alone (s, stage.task)
      (s', (match served with
        | some _ => afterTiers merged served
        | none => otherwise).task) := by
  unfold serve at decides
  unfold serveFound at ran
  split at ran
  · rename_i absent
    cases ran
    rw [absent] at decides
    exact ⟨_, rfl, alone_decided decides⟩
  · rename_i tmpl looked
    rw [looked] at decides
    split at ran
    · cases ran
    · rename_i answered
      cases ran
      simp only [answered] at decides
      exact ⟨_, rfl, alone_decided decides⟩
    · rename_i patched answered
      cases ran
      simp only [answered] at decides
      exact ⟨_, rfl, alone_decided decides⟩

theorem alone_tierOne
    (ran : tierOne cfg s.store merged.quote.routePlan merged.amount = some (served, g)) :
    ∃ s', s'.store = g ∧ Relation.ReflTransGen (pipeline cfg).Alone (s, (Stage.tier1 merged).task)
      (s', (match served with
        | some _ => afterTiers merged served
        | none => .tier2 merged).task) := by
  unfold tierOne at ran
  split at ran
  · rename_i enabled
    refine alone_serve ?_ ran
    simp only [decideStage, scanStep, enabled, if_true]
    rfl
  · rename_i disabled
    cases ran
    have decided : decideStage cfg s (.tier1 merged) .go =
        some (s, [(Stage.tier2 merged).task]) := by
      simp only [decideStage, scanStep, disabled]
      rfl
    exact ⟨s, rfl, alone_decided decided⟩

/-- What Tier 2 does when all hops are known. -/
theorem alone_tier2Route
    (ran : (if cfg.serveRoute then
        serveFound cfg.codec merged.amount RouteTemplate.routeSignature
          (getRouteForHops s.store merged.quote.routePlan)
      else some (none, s.store)) = some (served, g)) :
    ∃ s', s'.store = g ∧
      Relation.ReflTransGen (pipeline cfg).Alone (s, (Stage.tier2Route merged).task)
        (s', (afterTiers merged served).task) := by
  split at ran
  · rename_i enabled
    have decides : decideStage cfg s (.tier2Route merged) .go =
        serve cfg s merged RouteTemplate.routeSignature (.tier3 merged)
          (getRouteForHops s.store merged.quote.routePlan) := by
      simp only [decideStage, scanStep, enabled, if_true]
    rcases alone_serve decides ran with ⟨s', store, later⟩
    refine ⟨s', store, ?_⟩
    cases served <;> exact later
  · rename_i disabled
    cases ran
    have decided : decideStage cfg s (.tier2Route merged) .go =
        some (s, [(Stage.tier3 merged).task]) := by
      simp only [decideStage, scanStep, disabled]
      rfl
    exact ⟨s, rfl, alone_decided decided⟩

theorem alone_tierTwo
    (ran : tierTwo cfg s.store merged.quote.routePlan merged.amount = some (served, g)) :
    ∃ s', s'.store = g ∧ Relation.ReflTransGen (pipeline cfg).Alone (s, (Stage.tier2 merged).task)
      (s', (afterTiers merged served).task) := by
  unfold tierTwo at ran
  by_cases known : (checkHops s.store merged.quote.routePlan).1 = true
  · have decided : decideStage cfg s (.tier2 merged) .go =
        some (s, [{ pending := [.add .hopTemplateAllHit 1], stage := .tier2Route merged }]) := by
      simp only [decideStage, scanStep, known, if_true]
    rw [known, Bool.true_and] at ran
    have later : ∃ s', s'.store = g ∧ Relation.ReflTransGen (pipeline cfg).Alone
        (perform cfg s (.add .hopTemplateAllHit 1), (Stage.tier2Route merged).task)
        (s', (afterTiers merged served).task) := alone_tier2Route ran
    rcases later with ⟨s', store, later⟩
    exact ⟨s', store, (alone_decided decided).trans later⟩
  · rw [if_neg (by simp [known])] at ran
    cases ran
    by_cases missing : 0 < (checkHops s.store merged.quote.routePlan).2
    · have decided : decideStage cfg s (.tier2 merged) .go = some (s, [{
          pending := [.add .hopTemplateMissing (checkHops s.store merged.quote.routePlan).2]
          stage := .tier3 merged }]) := by
        simp only [decideStage, scanStep, known, missing]
        rfl
      refine ⟨_, ?_, alone_decided decided⟩
      rfl
    · have decided : decideStage cfg s (.tier2 merged) .go =
          some (s, [(Stage.tier3 merged).task]) := by
        simp only [decideStage, scanStep, known, missing]
        rfl
      exact ⟨s, rfl, alone_decided decided⟩

/-- **A request is the scan loop at work alone**: from Tier 1 to the push or to Tier 3, the
pipeline does to the store what `scanTiers` does. -/
theorem alone_scanTiers
    (ran : scanTiers cfg s.store merged.quote.routePlan merged.amount = some (served, g)) :
    ∃ s', s'.store = g ∧ Relation.ReflTransGen (pipeline cfg).Alone (s, (Stage.tier1 merged).task)
      (s', (afterTiers merged served).task) := by
  rcases scanTiers_cases ran with ⟨x, rfl, first⟩ | ⟨g₁, first, second⟩
  · exact alone_tierOne first
  · rcases alone_tierOne first with ⟨s₁, rfl, earlier⟩
    rcases alone_tierTwo second with ⟨s', store, later⟩
    exact ⟨s', store, earlier.trans later⟩

end Alone

end ArbBot
