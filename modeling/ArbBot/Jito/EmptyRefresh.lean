import ArbBot.Foundation.Simulation
import ArbBot.Jito.Authorization

/-!
# A refresh without a token

An answer of `RefreshAccessToken` that carries no access token changes nothing, so the check
after the next sleep decides what the loop asks for. `reauthsNext_iff` says for which tokens
that is a full authentication.
-/

namespace ArbBot

open Foundation

/-! ## Requests to the auth service -/

inductive AuthRequest where
  /-- The challenge, with which `authenticate` begins. -/
  | challenge
  | refreshAccessToken
  deriving DecidableEq, Repr

/-- What the loop asks for when it goes on. -/
def goRequest (s : Region) : LoopStage → Option AuthRequest
  | .awake => if needsFullReauth s.tokens s.now then some .challenge else none
  | .readRefresh => if s.tokens.isSome then some .refreshAccessToken else none
  | _ => none

/-- The request to the auth service that the loop makes by a step. -/
def authRequest (s : Region) : RegionLabel → Option AuthRequest
  | .go => s.loop.bind (goRequest s)
  | .refreshed (.error _) =>
      match s.loop with
      | some (.refreshing _) => some .challenge
      | _ => none
  | _ => none

/-- The loop can make this request next, whatever else goes on. -/
def NextRequest (s : Region) (request : AuthRequest) : Prop :=
  ∃ steps t label u, regionMachine.Trace s steps t ∧
    (∀ entry ∈ steps, authRequest entry.before entry.label = none) ∧
      regionMachine.step t label u ∧ authRequest t label = some request

/-- Whenever the loop makes its next request, it authenticates in full. -/
def ReauthsNext (s : Region) : Prop := ∀ request, NextRequest s request → request = .challenge

/-! ## The check after the sleep -/

/-- The second of the next check, when the loop goes to sleep at this second. -/
def checkSecs (t : Tokens) (now : Nat) : Nat :=
  max (min (t.accessExpiresAt - 60) (now + 300)) (now + 10)

theorem checkSecs_mono (t : Tokens) {now later : Nat} (after : now ≤ later) :
    checkSecs t now ≤ checkSecs t later := by
  unfold checkSecs
  omega

theorem nowSecs_add (now seconds : Nat) : nowSecs (now + secs seconds) = nowSecs now + seconds :=
  Nat.add_mul_div_right now seconds (by decide)

theorem nowSecs_mono {now later : Nat} (after : now ≤ later) : nowSecs now ≤ nowSecs later :=
  Nat.div_le_div_right after

theorem nowSecs_wake (t : Tokens) (now : Nat) :
    nowSecs (now + secs (sleepSecs (some t) now)) = checkSecs t (nowSecs now) := by
  rw [nowSecs_add, checkSecs, sleepSecs]
  omega

theorem needsFullReauth_iff (t : Tokens) (now : Nat) :
    needsFullReauth (some t) now = true ↔ t.refreshExpiresAt < nowSecs now + 120 := by
  rw [needsFullReauth, decide_eq_true_iff]
  omega

/-! ## Until the next request -/

/-- The loop is on its way to a check in this second or later. -/
def LoopStage.ChecksFrom (t : Tokens) (second now : Nat) : LoopStage → Prop
  | .readExpiry => second ≤ checkSecs t (nowSecs now)
  | .sleeping wakeAt => second ≤ nowSecs wakeAt
  | .awake => second ≤ nowSecs now
  | _ => False

/-- The loop holds the tokens and is on its way to a check. -/
structure ChecksFrom (t : Tokens) (second : Nat) (s : Region) : Prop where
  tokens : s.tokens = some t
  loop : ∃ stage, s.loop = some stage ∧ stage.ChecksFrom t second s.now

section Step

variable {t : Tokens} {second : Nat} {s s' : Region} {label : RegionLabel}

theorem LoopStage.ChecksFrom.wait {stage : LoopStage} {now later : Nat} (after : now ≤ later)
    (checks : stage.ChecksFrom t second now) : stage.ChecksFrom t second later := by
  cases stage with
  | readExpiry => exact Nat.le_trans checks (checkSecs_mono t (nowSecs_mono after))
  | sleeping wakeAt => exact checks
  | awake => exact Nat.le_trans checks (nowSecs_mono after)
  | _ => cases checks

/-- A check from a second on at which little is left of the refresh token asks for the
challenge, and nothing else is asked for before. -/
theorem ChecksFrom.step (late : t.refreshExpiresAt < second + 120)
    (checks : ChecksFrom t second s) (taken : regionStep s label = some s') :
    authRequest s label = some .challenge ∨
      authRequest s label = none ∧ ChecksFrom t second s' := by
  obtain ⟨tokens, stage, loop, onWay⟩ := checks
  cases label with
  | wait nanoseconds =>
      cases taken
      exact Or.inr ⟨rfl, tokens, stage, loop, onWay.wait (Nat.le_add_right _ _)⟩
  | send =>
      cases taken
      exact Or.inr ⟨rfl, tokens, stage, loop, onWay⟩
  | authenticated challenge response =>
      rw [regionStep, loop] at taken
      cases stage <;> first | cases onWay | cases taken
  | refreshed reply =>
      rw [regionStep, loop] at taken
      cases stage <;> first | cases onWay | cases taken
  | go =>
      rw [regionStep, loop, Option.bind_some] at taken
      rw [authRequest, loop, Option.bind_some]
      cases stage with
      | readExpiry =>
          cases taken
          refine Or.inr ⟨rfl, tokens, _, rfl, ?_⟩
          rw [LoopStage.ChecksFrom, tokens, nowSecs_wake]
          exact onWay
      | sleeping wakeAt =>
          simp only [loopStep] at taken
          split at taken
          · rename_i slept
            cases taken
            exact Or.inr ⟨rfl, tokens, _, rfl, Nat.le_trans onWay (nowSecs_mono slept)⟩
          · cases taken
      | awake =>
          have needs : needsFullReauth (some t) s.now = true :=
            (needsFullReauth_iff t s.now).mpr
              (Nat.lt_of_lt_of_le late (Nat.add_le_add_right onWay _))
          rw [goRequest, tokens]
          exact Or.inl (if_pos needs)
      | _ => cases onWay

/-- A run without a request keeps the loop on its way. -/
theorem ChecksFrom.trace (late : t.refreshExpiresAt < second + 120)
    {steps : List (Machine.Entry Region RegionLabel)} (checks : ChecksFrom t second s)
    (trace : regionMachine.Trace s steps s')
    (quiet : ∀ entry ∈ steps, authRequest entry.before entry.label = none) :
    ChecksFrom t second s' := by
  induction trace with
  | nil => exact checks
  | snoc _ taken ih =>
      obtain ⟨earlier, last⟩ := List.forall_mem_append.mp quiet
      rcases (ih earlier).step late taken with asked | ⟨-, next⟩
      · rw [List.forall_mem_singleton.mp last] at asked
        cases asked
      · exact next

end Step

/-! ## The empty reply -/

section Reply

variable {t : Tokens} {s : Region}

theorem step_go {stage : LoopStage} {s' : Region} (loop : s.loop = some stage)
    (went : loopStep s stage = some s') : regionMachine.step s .go s' := by
  change s.loop.bind (loopStep s) = some s'
  rw [loop, Option.bind_some, went]

theorem authRequest_go {stage : LoopStage} (loop : s.loop = some stage) :
    authRequest s .go = goRequest s stage := by
  rw [authRequest, loop, Option.bind_some]

/-- The region when the loop is awake after a sleep. -/
def awakened (s : Region) (sleep : Nat) : Region :=
  { s with now := s.now + sleep, loop := some .awake }

theorem tokens_awakened (s : Region) (sleep : Nat) : (awakened s sleep).tokens = s.tokens := rfl

theorem trace_awakened (tokens : s.tokens = some t) (loop : s.loop = some .readExpiry) :
    ∃ steps, regionMachine.Trace s steps (awakened s (secs (sleepSecs (some t) s.now))) ∧
      ∀ entry ∈ steps, authRequest entry.before entry.label = none := by
  have reads : loopStep s .readExpiry =
      some { s with loop := some (.sleeping (s.now + secs (sleepSecs (some t) s.now))) } := by
    rw [loopStep, tokens]
  generalize secs (sleepSecs (some t) s.now) = sleep at reads ⊢
  have wakes : loopStep { s with now := s.now + sleep, loop := some (.sleeping (s.now + sleep)) }
      (.sleeping (s.now + sleep)) = some (awakened s sleep) := if_pos (Nat.le_refl _)
  have waits : regionMachine.step { s with loop := some (.sleeping (s.now + sleep)) } (.wait sleep)
      { s with now := s.now + sleep, loop := some (.sleeping (s.now + sleep)) } := rfl
  refine ⟨_, .snoc (.snoc (.snoc (.nil s) (step_go loop reads)) waits) (step_go rfl wakes), ?_⟩
  have first : authRequest s .go = none := authRequest_go loop
  simp only [List.nil_append, List.cons_append, List.forall_mem_cons, List.not_mem_nil,
    false_imp_iff, implies_true, and_true]
  exact ⟨first, rfl, rfl⟩

/-- A loop that is awake asks for the challenge when little is left of the refresh token, else
for another access token. -/
theorem nextRequest_awake {second : Nat} (tokens : s.tokens = some t)
    (loop : s.loop = some .awake) (now : nowSecs s.now = second) :
    NextRequest s
      (if t.refreshExpiresAt < second + 120 then .challenge else .refreshAccessToken) := by
  have check := needsFullReauth_iff t s.now
  rw [← tokens, now] at check
  split
  · rename_i late
    have needs := check.mpr late
    have goes : loopStep s .awake = some { s with loop := some .authenticating } := if_pos needs
    refine ⟨[], s, .go, _, .nil s, by simp, step_go loop goes, ?_⟩
    rw [authRequest_go loop]
    exact if_pos needs
  · rename_i enough
    have goes : loopStep s .awake = some { s with loop := some .readRefresh } :=
      if_neg (mt check.mp enough)
    have silent : authRequest s .go = none := by
      rw [authRequest_go loop]
      exact if_neg (mt check.mp enough)
    have asks : loopStep { s with loop := some .readRefresh } .readRefresh = some { s with
        loop := some (.refreshing t.refresh)
        refreshes := s.refreshes ++ [{ calledAt := s.now, refreshToken := t.refresh }] } := by
      simp only [loopStep, tokens]
    refine ⟨_, _, .go, _, .snoc (.nil s) (step_go loop goes), ?_, step_go rfl asks, ?_⟩
    · exact List.forall_mem_singleton.mpr silent
    · rw [authRequest_go rfl, goRequest, tokens]
      rfl

/-- A loop that is not held up makes the request of the check after the sleep. -/
theorem nextRequest_readExpiry (tokens : s.tokens = some t) (loop : s.loop = some .readExpiry) :
    NextRequest s
      (if t.refreshExpiresAt < checkSecs t (nowSecs s.now) + 120 then .challenge
        else .refreshAccessToken) := by
  rcases trace_awakened tokens loop with ⟨steps, trace, quiet⟩
  have stored := (tokens_awakened s (secs (sleepSecs (some t) s.now))).trans tokens
  rcases nextRequest_awake stored rfl (nowSecs_wake t s.now) with
    ⟨more, u, label, v, later, silent, taken, asks⟩
  exact ⟨steps ++ more, u, label, v, trace.append later,
    List.forall_mem_append.mpr ⟨quiet, silent⟩, taken, asks⟩

/-- **An empty reply.** The loop goes on to make a request, and it authenticates in full
whatever happens just when less than 120 seconds are left of the refresh token at the next
check, the earliest one. -/
theorem reauthsNext_iff {refreshToken : Token} {s' : Region} (stored : s.tokens = some t)
    (refreshing : s.loop = some (.refreshing refreshToken))
    (empty : regionStep s (.refreshed (.ok none)) = some s') :
    (∃ request, NextRequest s' request) ∧
      (ReauthsNext s' ↔ t.refreshExpiresAt < checkSecs t (nowSecs s.now) + 120) := by
  rw [regionStep, refreshing] at empty
  cases empty
  have next := nextRequest_readExpiry (s := onRefreshed s (.ok none)) stored rfl
  refine ⟨⟨_, next⟩, ?_⟩
  constructor
  · intro reauths
    by_contra enough
    have request := reauths _ next
    rw [show (onRefreshed s (.ok none)).now = s.now from rfl, if_neg enough] at request
    cases request
  · intro late request asked
    rcases asked with ⟨steps, u, label, v, trace, quiet, taken, asks⟩
    have checks : ChecksFrom t (checkSecs t (nowSecs s.now)) (onRefreshed s (.ok none)) :=
      ⟨stored, .readExpiry, rfl, Nat.le_refl _⟩
    rcases (checks.trace late trace quiet).step late taken with challenge | ⟨silent, -⟩
    · rw [challenge] at asks
      exact (Option.some.inj asks).symm
    · rw [silent] at asks
      cases asks

end Reply

/-! ### A refresh token with much or little left -/

/-- The first refresh, after 40 seconds. -/
def firstRefresh : List RegionLabel := [.go, .wait (secs 40), .go, .go, .go]

/-- The refresh token expires after three minutes: the loop sleeps until second 50, and the next
request is the challenge. -/
theorem reauthsNext_threeMinutes :
    ∃ s s', Machine.play regionStep Machine.anyStep
        (connectRegion 0 (.ok (tokensUntil 100 165))) firstRefresh = some s ∧
      regionStep s (.refreshed (.ok none)) = some s' ∧
        (∃ request, NextRequest s' request) ∧ ReauthsNext s' := by
  have ended : (Machine.play regionStep Machine.anyStep
      (connectRegion 0 (.ok (tokensUntil 100 165))) firstRefresh).any fun s =>
        s.tokens = some (tokensUntil 100 165) ∧
          s.loop = some (.refreshing (tokensUntil 100 165).refresh) ∧
            nowSecs s.now = 40 := by decide
  rcases (Option.any_eq_true _ _).mp ended with ⟨s, played, shows⟩
  rcases of_decide_eq_true shows with ⟨stored, refreshing, second⟩
  have empty : regionStep s (.refreshed (.ok none)) = some (onRefreshed s (.ok none)) := by
    rw [regionStep, refreshing]
  have late : (tokensUntil 100 165).refreshExpiresAt <
      checkSecs (tokensUntil 100 165) (nowSecs s.now) + 120 := by
    rw [second]
    decide
  have next := reauthsNext_iff stored refreshing empty
  exact ⟨s, _, played, empty, next.1, next.2.mpr late⟩

/-- The refresh token lives for hours: the next request is another `RefreshAccessToken`. -/
theorem refreshes_again :
    ¬ ∀ s s', regionMachine.Reach Machine.anyStep s →
      regionStep s (.refreshed (.ok none)) = some s' → ReauthsNext s' := by
  intro reauths
  have ended : (Machine.play regionStep Machine.anyStep
      (connectRegion 0 (.ok (tokensUntil 100 10000))) firstRefresh).any fun s =>
        s.tokens = some (tokensUntil 100 10000) ∧
          s.loop = some (.refreshing (tokensUntil 100 10000).refresh) ∧
            nowSecs s.now = 40 := by decide
  rcases (Option.any_eq_true _ _).mp ended with ⟨s, played, shows⟩
  rcases of_decide_eq_true shows with ⟨stored, refreshing, second⟩
  have reached : regionMachine.Reach Machine.anyStep s :=
    Machine.play_reach (.ofStart ⟨_, _, rfl⟩) played
  have empty : regionStep s (.refreshed (.ok none)) = some (onRefreshed s (.ok none)) := by
    rw [regionStep, refreshing]
  have next := nextRequest_readExpiry (s := onRefreshed s (.ok none)) stored rfl
  have enough : ¬ (tokensUntil 100 10000).refreshExpiresAt <
      checkSecs (tokensUntil 100 10000) (nowSecs (onRefreshed s (.ok none)).now) + 120 := by
    rw [show (onRefreshed s (.ok none)).now = s.now from rfl, second]
    decide
  rw [if_neg enough] at next
  cases reauths s _ reached empty _ next

end ArbBot
