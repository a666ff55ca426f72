import ArbBot.Jito.Tokens

/-!
# Expired tokens

No branch of `token_refresh_loop` gives a token up: the region attaches the access token
that was issued last, for as long as it sends. So a run never sends an expired token
exactly when it makes every send before the last issued token expires
(`requests_fresh_iff`).

While the auth service answers, the loop renews each token in time (`tokens_renewed`); the
refresh token it renews with has 120 seconds left by the clock in whole seconds.
-/

namespace ArbBot

open Foundation

/-! ## The stored token -/

/-- The stored access token is the one that was issued last, and the loop has tokens. -/
structure HoldsIssued (s : Region) : Prop where
  access : s.tokens.map Tokens.access = s.issued.getLast?
  running : s.loop.isSome → s.tokens.isSome

section Step

variable {s s' : Region} {label : RegionLabel} {stage : LoopStage}

/-- The loop alone changes no token and sends nothing. -/
structure SameTokens (s s' : Region) : Prop where
  now : s'.now = s.now
  tokens : s'.tokens = s.tokens
  issued : s'.issued = s.issued
  requests : s'.requests = s.requests

theorem loopStep_same (taken : loopStep s stage = some s') : SameTokens s s' := by
  cases stage with
  | readExpiry =>
      cases taken
      exact ⟨rfl, rfl, rfl, rfl⟩
  | sleeping wakeAt | retrying wakeAt =>
      simp only [loopStep] at taken
      split at taken
      · cases taken
        exact ⟨rfl, rfl, rfl, rfl⟩
      · cases taken
  | awake =>
      simp only [loopStep] at taken
      split at taken
      · cases taken
        exact ⟨rfl, rfl, rfl, rfl⟩
      · cases taken
        exact ⟨rfl, rfl, rfl, rfl⟩
  | readRefresh =>
      simp only [loopStep] at taken
      split at taken
      · cases taken
        exact ⟨rfl, rfl, rfl, rfl⟩
      · cases taken
        exact ⟨rfl, rfl, rfl, rfl⟩
  | authenticating | refreshing _ => cases taken

theorem HoldsIssued.of_same (holds : HoldsIssued s) (same : SameTokens s s')
    (running : s'.loop.isSome → s.loop.isSome) : HoldsIssued s' where
  access := by
    rw [same.tokens, same.issued]
    exact holds.access
  running := by
    rw [same.tokens]
    exact fun loop => holds.running (running loop)

theorem HoldsIssued.onAuthenticated (holds : HoldsIssued s) (running : s.loop.isSome)
    (result : Except String Tokens) : HoldsIssued (onAuthenticated s result) := by
  cases result with
  | ok new => exact ⟨List.getLast?_concat.symm, fun _ => rfl⟩
  | error e => exact ⟨holds.access, fun _ => holds.running running⟩

theorem HoldsIssued.onRefreshed (holds : HoldsIssued s) (running : s.loop.isSome)
    (reply : Except String (Option Token)) : HoldsIssued (onRefreshed s reply) := by
  rcases Option.isSome_iff_exists.mp (holds.running running) with ⟨t, tokens⟩
  rcases reply with e | _ | newAccess
  · exact ⟨holds.access, fun _ => holds.running running⟩
  · exact ⟨holds.access, fun _ => holds.running running⟩
  · refine ⟨?_, fun _ => ?_⟩
    · simp [ArbBot.onRefreshed, tokens]
    · simp [ArbBot.onRefreshed, tokens]

theorem holdsIssued_connect (now : Nat) (result : Except String Tokens) :
    HoldsIssued (connectRegion now result) := by
  cases result with
  | ok initial => exact ⟨rfl, fun _ => rfl⟩
  | error e => exact ⟨rfl, fun running => by cases running⟩

/-- The request that a label makes. -/
def sentBy (s : Region) : RegionLabel → List SendBundleRequest
  | .send => (sendToRegion s.tokens s.now).toList
  | _ => []

theorem requests_step (taken : regionStep s label = some s') :
    s'.requests = s.requests ++ sentBy s label := by
  cases label with
  | wait nanoseconds =>
      cases taken
      exact (List.append_nil _).symm
  | send =>
      cases taken
      rfl
  | go =>
      rcases Option.bind_eq_some_iff.mp taken with ⟨stage, -, went⟩
      rw [(loopStep_same went).requests]
      exact (List.append_nil _).symm
  | authenticated challenge response =>
      simp only [regionStep] at taken
      split at taken
      · cases taken
        cases authenticate challenge response <;> exact (List.append_nil _).symm
      · cases taken
  | refreshed reply =>
      simp only [regionStep] at taken
      split at taken
      · cases taken
        rcases reply with e | _ | newAccess <;> exact (List.append_nil _).symm
      · cases taken

theorem HoldsIssued.step (holds : HoldsIssued s) (taken : regionStep s label = some s') :
    HoldsIssued s' := by
  cases label with
  | wait nanoseconds =>
      cases taken
      exact ⟨holds.access, holds.running⟩
  | send =>
      cases taken
      exact ⟨holds.access, holds.running⟩
  | go =>
      rcases Option.bind_eq_some_iff.mp taken with ⟨stage, runs, went⟩
      exact holds.of_same (loopStep_same went) fun _ => by rw [runs]; rfl
  | authenticated challenge response =>
      simp only [regionStep] at taken
      split at taken
      · rename_i runs
        cases taken
        exact holds.onAuthenticated (by rw [runs]; rfl) _
      · cases taken
  | refreshed reply =>
      simp only [regionStep] at taken
      split at taken
      · rename_i runs
        cases taken
        exact holds.onRefreshed (by rw [runs]; rfl) reply
      · cases taken

end Step

/-! ## Sends with an expired token -/

/-- A request with a header has it from a token that is not expired. -/
def SendBundleRequest.Fresh (r : SendBundleRequest) : Prop :=
  r.authorization.isSome → ∃ token ∈ r.bearer, r.sentAt < token.expiry

def RequestsFresh (s : Region) : Prop := ∀ r ∈ s.requests, r.Fresh

/-- A send is made before the access token that was issued last expires, or that token is
no header value. -/
def Timely (s : Region) : RegionLabel → Prop
  | .send => ∀ token ∈ s.issued.getLast?, (bearerHeader token).isSome → s.now < token.expiry
  | _ => True

instance (s : Region) (label : RegionLabel) : Decidable (Timely s label) := by
  cases label with
  | send => exact inferInstanceAs (Decidable (∀ token ∈ s.issued.getLast?, _))
  | _ => exact isTrue trivial

theorem fresh_sendToRegion_iff {s : Region} (holds : HoldsIssued s) :
    (∀ r ∈ (sendToRegion s.tokens s.now).toList, r.Fresh) ↔ Timely s .send := by
  unfold Timely sendToRegion
  rw [← holds.access]
  cases s.tokens with
  | none => simp [SendBundleRequest.Fresh]
  | some t =>
      cases header : bearerHeader t.access with
      | none => simp [header]
      | some value => simp [SendBundleRequest.Fresh, header]

/-- **No expired token is attached** in a run just when every send of it is made before the
access token that was issued last expires. -/
theorem requests_fresh_iff {start s : Region} {steps : List (Machine.Entry Region RegionLabel)}
    (started : regionMachine.start start) (trace : regionMachine.Trace start steps s) :
    (∀ entry ∈ steps, RequestsFresh entry.after) ↔
      ∀ entry ∈ steps, Timely entry.before entry.label := by
  rcases started with ⟨now, result, rfl⟩
  refine trace.all_iff HoldsIssued RequestsFresh ?_ ?_ (holdsIssued_connect now result) ?_
  · exact fun _ _ _ holds taken => holds.step taken
  · intro s label s' holds fresh taken
    rw [RequestsFresh, requests_step taken, List.forall_mem_append]
    refine Iff.trans (and_iff_right fresh) ?_
    cases label with
    | send => exact fresh_sendToRegion_iff holds
    | _ => exact iff_of_true (fun r none => absurd none List.not_mem_nil) trivial
  · cases result <;> exact fun r none => absurd none List.not_mem_nil

/-! ### An outage of the auth service -/

/-- A timestamp of whole seconds. -/
def atSecond (seconds : Nat) : Option Timestamp :=
  some { seconds := seconds, nanos := 0, nanos_lt := by decide }

/-- Tokens that expire at the given seconds. -/
def tokensUntil (access refresh : Nat) : Tokens where
  access := { value := "access", expiresAtUtc := atSecond access }
  refresh := { value := "refresh", expiresAtUtc := atSecond refresh }

/-- The loop wakes after 40 seconds, and neither the refresh nor the re-authentication is
answered. -/
def outage : List RegionLabel := [
  .go, .wait (secs 40), .go, .go, .go, .refreshed (.error "Unavailable"),
  .authenticated (.error "Unavailable") (.error "Unavailable")]

/-- A send before the token expires. -/
theorem requests_fresh_outage :
    ∃ steps s, regionMachine.Trace (connectRegion 0 (.ok (tokensUntil 100 10000))) steps s ∧
      s.requests.length = 1 ∧ (∀ entry ∈ steps, Timely entry.before entry.label) ∧
        ∀ entry ∈ steps, RequestsFresh entry.after := by
  have ended : (Machine.play regionStep Timely (connectRegion 0 (.ok (tokensUntil 100 10000)))
      (outage ++ [.wait (secs 59), .send])).any fun s => s.requests.length = 1 := by decide
  rcases (Option.any_eq_true _ _).mp ended with ⟨s, played, one⟩
  have started : regionMachine.start (connectRegion 0 (.ok (tokensUntil 100 10000))) := ⟨_, _, rfl⟩
  obtain ⟨steps, trace, timely⟩ : ∃ steps, regionMachine.Trace _ steps s ∧
      ∀ entry ∈ steps, Timely entry.before entry.label := Machine.play_trace played
  exact ⟨steps, s, trace, of_decide_eq_true one, timely,
    (requests_fresh_iff started trace).mpr timely⟩

/-- The token expires during the outage and is still attached. -/
theorem requests_expired_outage :
    ¬ ∀ s, regionMachine.Reach Machine.anyStep s → RequestsFresh s := by
  intro fresh
  have ended : (Machine.play regionStep Machine.anyStep
      (connectRegion 0 (.ok (tokensUntil 100 10000))) (outage ++ [.wait (secs 60), .send])).any
        fun s => s.requests = [{
          sentAt := secs 100
          authorization := some "Bearer access"
          bearer := some (tokensUntil 100 10000).access }] := by decide
  rcases (Option.any_eq_true _ _).mp ended with ⟨s, played, requests⟩
  have reached : regionMachine.Reach Machine.anyStep s :=
    Machine.play_reach (.ofStart ⟨_, _, rfl⟩) played
  have request := fresh s reached
  rw [RequestsFresh, of_decide_eq_true requests, List.forall_mem_singleton] at request
  rcases request rfl with ⟨token, same, early⟩
  obtain rfl := Option.mem_some_iff.mp same
  exact absurd early (by decide)

/-! ## While the auth service answers -/

/-- When the loop wakes by itself. -/
def LoopStage.wakeAt? : LoopStage → Option Nat
  | .sleeping wakeAt | .retrying wakeAt => some wakeAt
  | _ => none

/-- A token lives for more than 10 seconds. -/
def Token.LivesFrom (t : Token) (now : Nat) : Prop := now + secs 10 < t.expiry

instance (t : Token) (now : Nat) : Decidable (t.LivesFrom now) :=
  inferInstanceAs (Decidable (_ < _))

/-- Sleeps are exact, calls take no time, and each answer brings tokens that live for more
than 10 seconds. -/
def Answered (s : Region) : RegionLabel → Prop
  | .wait nanoseconds =>
      ∀ stage ∈ s.loop, ∃ wakeAt ∈ stage.wakeAt?, s.now + nanoseconds ≤ wakeAt
  | .authenticated challenge response =>
      ∃ new ∈ (authenticate challenge response).toOption,
        new.access.LivesFrom s.now ∧ new.refresh.LivesFrom s.now
  | .refreshed reply => ∃ new ∈ reply.toOption.join, new.LivesFrom s.now
  | _ => True

instance (s : Region) (label : RegionLabel) : Decidable (Answered s label) := by
  cases label with
  | wait nanoseconds => exact inferInstanceAs (Decidable (∀ stage ∈ s.loop, _))
  | authenticated challenge response =>
      exact inferInstanceAs (Decidable (∃ new ∈ (authenticate challenge response).toOption, _))
  | refreshed reply => exact inferInstanceAs (Decidable (∃ new ∈ reply.toOption.join, _))
  | _ => exact isTrue trivial

/-- A region whose first `authenticate` is answered likewise. -/
def answeredMachine : Machine Region RegionLabel :=
  .ofFun (fun s => ∃ now initial, initial.access.LivesFrom now ∧ initial.refresh.LivesFrom now ∧
    s = connectRegion now (.ok initial)) regionStep

/-- The stored access token at a stage of the loop: fresh before a sleep, and not expired
when the sleep ends. -/
def LoopStage.Covered (now : Nat) (access : Token) : LoopStage → Prop
  | .readExpiry => access.LivesFrom now
  | .sleeping wakeAt => now ≤ wakeAt ∧ wakeAt < access.expiry
  | .awake | .authenticating | .readRefresh | .refreshing _ => now < access.expiry
  | .retrying _ => False

/-- By the clock of the loop a refresh token has 120 seconds left. -/
def LeftForRefresh (now : Nat) (refresh : Token) : Prop :=
  120 ≤ timestampSecs refresh.expiresAtUtc - nowSecs now

structure Covered (s : Region) : Prop where
  access : ∃ t stage, s.tokens = some t ∧ s.loop = some stage ∧ stage.Covered s.now t.access
  readRefresh : s.loop = some .readRefresh → ∀ t ∈ s.tokens, LeftForRefresh s.now t.refresh
  refreshes : ∀ call ∈ s.refreshes, LeftForRefresh call.calledAt call.refreshToken

/-- A sleep ends before the token that it was computed from expires. -/
theorem wakeAt_lt_expiry {t : Tokens} {now : Nat} (lives : t.access.LivesFrom now) :
    now + secs (sleepSecs (some t) now) < t.access.expiry := by
  have known : secs t.accessExpiresAt ≤ t.access.expiry := secs_timestampSecs_le _
  have sleep : sleepSecs (some t) now = min (max (t.accessExpiresAt - nowSecs now - 60) 10) 300 :=
    rfl
  unfold Token.LivesFrom at lives
  rw [sleep]
  generalize t.access.expiry = expiry at lives known ⊢
  generalize t.accessExpiresAt = seconds at known ⊢
  simp only [secs, nowSecs, Nat.reduceMul] at *
  omega

/-- What the loop counts as 120 seconds are more than 119. -/
theorem LeftForRefresh.lt_expiry {now : Nat} {refresh : Token}
    (left : LeftForRefresh now refresh) : now + secs 119 < refresh.expiry := by
  have known : secs (timestampSecs refresh.expiresAtUtc) ≤ refresh.expiry :=
    secs_timestampSecs_le _
  unfold LeftForRefresh at left
  generalize refresh.expiry = expiry at known ⊢
  generalize timestampSecs refresh.expiresAtUtc = seconds at left known
  simp only [secs, nowSecs, Nat.reduceMul] at *
  omega

theorem Covered.lt_expiry {s : Region} (covered : Covered s) :
    ∃ t, s.tokens = some t ∧ s.now < t.access.expiry := by
  rcases covered.access with ⟨t, stage, stored, -, access⟩
  refine ⟨t, stored, ?_⟩
  cases stage with
  | readExpiry => exact Nat.lt_of_le_of_lt (Nat.le_add_right _ _) access
  | sleeping wakeAt => exact Nat.lt_of_le_of_lt access.1 access.2
  | awake | authenticating | readRefresh | refreshing _ => exact access
  | retrying wakeAt => exact access.elim

theorem eq_ok_of_mem_toOption {ε α : Type} {result : Except ε α} {value : α}
    (member : value ∈ result.toOption) : result = .ok value := by
  cases result with
  | error e => cases member
  | ok value' => rw [Option.some.inj member]

section Covered

variable {s s' : Region} {label : RegionLabel} {t : Tokens}

/-- The loop goes on, with the tokens as they are. -/
theorem Covered.loopStep {stage : LoopStage} (covered : Covered s) (runs : s.loop = some stage)
    (taken : loopStep s stage = some s') : Covered s' := by
  rcases covered.access with ⟨t, stage', stored, same, access⟩
  obtain rfl : stage = stage' := Option.some.inj (runs.symm.trans same)
  cases stage with
  | readExpiry =>
      cases taken
      refine ⟨⟨t, _, stored, rfl, Nat.le_add_right _ _, ?_⟩, nofun,
        covered.refreshes⟩
      show s.now + secs (sleepSecs s.tokens s.now) < _
      rw [stored]
      exact wakeAt_lt_expiry access
  | sleeping wakeAt =>
      simp only [ArbBot.loopStep] at taken
      split at taken
      · cases taken
        exact ⟨⟨t, _, stored, rfl, Nat.lt_of_le_of_lt access.1 access.2⟩,
          nofun, covered.refreshes⟩
      · cases taken
  | awake =>
      simp only [ArbBot.loopStep] at taken
      split at taken
      · cases taken
        exact ⟨⟨t, _, stored, rfl, access⟩, nofun, covered.refreshes⟩
      · rename_i enough
        rw [stored] at enough
        cases taken
        refine ⟨⟨t, _, stored, rfl, access⟩, fun _ t' same => ?_, covered.refreshes⟩
        obtain rfl : t = t' := Option.some.inj (stored.symm.trans same)
        have left : ¬ t.refreshExpiresAt - nowSecs s.now < 120 := fun short =>
          enough (decide_eq_true short)
        exact Nat.le_of_not_lt left
  | authenticating => cases taken
  | readRefresh =>
      simp only [ArbBot.loopStep] at taken
      split at taken
      · rename_i missing
        cases stored.symm.trans missing
      · rename_i t' stored'
        cases taken
        refine ⟨⟨t, _, stored, rfl, access⟩, nofun, ?_⟩
        intro call member
        rcases List.mem_append.mp member with earlier | last
        · exact covered.refreshes call earlier
        · obtain rfl := List.mem_singleton.mp last
          exact covered.readRefresh runs t' stored'
  | refreshing refreshToken => cases taken
  | retrying wakeAt => exact access.elim

theorem Covered.step (covered : Covered s) (answered : Answered s label)
    (taken : regionStep s label = some s') : Covered s' := by
  rcases covered.access with ⟨t, stage, stored, runs, access⟩
  cases label with
  | wait nanoseconds =>
      cases taken
      rcases answered stage runs with ⟨wakeAt, sleeps, early⟩
      cases stage with
      | sleeping wakeAt' =>
          obtain rfl := Option.some.inj sleeps
          refine ⟨⟨t, _, stored, runs, early, access.2⟩, fun other => ?_, covered.refreshes⟩
          cases runs.symm.trans other
      | retrying _ => exact access.elim
      | _ => cases sleeps
  | send =>
      cases taken
      exact ⟨⟨t, stage, stored, runs, access⟩, covered.readRefresh, covered.refreshes⟩
  | go =>
      rcases Option.bind_eq_some_iff.mp taken with ⟨stage', runs', went⟩
      exact covered.loopStep runs' went
  | authenticated challenge response =>
      simp only [regionStep] at taken
      split at taken
      · rcases answered with ⟨new, result, lives, -⟩
        rw [eq_ok_of_mem_toOption result] at taken
        cases taken
        exact ⟨⟨new, _, rfl, rfl, lives⟩, nofun, covered.refreshes⟩
      · cases taken
  | refreshed reply =>
      simp only [regionStep] at taken
      split at taken
      · rcases answered with ⟨new, result, lives⟩
        rw [eq_ok_of_mem_toOption (Option.join_eq_some_iff.mp result)] at taken
        cases taken
        refine ⟨⟨{ t with access := new }, _, ?_, rfl, lives⟩, nofun,
          covered.refreshes⟩
        show s.tokens.map _ = _
        rw [stored]
        rfl
      · cases taken

theorem covered_connect {now : Nat} {initial : Tokens} (lives : initial.access.LivesFrom now) :
    Covered (connectRegion now (.ok initial)) where
  access := ⟨initial, _, rfl, rfl, lives⟩
  readRefresh other := by cases other
  refreshes call none := absurd none List.not_mem_nil

end Covered

/-- **The tokens are renewed in time** while the auth service answers: the stored access
token is not expired at any instant, and each refresh token that `RefreshAccessToken` is
called with has 120 seconds left in whole seconds, that is more than 119. -/
theorem tokens_renewed {s : Region} (reached : answeredMachine.Reach Answered s) :
    (∃ t, s.tokens = some t ∧ s.now < t.access.expiry) ∧
      ∀ call ∈ s.refreshes, LeftForRefresh call.calledAt call.refreshToken ∧
        call.calledAt + secs 119 < call.refreshToken.expiry := by
  have covered : Covered s := by
    refine reached.invariant Covered ?_ fun _ _ _ covered answered taken =>
      covered.step answered taken
    intro s started
    rcases started with ⟨now, initial, lives, -, rfl⟩
    exact covered_connect lives
  refine ⟨covered.lt_expiry, fun call member => ?_⟩
  have left := covered.refreshes call member
  exact ⟨left, left.lt_expiry⟩

/-! ### A refresh at the limit -/

/-- The loop starts 0.9 seconds into a second, sleeps for 300 seconds, and refreshes the
access token that expires at second 400 with a refresh token that expires at second 420. -/
def atLimit : List RegionLabel := [
  .go, .wait (secs 300), .go, .go, .go,
  .refreshed (.ok (some { value := "renewed", expiresAtUtc := atSecond 700 }))]

theorem answered_atLimit :
    answeredMachine.start (connectRegion 900000000 (.ok (tokensUntil 400 420))) :=
  ⟨_, _, by decide, by decide, rfl⟩

theorem tokens_renewed_atLimit :
    ∃ s, Machine.play regionStep Answered (connectRegion 900000000 (.ok (tokensUntil 400 420)))
        atLimit = some s ∧ s.refreshes.length = 1 ∧
      (∃ t, s.tokens = some t ∧ s.now < t.access.expiry) ∧
        ∀ call ∈ s.refreshes, LeftForRefresh call.calledAt call.refreshToken ∧
          call.calledAt + secs 119 < call.refreshToken.expiry := by
  have ended : (Machine.play regionStep Answered
      (connectRegion 900000000 (.ok (tokensUntil 400 420))) atLimit).any
        fun s => s.refreshes.length = 1 := by decide
  rcases (Option.any_eq_true _ _).mp ended with ⟨s, played, one⟩
  have reached : answeredMachine.Reach Answered s :=
    Machine.play_reach (.ofStart answered_atLimit) played
  exact ⟨s, played, of_decide_eq_true one, tokens_renewed reached⟩

/-- The refresh token has 119.1 seconds left. -/
theorem refresh_below_limit :
    ¬ ∀ s, answeredMachine.Reach Answered s →
      (∃ t, s.tokens = some t ∧ s.now < t.access.expiry) ∧
        ∀ call ∈ s.refreshes, call.calledAt + secs 120 ≤ call.refreshToken.expiry := by
  intro enough
  have ended : (Machine.play regionStep Answered
      (connectRegion 900000000 (.ok (tokensUntil 400 420))) atLimit).any
        fun s => s.refreshes = [{
          calledAt := 300900000000
          refreshToken := (tokensUntil 400 420).refresh }] := by decide
  rcases (Option.any_eq_true _ _).mp ended with ⟨s, played, refreshes⟩
  have reached : answeredMachine.Reach Answered s :=
    Machine.play_reach (.ofStart answered_atLimit) played
  have call := (enough s reached).2
  rw [of_decide_eq_true refreshes, List.forall_mem_singleton] at call
  exact absurd call (by decide)

end ArbBot
