import ArbBot.Foundation.Runs
import Mathlib.Data.String.Basic

/-!
# The tokens of a region

A region of the Jito gRPC client with its clock, its tokens and `token_refresh_loop`. The
loop sleeps, then renews the access token by `RefreshAccessToken` or both tokens by
`authenticate`; the answers of the auth service, the time that anything takes and the sends
are labels of `regionStep`.

Time is in nanoseconds since the Unix epoch, and the loop reads it in whole seconds. The
arrival of an answer and the write of the tokens are one step. `issued`, `requests` and
`refreshes` are history variables.
-/

namespace ArbBot

open Foundation

/-! ## Time -/

/-- `prost_types::Timestamp`. -/
structure Timestamp where
  seconds : Int
  nanos : Nat
  nanos_lt : nanos < 1000000000
  deriving DecidableEq, Repr

/-- A number of seconds. -/
def secs (n : Nat) : Nat := n * 1000000000

/-- `now_secs`. -/
def nowSecs (now : Nat) : Nat := now / 1000000000

def timestampSecs : Option Timestamp → Nat
  | some t => t.seconds.toNat
  | none => 0

/-- The instant of a timestamp; none is the epoch, as for the loop. -/
def instantOf : Option Timestamp → Nat
  | some t => secs t.seconds.toNat + t.nanos
  | none => 0

theorem secs_timestampSecs_le (t : Option Timestamp) : secs (timestampSecs t) ≤ instantOf t := by
  cases t with
  | none => exact Nat.le_refl 0
  | some t => exact Nat.le_add_right _ _

/-! ## Tokens -/

/-- `auth::Token`. -/
structure Token where
  value : String
  expiresAtUtc : Option Timestamp
  deriving DecidableEq, Repr

def Token.expiry (t : Token) : Nat := instantOf t.expiresAtUtc

/-- `Tokens`, with the issued tokens in place of their values and expiry seconds. -/
structure Tokens where
  access : Token
  refresh : Token
  deriving DecidableEq, Repr

def Tokens.accessExpiresAt (t : Tokens) : Nat := timestampSecs t.access.expiresAtUtc

def Tokens.refreshExpiresAt (t : Tokens) : Nat := timestampSecs t.refresh.expiresAtUtc

structure GenerateAuthTokensResponse where
  accessToken : Option Token
  refreshToken : Option Token
  deriving DecidableEq, Repr

/-- `authenticate` with the answers to its two requests. -/
def authenticate (challenge : Except String String)
    (response : Except String GenerateAuthTokensResponse) : Except String Tokens := do
  let _ ← challenge
  let tokenResp ← response
  match tokenResp.accessToken with
  | none => .error "no access_token in response"
  | some access =>
      match tokenResp.refreshToken with
      | none => .error "no refresh_token in response"
      | some refresh => .ok { access := access, refresh := refresh }

/-! ## Sends -/

/-- A `SendBundle` request: the `authorization` header and the token it was made of. -/
structure SendBundleRequest where
  sentAt : Nat
  authorization : Option String
  bearer : Option Token
  deriving DecidableEq, Repr

/-- The characters that a metadata value may hold. -/
def isHeaderChar (c : Char) : Bool := c == '\t' || (' ' ≤ c && c ≤ '~')

/-- `format!("Bearer \x7b\x7d", t.access).parse()`. -/
def bearerHeader (token : Token) : Option String :=
  let value := "Bearer " ++ token.value
  if value.toList.all isHeaderChar then some value else none

/-- The request of `send_to_region`, unless the header is refused. -/
def sendToRegion (tokens : Option Tokens) (now : Nat) : Option SendBundleRequest :=
  match tokens with
  | none => some { sentAt := now, authorization := none, bearer := none }
  | some t =>
      match bearerHeader t.access with
      | none => none
      | some value =>
          some { sentAt := now, authorization := some value, bearer := some t.access }

/-! ## The refresh loop -/

inductive LoopStage where
  | readExpiry
  | sleeping (wakeAt : Nat)
  | awake
  | authenticating
  | readRefresh
  | refreshing (refreshToken : Token)
  /-- The 30 seconds after a failed `authenticate`. -/
  | retrying (wakeAt : Nat)
  deriving DecidableEq, Repr

/-- A call of `RefreshAccessToken`. -/
structure RefreshCall where
  calledAt : Nat
  refreshToken : Token
  deriving DecidableEq, Repr

structure Region where
  now : Nat
  tokens : Option Tokens
  /-- None for a region whose first `authenticate` failed. -/
  loop : Option LoopStage
  /-- The access tokens that were issued, in order. -/
  issued : List Token
  requests : List SendBundleRequest
  refreshes : List RefreshCall

inductive RegionLabel where
  | wait (nanoseconds : Nat)
  | send
  /-- The loop goes on. -/
  | go
  | authenticated (challenge : Except String String)
      (response : Except String GenerateAuthTokensResponse)
  | refreshed (reply : Except String (Option Token))

def sleepSecs (tokens : Option Tokens) (now : Nat) : Nat :=
  match tokens with
  | some t => min (max (t.accessExpiresAt - nowSecs now - 60) 10) 300
  | none => 300

def needsFullReauth (tokens : Option Tokens) (now : Nat) : Bool :=
  match tokens with
  | some t => t.refreshExpiresAt - nowSecs now < 120
  | none => true

/-- What the loop does next without the auth service. -/
def loopStep (s : Region) : LoopStage → Option Region
  | .readExpiry =>
      some { s with loop := some (.sleeping (s.now + secs (sleepSecs s.tokens s.now))) }
  | .sleeping wakeAt => if wakeAt ≤ s.now then some { s with loop := some .awake } else none
  | .awake =>
      if needsFullReauth s.tokens s.now then some { s with loop := some .authenticating }
      else some { s with loop := some .readRefresh }
  | .readRefresh =>
      match s.tokens with
      | none => some { s with loop := some .readExpiry }
      | some t =>
          some { s with
            loop := some (.refreshing t.refresh)
            refreshes := s.refreshes ++ [{ calledAt := s.now, refreshToken := t.refresh }] }
  | .retrying wakeAt => if wakeAt ≤ s.now then some { s with loop := some .readExpiry } else none
  | .authenticating => none
  | .refreshing _ => none

/-- The end of `authenticate`, in both places. -/
def onAuthenticated (s : Region) : Except String Tokens → Region
  | .ok new =>
      { s with tokens := some new, issued := s.issued ++ [new.access], loop := some .readExpiry }
  | .error _ => { s with loop := some (.retrying (s.now + secs 30)) }

def onRefreshed (s : Region) : Except String (Option Token) → Region
  | .ok (some newAccess) =>
      { s with
        tokens := s.tokens.map fun t => { t with access := newAccess }
        issued := s.issued ++ [newAccess]
        loop := some .readExpiry }
  | .ok none => { s with loop := some .readExpiry }
  | .error _ => { s with loop := some .authenticating }

def regionStep (s : Region) : RegionLabel → Option Region
  | .wait nanoseconds => some { s with now := s.now + nanoseconds }
  | .send => some { s with requests := s.requests ++ (sendToRegion s.tokens s.now).toList }
  | .go => s.loop.bind (loopStep s)
  | .authenticated challenge response =>
      match s.loop with
      | some .authenticating => some (onAuthenticated s (authenticate challenge response))
      | _ => none
  | .refreshed reply =>
      match s.loop with
      | some (.refreshing _) => some (onRefreshed s reply)
      | _ => none

/-- `connect_region`, at an instant and with the result of its `authenticate`. -/
def connectRegion (now : Nat) : Except String Tokens → Region
  | .ok initial => {
      now := now
      tokens := some initial
      loop := some .readExpiry
      issued := [initial.access]
      requests := []
      refreshes := [] }
  | .error _ => {
      now := now
      tokens := none
      loop := none
      issued := []
      requests := []
      refreshes := [] }

def regionMachine : Machine Region RegionLabel :=
  .ofFun (fun s => ∃ now result, s = connectRegion now result) regionStep

end ArbBot
