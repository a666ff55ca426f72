import ArbBot.StoreRuns

/-!
# Quote checks

`quoteCheck` makes the two requests of a round trip and says how the check ends. The
answers of Metis are a parameter. `TokenMetrics` counts the ends for each token.
-/

namespace ArbBot

/-! ## Program registry -/

def pmmProgramIds : List String := [
  "TessVdML9pBGgG9yGks7o4HewRaXVAMuoVj4x83GLQH",
  "SoLFiHG9TfgtdUXUjWAxi3LtvYuFyDLVhBWxdMZxyCe",
  "SV2EYYJyRz2YhfXwXnhNAevDEui5Q6yrfyo13WtupPF",
  "ZERor4xhbUycZ6gb9ntrhqscUcZmAbQDjEAtCf4hbZY"]

def forbiddenDexProgramIds : List String := []

def forbiddenDexLabels : List String := []

def wsolMint : String := "So11111111111111111111111111111111111111112"

/-! ## Route helpers -/

/-- `str::to_ascii_lowercase`. -/
def toAsciiLowercase (s : String) : String := s.map Char.toLower

/-- The string values of an object. -/
def stringValues (fields : JsonFields) : List String :=
  (sortedKeys fields).filterMap fun key => (fields.lookup key).bind Json.asStr

def hopUsesForbiddenDex (hop : Json) : Bool :=
  match hop.get "swapInfo" with
  | none => false
  | some info =>
      (match (info.get "label").bind Json.asStr with
        | none => false
        | some label =>
            forbiddenDexLabels.any fun banned =>
              toAsciiLowercase label == toAsciiLowercase banned ||
                strContains (toAsciiLowercase label) (toAsciiLowercase banned)) ||
        (match info.asObject with
          | none => false
          | some fields => (stringValues fields).any forbiddenDexProgramIds.contains)

def routeUsesForbiddenDex (quote : QuoteResponse) : Bool :=
  match quote.routePlan.asArray with
  | none => false
  | some hops => hops.any hopUsesForbiddenDex

def routeUsesPmm (quote : QuoteResponse) : Bool :=
  match quote.routePlan.asArray with
  | none => false
  | some hops =>
      hops.any fun hop =>
        match swapInfo hop with
        | none => false
        | some fields => (stringValues fields).any pmmProgramIds.contains

/-- The `ammKey` of a hop. -/
def hopPool (hop : Json) : Option String :=
  ((hop.get "swapInfo").bind (·.get "ammKey")).bind Json.asStr

def routesSharePool (quote1 quote2 : QuoteResponse) : Bool :=
  let keys1 := (quote1.routePlan.asArray.getD []).filterMap hopPool
  match quote2.routePlan.asArray with
  | none => false
  | some hops => (hops.filterMap hopPool).any keys1.contains

/-! ## One check -/

structure QuotePair where
  tokenMint : String
  amount : UInt64
  outputWsol : UInt64
  netProfit : Int64
  quote1 : QuoteResponse
  quote2 : QuoteResponse
  hopCount : Nat
  onlyDirect : Bool
  isPmm : Bool

/-- How a check ends. -/
inductive QuoteOutcome where
  | routeFail
  | notProfitable
  | samePool
  | profitable (pair : QuotePair)

/-- The answer of Metis to a request for the mints, the amount and the route mode. -/
abbrev GetQuote := String → String → UInt64 → Bool → Option QuoteResponse

/-- `parse::<u64>`. -/
def parseU64 (text : String) : Option UInt64 :=
  (Foundation.parseUnsigned (2 ^ 64) text).map UInt64.ofNat

/-- `u64::saturating_add`. -/
def saturatingAdd (a b : UInt64) : UInt64 := if a.toNat + b.toNat < 2 ^ 64 then a + b else -1

def quoteCheck (getQuote : GetQuote) (tokenMint : String) (amount : UInt64) (onlyDirect : Bool)
    (minProfitLamports : UInt64) : QuoteOutcome :=
  match getQuote wsolMint tokenMint amount onlyDirect with
  | none => .routeFail
  | some quote1 =>
      match (parseU64 quote1.outAmount).filter (· > 0) with
      | none => .routeFail
      | some tokenAmount =>
          match getQuote tokenMint wsolMint tokenAmount onlyDirect with
          | none => .routeFail
          | some quote2 =>
              let outputWsol := (parseU64 quote2.outAmount).getD 0
              if outputWsol ≤ saturatingAdd amount minProfitLamports then .notProfitable
              else if routeUsesForbiddenDex quote1 || routeUsesForbiddenDex quote2 then
                .notProfitable
              else if routesSharePool quote1 quote2 then .samePool
              else
                let n1 := (quote1.routePlan.asArray.map List.length).getD 1
                let n2 := (quote2.routePlan.asArray.map List.length).getD 1
                let floor :=
                  saturatingAdd (saturatingAdd amount jitoTipLamports) networkFeeLamports
                .profitable {
                  tokenMint := tokenMint
                  amount := amount
                  outputWsol := outputWsol
                  netProfit := outputWsol.toInt64 - floor.toInt64
                  quote1 := quote1
                  quote2 := quote2
                  hopCount := n1 + n2
                  onlyDirect := onlyDirect
                  isPmm := routeUsesPmm quote1 || routeUsesPmm quote2 }

/-- What a profitable check found out: the output is past the threshold, and the net profit
is the wrapping difference of the casts of the output and of the saturating floor. -/
theorem quoteCheck_profitable {getQuote : GetQuote} {tokenMint : String}
    {amount minProfitLamports : UInt64} {onlyDirect : Bool} {pair : QuotePair}
    (profitable :
      quoteCheck getQuote tokenMint amount onlyDirect minProfitLamports = .profitable pair) :
    pair.amount = amount ∧ saturatingAdd amount minProfitLamports < pair.outputWsol ∧
      pair.netProfit = pair.outputWsol.toInt64 -
        (saturatingAdd (saturatingAdd amount jitoTipLamports) networkFeeLamports).toInt64 := by
  unfold quoteCheck at profitable
  split at profitable
  · cases profitable
  · split at profitable
    · cases profitable
    · split at profitable
      · cases profitable
      · dsimp only at profitable
        split_ifs at profitable with below
        cases profitable
        exact ⟨rfl, UInt64.not_le.mp below, rfl⟩

/-! ## Token metrics -/

inductive TokenCounter where
  | qSent | routeOk | routeFail | profitable | notProfitable
  deriving DecidableEq, Repr

structure TokenStat where
  mint : String
  counts : TokenCounter → Int

structure TokenMetrics where
  stats : List TokenStat
  index : Std.HashMap String Nat

namespace TokenMetrics

def new (tokenMints : List String) : TokenMetrics where
  stats := tokenMints.map fun mint => { mint := mint, counts := fun _ => 0 }
  index := .ofList tokenMints.zipIdx

/-- `fetch_add` on a counter of the token that `get` finds. -/
def add (metrics : TokenMetrics) (mint : String) (counter : TokenCounter) (n : Int) :
    TokenMetrics :=
  match metrics.index[mint]? with
  | none => metrics
  | some i =>
      { metrics with
        stats := metrics.stats.modify i fun stat =>
          { stat with counts := Function.update stat.counts counter (stat.counts counter + n) } }

end TokenMetrics

end ArbBot
