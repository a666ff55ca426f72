import ArbBot.Json

/-!
# Metis wire types

The quote and swap-instruction records of the Metis client, and the route
concatenation that turns a quote pair into one circular quote.
-/

namespace ArbBot

structure AccountMeta where
  pubkey : String
  isSigner : Bool
  isWritable : Bool
  deriving DecidableEq, Repr

structure InstructionData where
  programId : String
  accounts : List AccountMeta
  data : String
  deriving DecidableEq, Repr

structure SwapInstructionsResponse where
  computeBudgetInstructions : List InstructionData
  setupInstructions : List InstructionData
  swapInstruction : InstructionData
  cleanupInstruction : Option InstructionData
  addressLookupTableAddresses : List String
  deriving DecidableEq, Repr

/-- The response with other swap-instruction data. -/
def SwapInstructionsResponse.withData (ixs : SwapInstructionsResponse) (data : String) :
    SwapInstructionsResponse :=
  { ixs with swapInstruction := { ixs.swapInstruction with data := data } }

@[simp] theorem SwapInstructionsResponse.data_withData (ixs : SwapInstructionsResponse)
    (data : String) : (ixs.withData data).swapInstruction.data = data := rfl

@[simp] theorem SwapInstructionsResponse.withData_withData (ixs : SwapInstructionsResponse)
    (data data' : String) : (ixs.withData data).withData data' = ixs.withData data' := rfl

structure QuoteResponse where
  inputMint : String
  inAmount : String
  outputMint : String
  outAmount : String
  otherAmountThreshold : String
  swapMode : String
  priceImpactPct : String
  routePlan : Json
  contextSlot : Option UInt64
  instructionVersion : Option String
  extra : JsonFields

/-- `MetisClient::merge_quotes`: one circular quote whose hops are those of the
first quote followed by those of the second; `none` is the error of a route plan
that is not an array. -/
def mergeQuotes (quote1 quote2 : QuoteResponse) (minAcceptableOut : UInt64) :
    Option QuoteResponse := do
  let routePlan1 ← quote1.routePlan.asArray
  let routePlan2 ← quote2.routePlan.asArray
  some {
    inputMint := quote1.inputMint
    inAmount := quote1.inAmount
    outputMint := quote2.outputMint
    outAmount := toString minAcceptableOut
    otherAmountThreshold := toString minAcceptableOut
    swapMode := quote1.swapMode
    priceImpactPct := "0"
    routePlan := .array (routePlan1 ++ routePlan2)
    contextSlot := quote2.contextSlot
    instructionVersion := quote1.instructionVersion
    extra := quote1.extra }

/-- A merged route plan is an array. -/
theorem mergeQuotes_routePlan {quote1 quote2 merged : QuoteResponse} {floor : UInt64}
    (ok : mergeQuotes quote1 quote2 floor = some merged) :
    ∃ hops1 hops2, quote1.routePlan = .array hops1 ∧ quote2.routePlan = .array hops2 ∧
      merged.routePlan = .array (hops1 ++ hops2) := by
  unfold mergeQuotes at ok
  cases plan1 : quote1.routePlan <;> simp [plan1, Json.asArray] at ok
  cases plan2 : quote2.routePlan <;> simp [plan2] at ok
  exact ⟨_, _, rfl, rfl, by rw [← ok]⟩

end ArbBot
