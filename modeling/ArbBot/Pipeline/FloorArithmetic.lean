import ArbBot.Pipeline.Quotes

/-!
# The arithmetic of the floor

The floor of an opportunity is computed twice: `quote_check` saturates for the net profit,
and `scan_all_tokens` adds plainly for the minimum output of the merged quote. The net
profit subtracts casts to `i64`. `floorExact_iff` says for which profitable checks all of
this is the exact arithmetic.
-/

namespace ArbBot

/-- The floor as a number. -/
def exactFloor (amount : UInt64) : Nat :=
  amount.toNat + jitoTipLamports.toNat + networkFeeLamports.toNat

/-- The floor of the scan is the sum and the saturating floor, and the net profit is the
difference to it. -/
structure FloorExact (pair : QuotePair) : Prop where
  scanFloor : (onChainFloor pair.amount).toNat = exactFloor pair.amount
  sameFloor : onChainFloor pair.amount =
    saturatingAdd (saturatingAdd pair.amount jitoTipLamports) networkFeeLamports
  netProfit : pair.netProfit.toInt = (pair.outputWsol.toNat : Int) - exactFloor pair.amount

section Words

variable {a b : UInt64}

/-- The cast of a `u64` to `i64`. -/
theorem toInt_toInt64 (a : UInt64) : a.toInt64.toInt = (a.toNat : Int).bmod (2 ^ 64) :=
  BitVec.toInt_eq_toNat_bmod a.toBitVec

/-- The difference of two casts is the difference, up to a multiple of `2 ^ 64`. -/
theorem toInt_sub_toInt64 (a b : UInt64) :
    (a.toInt64 - b.toInt64).toInt = ((a.toNat : Int) - b.toNat).bmod (2 ^ 64) := by
  rw [Int64.toInt_sub, toInt_toInt64, toInt_toInt64, Int.bmod_sub_bmod, Int.sub_bmod_bmod]

theorem bmod_eq_self_iff {d : Int} (lower : -2 ^ 63 ≤ d) (upper : d < 2 ^ 64) :
    d.bmod (2 ^ 64) = d ↔ d < 2 ^ 63 := by
  constructor
  · intro same
    have bound : d.bmod (2 ^ 64) < ((2 ^ 64 : Nat) + 1 : Int) / 2 := Int.bmod_lt (by decide)
    omega
  · intro small
    exact Int.bmod_eq_of_le (by omega) (by omega)

theorem toNat_add_eq_iff : (a + b).toNat = a.toNat + b.toNat ↔ a.toNat + b.toNat < 2 ^ 64 := by
  rw [UInt64.toNat_add]
  omega

theorem saturatingAdd_of_lt (fits : a.toNat + b.toNat < 2 ^ 64) : saturatingAdd a b = a + b :=
  if_pos fits

theorem le_saturatingAdd : a ≤ saturatingAdd a b := by
  rw [saturatingAdd]
  split
  · rename_i fits
    rw [UInt64.le_iff_toNat_le, toNat_add_eq_iff.mpr fits]
    omega
  · rw [UInt64.le_iff_toNat_le]
    have bound := a.toNat_lt
    have top : (-1 : UInt64).toNat = 2 ^ 64 - 1 := rfl
    omega

end Words

section Floor

variable {amount : UInt64}

theorem exactFloor_eq (amount : UInt64) : exactFloor amount = amount.toNat + 6600 := by
  have tip : jitoTipLamports.toNat = 1600 := rfl
  have fee : networkFeeLamports.toNat = 5000 := rfl
  rw [exactFloor, tip, fee]

/-- The plain sum is exact just when it fits. -/
theorem toNat_onChainFloor_iff :
    (onChainFloor amount).toNat = exactFloor amount ↔ exactFloor amount < 2 ^ 64 := by
  have fees : (6600 : UInt64).toNat = 6600 := rfl
  rw [onChainFloor_eq, exactFloor_eq, ← fees, toNat_add_eq_iff]

/-- A sum that fits does not saturate. -/
theorem saturating_onChainFloor (fits : exactFloor amount < 2 ^ 64) :
    saturatingAdd (saturatingAdd amount jitoTipLamports) networkFeeLamports =
      onChainFloor amount := by
  have tip : amount.toNat + jitoTipLamports.toNat < 2 ^ 64 := by
    rw [exactFloor] at fits
    omega
  rw [saturatingAdd_of_lt tip, saturatingAdd_of_lt (by rw [toNat_add_eq_iff.mpr tip]; exact fits),
    onChainFloor]

end Floor

/-- **The floor.** For a profitable check the floors agree and the net profit is exact just
when the floor fits a `u64` and the difference to the output an `i64`. -/
theorem floorExact_iff {getQuote : GetQuote} {tokenMint : String}
    {amount minProfitLamports : UInt64} {onlyDirect : Bool} {pair : QuotePair}
    (profitable :
      quoteCheck getQuote tokenMint amount onlyDirect minProfitLamports = .profitable pair) :
    FloorExact pair ↔
      exactFloor amount < 2 ^ 64 ∧ pair.outputWsol.toNat < exactFloor amount + 2 ^ 63 := by
  obtain ⟨rfl, threshold, net⟩ := quoteCheck_profitable profitable
  have past : pair.amount.toNat < pair.outputWsol.toNat :=
    UInt64.lt_iff_toNat_lt.mp (UInt64.lt_of_le_of_lt le_saturatingAdd threshold)
  have output := pair.outputWsol.toNat_lt
  have floorEq := exactFloor_eq pair.amount
  -- on a floor that fits, the net profit is the difference reduced to the range of `i64`
  have exactNet : exactFloor pair.amount < 2 ^ 64 →
      (pair.netProfit.toInt = (pair.outputWsol.toNat : Int) - exactFloor pair.amount ↔
        pair.outputWsol.toNat < exactFloor pair.amount + 2 ^ 63) := by
    intro fits
    rw [net, saturating_onChainFloor fits, toInt_sub_toInt64, toNat_onChainFloor_iff.mpr fits,
      bmod_eq_self_iff (by omega) (by omega)]
    omega
  constructor
  · intro floor
    have fits := toNat_onChainFloor_iff.mp floor.scanFloor
    exact ⟨fits, (exactNet fits).mp floor.netProfit⟩
  · intro given
    rcases given with ⟨fits, near⟩
    exact ⟨toNat_onChainFloor_iff.mpr fits, (saturating_onChainFloor fits).symm,
      (exactNet fits).mpr near⟩

/-! ## Two checks -/

/-- Every request is answered with the output and a route without hops. -/
def flatQuotes (output : Nat) : GetQuote := fun inputMint outputMint _ _ =>
  some {
    inputMint := inputMint
    inAmount := "0"
    outputMint := outputMint
    outAmount := toString output
    otherAmountThreshold := "0"
    swapMode := "ExactIn"
    priceImpactPct := "0"
    routePlan := .array []
    contextSlot := none
    instructionVersion := none
    extra := .nil }

theorem parseU64_toString {n : Nat} (fits : n < 2 ^ 64) :
    parseU64 (toString n) = some (UInt64.ofNat n) := by
  rw [parseU64, Foundation.parseUnsigned_toString fits, Option.map_some]

/-- An output past the threshold is profitable. -/
theorem quoteCheck_flatQuotes (output : Nat) (amount minProfitLamports : UInt64)
    (fits : output < 2 ^ 64) (positive : UInt64.ofNat output > 0)
    (past : ¬ UInt64.ofNat output ≤ saturatingAdd amount minProfitLamports) :
    ∃ pair, quoteCheck (flatQuotes output) "mint" amount false minProfitLamports =
        .profitable pair ∧ pair.amount = amount ∧ pair.outputWsol = UInt64.ofNat output := by
  simp only [quoteCheck, flatQuotes, parseU64_toString fits, Option.filter_some,
    decide_eq_true positive, if_true, Option.getD_some, if_neg past]
  exact ⟨_, rfl, rfl, rfl⟩

/-- A million lamports come back as 1010000: the floor is exact. -/
theorem floorExact_million :
    ∃ pair, quoteCheck (flatQuotes 1010000) "mint" 1000000 false 0 = .profitable pair ∧
      FloorExact pair := by
  obtain ⟨pair, profitable, -, output⟩ :=
    quoteCheck_flatQuotes 1010000 1000000 0 (by decide) (by decide) (by decide)
  refine ⟨pair, profitable, (floorExact_iff profitable).mpr ⟨by decide, ?_⟩⟩
  rw [output]
  decide

/-- At the top of `u64` the plain sum wraps: the merged quote would ask for 4552 lamports
where the check saturates. -/
theorem onChainFloor_wraps :
    ∃ pair, quoteCheck (flatQuotes 18446744073709551615) "mint" 18446744073709549568 false 0 =
        .profitable pair ∧
      onChainFloor pair.amount = 4552 ∧
      saturatingAdd (saturatingAdd pair.amount jitoTipLamports) networkFeeLamports = -1 ∧
      ¬ FloorExact pair := by
  obtain ⟨pair, profitable, amount, -⟩ :=
    quoteCheck_flatQuotes 18446744073709551615 18446744073709549568 0 (by decide) (by decide)
      (by decide)
  refine ⟨pair, profitable, by rw [amount]; decide, by rw [amount]; decide, ?_⟩
  intro floor
  have fits := toNat_onChainFloor_iff.mp floor.scanFloor
  rw [amount] at fits
  revert fits
  decide

end ArbBot
