import ArbBot.Pipeline.Grid
import Mathlib.Algebra.Group.Nat.Defs
import Mathlib.Data.List.Range

/-!
# The range of a scan

The configuration is loaded without checks, so the loop over the amounts meets any
minimum, maximum and step. Where the step is 0 it never passes the maximum, and where the
sum that should end it leaves `u64` it starts again from a small amount. `gridExact_iff`
says that in all other cases the entries are exactly the grid.
-/

namespace ArbBot

/-- The `k`-th amount of the grid. -/
def gridAmount (minLamports stepLamports : UInt64) (k : Nat) : Nat :=
  minLamports.toNat + k * stepLamports.toNat

/-- The loop ends, and its entries are those of the grid up to the maximum: each amount once,
with every line of the tokens file free and direct, no sum leaving `u64`. -/
def GridExact (tokenMints : List String) (minLamports maxLamports stepLamports : UInt64) : Prop :=
  ∃ count, (∀ k, k < count ↔ gridAmount minLamports stepLamports k ≤ maxLamports.toNat) ∧
    (∀ k ≤ count, gridAmount minLamports stepLamports k < 2 ^ 64) ∧
    ∃ fuel amounts, amountLoop maxLamports stepLamports fuel minLamports = some amounts ∧
      amounts.map UInt64.toNat = (List.range count).map (gridAmount minLamports stepLamports) ∧
      amounts.Nodup ∧
      (allPairs tokenMints amounts).map (fun entry =>
          (entry.amount.toNat, entry.tokenMint, entry.onlyDirect)) =
        (List.range count).flatMap fun k => tokenMints.flatMap fun tokenMint => [
          (gridAmount minLamports stepLamports k, tokenMint, false),
          (gridAmount minLamports stepLamports k, tokenMint, true)]

/-- There is nothing to visit, or the step is positive and the first amount past the
maximum fits a `u64`. -/
def RangeFits (minLamports maxLamports stepLamports : UInt64) : Prop :=
  maxLamports < minLamports ∨ 0 < stepLamports ∧
    minLamports.toNat +
      ((maxLamports.toNat - minLamports.toNat) / stepLamports.toNat + 1) * stepLamports.toNat <
        2 ^ 64

section Grid

variable {minLamports maxLamports stepLamports : UInt64} {count : Nat}

theorem gridAmount_succ (k : Nat) :
    gridAmount minLamports stepLamports (k + 1) =
      gridAmount minLamports stepLamports k + stepLamports.toNat := by
  rw [gridAmount, gridAmount, Nat.succ_mul, Nat.add_assoc]

theorem gridAmount_mono {j k : Nat} (le : j ≤ k) :
    gridAmount minLamports stepLamports j ≤ gridAmount minLamports stepLamports k :=
  Nat.add_le_add_left (Nat.mul_le_mul_right _ le) _

/-- How many amounts a positive step has up to the maximum. -/
theorem lt_count_iff (positive : 0 < stepLamports.toNat)
    (ordered : minLamports.toNat ≤ maxLamports.toNat) (k : Nat) :
    k < (maxLamports.toNat - minLamports.toNat) / stepLamports.toNat + 1 ↔
      gridAmount minLamports stepLamports k ≤ maxLamports.toNat := by
  rw [Nat.lt_succ_iff, Nat.le_div_iff_mul_le positive, gridAmount]
  omega

/-- From an amount of the grid on, the loop visits the rest of the grid: one turn adds the
step, and the sum that ends it is the first one past the maximum. -/
theorem amountLoop_grid
    (inside : ∀ k, k < count ↔ gridAmount minLamports stepLamports k ≤ maxLamports.toNat)
    (room : gridAmount minLamports stepLamports count < 2 ^ 64) (n k : Nat)
    (split : k + n = count) :
    amountLoop maxLamports stepLamports (n + 1)
        (UInt64.ofNat (gridAmount minLamports stepLamports k)) =
      some ((List.range' k n).map fun j =>
        UInt64.ofNat (gridAmount minLamports stepLamports j)) := by
  have fits : gridAmount minLamports stepLamports k < 2 ^ 64 :=
    Nat.lt_of_le_of_lt (gridAmount_mono (by omega)) room
  have value : (UInt64.ofNat (gridAmount minLamports stepLamports k)).toNat =
      gridAmount minLamports stepLamports k := UInt64.toNat_ofNat_of_lt' fits
  have test : UInt64.ofNat (gridAmount minLamports stepLamports k) ≤ maxLamports ↔ k < count := by
    rw [inside, UInt64.le_iff_toNat_le, value]
  induction n generalizing k with
  | zero => rw [amountLoop, if_neg (by rw [test]; omega), List.range'_zero, List.map_nil]
  | succ n ih =>
      have fits' : gridAmount minLamports stepLamports (k + 1) < 2 ^ 64 :=
        Nat.lt_of_le_of_lt (gridAmount_mono (by omega)) room
      have value' : (UInt64.ofNat (gridAmount minLamports stepLamports (k + 1))).toNat =
          gridAmount minLamports stepLamports (k + 1) := UInt64.toNat_ofNat_of_lt' fits'
      have next : UInt64.ofNat (gridAmount minLamports stepLamports k) + stepLamports =
          UInt64.ofNat (gridAmount minLamports stepLamports (k + 1)) := by
        rw [gridAmount_succ, UInt64.ofNat_add, UInt64.ofNat_toNat]
      rw [amountLoop, if_pos (by rw [test]; omega), next,
        ih (k + 1) (by omega) fits' value' (by rw [inside, UInt64.le_iff_toNat_le, value'])]
      rw [Option.map_some, List.range'_succ, List.map_cons]

/-- The entries of amounts, read as numbers. -/
theorem map_allPairs (tokenMints : List String) (amounts : List UInt64) :
    (allPairs tokenMints amounts).map (fun entry =>
        (entry.amount.toNat, entry.tokenMint, entry.onlyDirect)) =
      (amounts.map UInt64.toNat).flatMap fun amount => tokenMints.flatMap fun tokenMint => [
        (amount, tokenMint, false), (amount, tokenMint, true)] := by
  rw [allPairs, List.map_flatMap, List.flatMap_map]
  refine List.flatMap_congr fun amount _ => ?_
  rw [pairsAt, List.map_flatMap]
  rfl

/-- A loop whose last sum fits visits the grid. -/
theorem gridExact_of_count (tokenMints : List String) (count : Nat)
    (inside : ∀ k, k < count ↔ gridAmount minLamports stepLamports k ≤ maxLamports.toNat)
    (room : gridAmount minLamports stepLamports count < 2 ^ 64) :
    GridExact tokenMints minLamports maxLamports stepLamports := by
  have small : ∀ k ≤ count, gridAmount minLamports stepLamports k < 2 ^ 64 :=
    fun k le => Nat.lt_of_le_of_lt (gridAmount_mono le) room
  have ended := amountLoop_grid inside room count 0 (Nat.zero_add count)
  have first : UInt64.ofNat (gridAmount minLamports stepLamports 0) = minLamports := by
    rw [gridAmount, Nat.zero_mul, Nat.add_zero, UInt64.ofNat_toNat]
  rw [first, ← List.range_eq_range'] at ended
  have values : ((List.range count).map fun j =>
      UInt64.ofNat (gridAmount minLamports stepLamports j)).map UInt64.toNat =
        (List.range count).map (gridAmount minLamports stepLamports) := by
    rw [List.map_map]
    refine List.map_congr_left fun k member => ?_
    exact UInt64.toNat_ofNat_of_lt' (small k (List.mem_range.mp member).le)
  refine ⟨count, inside, small, count + 1, _, ended, values, amountLoop_nodup ended, ?_⟩
  rw [map_allPairs, values, List.flatMap_map]

/-- A minimum past the maximum leaves nothing to visit. -/
theorem gridExact_of_empty (tokenMints : List String)
    (empty : maxLamports.toNat < minLamports.toNat) :
    GridExact tokenMints minLamports maxLamports stepLamports := by
  apply gridExact_of_count tokenMints 0
  · intro k
    have first : gridAmount minLamports stepLamports 0 ≤
        gridAmount minLamports stepLamports k := gridAmount_mono (Nat.zero_le k)
    rw [gridAmount] at first
    omega
  · rw [gridAmount, Nat.zero_mul]
    exact minLamports.toNat_lt

/-- **The grid of a scan.** The loop ends with exactly the grid just when there is nothing to
visit, or the step is positive and the first amount past the maximum fits a `u64`. -/
theorem gridExact_iff (tokenMints : List String) :
    GridExact tokenMints minLamports maxLamports stepLamports ↔
      RangeFits minLamports maxLamports stepLamports := by
  unfold RangeFits
  rw [UInt64.lt_iff_toNat_lt, UInt64.lt_iff_toNat_lt, UInt64.toNat_zero]
  constructor
  · intro grid
    rcases grid with ⟨count, inside, small, -⟩
    by_cases ordered : minLamports.toNat ≤ maxLamports.toNat
    · right
      have positive : 0 < stepLamports.toNat := by
        by_contra zero
        -- with step 0 every amount of the grid is the minimum
        have last := (inside count).mpr (by rw [gridAmount, Nat.eq_zero_of_not_pos zero]; omega)
        exact Nat.lt_irrefl _ last
      have counted : count =
          (maxLamports.toNat - minLamports.toNat) / stepLamports.toNat + 1 := by
        apply Nat.le_antisymm
        · by_contra more
          exact Nat.lt_irrefl _ ((lt_count_iff positive ordered _).mpr
            ((inside _).mp (Nat.lt_of_not_le more)))
        · by_contra fewer
          exact Nat.lt_irrefl _ ((inside _).mpr
            ((lt_count_iff positive ordered _).mp (Nat.lt_of_not_le fewer)))
      refine ⟨positive, ?_⟩
      rw [← counted]
      exact small count (Nat.le_refl _)
    · exact Or.inl (Nat.lt_of_not_le ordered)
  · intro fits
    by_cases ordered : minLamports.toNat ≤ maxLamports.toNat
    · rcases fits with empty | ⟨positive, room⟩
      · omega
      · exact gridExact_of_count tokenMints _ (lt_count_iff positive ordered) room
    · exact gridExact_of_empty tokenMints (Nat.lt_of_not_le ordered)

/-- With step 0 the loop does not end. -/
theorem amountLoop_step_zero {amount : UInt64} (inside : amount ≤ maxLamports) (fuel : Nat) :
    amountLoop maxLamports 0 fuel amount = none := by
  induction fuel with
  | zero => rfl
  | succ fuel ih => rw [amountLoop, if_pos inside, UInt64.add_zero, ih, Option.map_none]

end Grid

/-- A step of a tenth of a lamport is cast to 0: at one SOL the scan never starts. -/
theorem scan_hangs :
    (∀ fuel, amountLoop 1000000000 0 fuel 1000000000 = none) ∧
      ¬ GridExact ["mint"] 1000000000 1000000000 0 := by
  have hangs : ∀ fuel, amountLoop 1000000000 0 fuel 1000000000 = none :=
    amountLoop_step_zero (UInt64.le_refl _)
  refine ⟨hangs, ?_⟩
  intro grid
  rcases grid with ⟨_, _, _, fuel, amounts, ended, _⟩
  rw [hangs fuel] at ended
  cases ended

end ArbBot
