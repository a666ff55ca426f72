import Mathlib.Data.List.Nodup
import Mathlib.Tactic.Common

/-!
# The entries of a scan

`all_pairs` has an entry for every amount of the loop, every line of the tokens file and both
route modes. A loop that ends has not wrapped back to an amount it has had
(`amountLoop_nodup`), so an amount has two entries for each line (`entries_of_amount`).
-/

namespace ArbBot

/-- An entry of `all_pairs`. -/
structure ScanEntry where
  amount : UInt64
  tokenMint : String
  onlyDirect : Bool
  deriving DecidableEq, Repr

/-- The amounts of the loop from an amount on, if it ends within the fuel. -/
def amountLoop (maxLamports stepLamports : UInt64) : Nat → UInt64 → Option (List UInt64)
  | 0, _ => none
  | fuel + 1, amount =>
      if amount ≤ maxLamports then
        (amountLoop maxLamports stepLamports fuel (amount + stepLamports)).map (amount :: ·)
      else some []

/-- The entries of one amount: for each token the free routes, then the direct ones. -/
def pairsAt (tokenMints : List String) (amount : UInt64) : List ScanEntry :=
  tokenMints.flatMap fun tokenMint => [
    { amount := amount, tokenMint := tokenMint, onlyDirect := false },
    { amount := amount, tokenMint := tokenMint, onlyDirect := true }]

def allPairs (tokenMints : List String) (amounts : List UInt64) : List ScanEntry :=
  amounts.flatMap (pairsAt tokenMints)

/-! ## The amounts -/

section Loop

variable {maxLamports stepLamports : UInt64}

/-- A loop that ends has a first amount past the maximum, or goes on from the next one. -/
theorem amountLoop_cases {fuel : Nat} {amount : UInt64} {amounts : List UInt64}
    (ended : amountLoop maxLamports stepLamports fuel amount = some amounts) :
    (¬ amount ≤ maxLamports ∧ amounts = []) ∨
      amount ≤ maxLamports ∧ ∃ fuel' later,
        amountLoop maxLamports stepLamports fuel' (amount + stepLamports) = some later ∧
          fuel = fuel' + 1 ∧ amounts = amount :: later := by
  cases fuel with
  | zero => cases ended
  | succ fuel =>
      rw [amountLoop] at ended
      split at ended
      · rename_i inside
        rcases Option.map_eq_some_iff.mp ended with ⟨later, rest, rfl⟩
        exact Or.inr ⟨inside, fuel, later, rest, rfl, rfl⟩
      · rename_i past
        exact Or.inl ⟨past, (Option.some.inj ended).symm⟩

/-- What a loop that ends visits does not depend on the fuel. -/
theorem amountLoop_unique {fuel fuel' : Nat} {amount : UInt64} {amounts amounts' : List UInt64}
    (ended : amountLoop maxLamports stepLamports fuel amount = some amounts)
    (ended' : amountLoop maxLamports stepLamports fuel' amount = some amounts') :
    amounts = amounts' := by
  induction fuel generalizing amount fuel' amounts amounts' with
  | zero => cases ended
  | succ fuel ih =>
      rcases amountLoop_cases ended with ⟨past, rfl⟩ | ⟨inside, _, later, rest, same, rfl⟩
      · rcases amountLoop_cases ended' with ⟨-, rfl⟩ | ⟨inside, -⟩
        · rfl
        · exact absurd inside past
      · obtain rfl := Nat.succ.inj same
        rcases amountLoop_cases ended' with ⟨past, -⟩ | ⟨-, _, later', rest', -, rfl⟩
        · exact absurd inside past
        · rw [ih rest rest']

/-- From each amount it visits, the loop visits what follows there. -/
theorem amountLoop_from {fuel : Nat} {amount later : UInt64} {amounts before after : List UInt64}
    (ended : amountLoop maxLamports stepLamports fuel amount = some amounts)
    (split : amounts = before ++ later :: after) :
    ∃ fuel', amountLoop maxLamports stepLamports fuel' later = some (later :: after) := by
  induction before generalizing fuel amount amounts with
  | nil =>
      subst split
      rcases amountLoop_cases ended with ⟨-, none⟩ | ⟨-, _, _, -, -, same⟩
      · cases none
      · obtain rfl : later = amount := (List.cons.inj same).1
        exact ⟨fuel, ended⟩
  | cons first before ih =>
      rcases amountLoop_cases ended with ⟨-, rfl⟩ | ⟨-, fuel', rest, ended', -, rfl⟩
      · cases split
      · exact ih ended' (List.cons.inj split).2

/-- **No amount is repeated** by a loop that ends: from the same amount it would go on the
same way. -/
theorem amountLoop_nodup {fuel : Nat} {amount : UInt64} {amounts : List UInt64}
    (ended : amountLoop maxLamports stepLamports fuel amount = some amounts) :
    amounts.Nodup := by
  induction fuel generalizing amount amounts with
  | zero => cases ended
  | succ fuel ih =>
      rcases amountLoop_cases ended with ⟨-, rfl⟩ | ⟨-, _, later, rest, same, rfl⟩
      · exact List.nodup_nil
      · obtain rfl := Nat.succ.inj same
        refine List.nodup_cons.mpr ⟨?_, ih rest⟩
        intro again
        rcases List.append_of_mem again with ⟨before, after, rfl⟩
        rcases amountLoop_from rest rfl with ⟨fuel', ended'⟩
        have lengths := congrArg List.length (amountLoop_unique ended ended')
        simp only [List.length_cons, List.length_append] at lengths
        omega

end Loop

/-! ## The entries -/

theorem pairsAt_length (tokenMints : List String) (amount : UInt64) :
    (pairsAt tokenMints amount).length = 2 * tokenMints.length := by
  simp [pairsAt, Nat.mul_comm]

theorem amount_of_mem_pairsAt {tokenMints : List String} {amount : UInt64} {entry : ScanEntry}
    (member : entry ∈ pairsAt tokenMints amount) : entry.amount = amount := by
  rcases List.mem_flatMap.mp member with ⟨tokenMint, -, inside⟩
  rcases List.mem_cons.mp inside with rfl | inside
  · rfl
  · rw [List.mem_singleton.mp inside]

/-- An amount that the loop visits once has two entries for each line. -/
theorem entries_of_amount {tokenMints : List String} {amounts : List UInt64}
    (nodup : amounts.Nodup) (amount : UInt64) :
    (allPairs tokenMints amounts).countP (·.amount = amount) ≤ 2 * tokenMints.length := by
  induction amounts with
  | nil => exact Nat.zero_le _
  | cons first amounts ih =>
      obtain ⟨fresh, later⟩ := List.nodup_cons.mp nodup
      rw [allPairs, List.flatMap_cons, List.countP_append]
      by_cases same : first = amount
      · have none : (allPairs tokenMints amounts).countP (·.amount = amount) = 0 := by
          rw [List.countP_eq_zero]
          intro entry member
          rcases List.mem_flatMap.mp member with ⟨other, visited, inside⟩
          rw [decide_eq_true_eq, amount_of_mem_pairsAt inside, ← same]
          exact fun equal => fresh (equal ▸ visited)
        rw [allPairs] at none
        rw [none, ← pairsAt_length tokenMints first]
        exact List.countP_le_length
      · have none : (pairsAt tokenMints first).countP (·.amount = amount) = 0 := by
          rw [List.countP_eq_zero]
          intro entry member
          rw [decide_eq_true_eq, amount_of_mem_pairsAt member]
          exact same
        rw [none, Nat.zero_add]
        exact ih later

end ArbBot
