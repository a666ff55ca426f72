import ArbBot.RouteTemplate

/-!
# How far the offset search looks

Both passes of `discover_offsets` stop sixteen bytes before the end of the data, the
second one too, although it compares eight bytes only. `Forced` says that the offsets
are the only ones the whole buffer allows. `discoverOffsets_forced_iff` shows that the
search returns the forced offsets, and only those, unless a further input amount stands
in the last bytes: `AmountAtEnd`.
-/

namespace ArbBot

open Foundation

/-- The whole buffer allows these offsets only: the pair stands there and nowhere else
or, where it stands nowhere, the input amount does. -/
structure Forced (data : List UInt8) (inAmount quotedOut : UInt64) (inOff outOff : Nat) :
    Prop where
  adjacent : outOff = inOff + 8
  inside : inOff + 16 ≤ data.length
  amount : amountAt data inAmount inOff = true
  ofPair : window data outOff 8 = le64 quotedOut →
    ∀ p, pairAt data inAmount quotedOut p = true → p = inOff
  ofAmount : window data outOff 8 ≠ le64 quotedOut →
    (∀ p, pairAt data inAmount quotedOut p = false) ∧
      ∀ p, amountAt data inAmount p = true → p = inOff

/-- Without a pair, the input amount stands once where the passes look and again in the
last bytes, where they do not. -/
def AmountAtEnd (data : List UInt8) (inAmount quotedOut : UInt64) : Prop :=
  (∀ p, pairAt data inAmount quotedOut p = false) ∧
    (∃! p, p + 16 ≤ data.length ∧ amountAt data inAmount p = true) ∧
      ∃ p, data.length < p + 16 ∧ amountAt data inAmount p = true

section Occurrences

variable {data : List UInt8} {inAmount quotedOut : UInt64} {p : Nat}

/-- Eight bytes are read only where the buffer has them. -/
theorem inside_of_window_eq_le64 {x : UInt64} (reads : window data p 8 = le64 x) :
    p + 8 ≤ data.length := by
  have length := congrArg List.length reads
  rw [length_le64, window, List.length_take, List.length_drop] at length
  omega

theorem pairAt_eq_true_iff :
    pairAt data inAmount quotedOut p = true ↔
      amountAt data inAmount p = true ∧ window data (p + 8) 8 = le64 quotedOut := by
  rw [pairAt, amountAt, Bool.and_eq_true, beq_iff_eq, beq_iff_eq]

theorem inside_of_pairAt (pair : pairAt data inAmount quotedOut p = true) :
    p + 16 ≤ data.length := by
  have reads := inside_of_window_eq_le64 (pairAt_eq_true_iff.mp pair).2
  omega

/-- Pass 1 sees every pair of the buffer. -/
theorem filter_pairAt_eq_nil_iff :
    (positions data).filter (pairAt data inAmount quotedOut) = [] ↔
      ∀ p, pairAt data inAmount quotedOut p = false := by
  rw [List.filter_eq_nil_iff]
  constructor
  · intro nowhere p
    by_contra pair
    rw [Bool.not_eq_false] at pair
    have inside := inside_of_pairAt pair
    exact nowhere p ((mem_positions (by omega)).mpr inside) pair
  · intro nowhere p _
    rw [nowhere p]
    exact Bool.false_ne_true

end Occurrences

section Search

variable {data : List UInt8} {inAmount quotedOut : UInt64} {inOff outOff : Nat}

/-- Forced offsets are found. -/
theorem Forced.found (forced : Forced data inAmount quotedOut inOff outOff) :
    discoverOffsets data inAmount quotedOut = some (inOff, outOff) := by
  have long : 16 ≤ data.length := by have := forced.inside; omega
  refine discoverOffsets_eq_some_iff.mpr ⟨long, forced.adjacent, ?_⟩
  by_cases reads : window data outOff 8 = le64 quotedOut
  · left
    have pair : pairAt data inAmount quotedOut inOff = true :=
      pairAt_eq_true_iff.mpr ⟨forced.amount, forced.adjacent ▸ reads⟩
    exact (filter_positions_eq_singleton long).mpr
      ⟨⟨forced.inside, pair⟩, fun p here => forced.ofPair reads p here.2⟩
  · right
    rcases forced.ofAmount reads with ⟨nowhere, only⟩
    exact ⟨filter_pairAt_eq_nil_iff.mpr nowhere, (filter_positions_eq_singleton long).mpr
      ⟨⟨forced.inside, forced.amount⟩, fun p here => only p here.2⟩⟩

/-- Offsets that are found are forced, unless the last bytes hold the amount again. -/
theorem forced_of_discoverOffsets (absent : ¬ AmountAtEnd data inAmount quotedOut)
    (found : discoverOffsets data inAmount quotedOut = some (inOff, outOff)) :
    Forced data inAmount quotedOut inOff outOff := by
  rcases discoverOffsets_eq_some_iff.mp found with ⟨long, rfl, pair | ⟨noPair, alone⟩⟩
  · rcases (filter_positions_eq_singleton long).mp pair with ⟨⟨inside, here⟩, only⟩
    rcases pairAt_eq_true_iff.mp here with ⟨amount, quoted⟩
    exact
      { adjacent := rfl
        inside := inside
        amount := amount
        ofPair := fun _ p also => only p ⟨inside_of_pairAt also, also⟩
        ofAmount := fun differs => (differs quoted).elim }
  · have nowhere := filter_pairAt_eq_nil_iff.mp noPair
    rcases (filter_positions_eq_singleton long).mp alone with ⟨⟨inside, amount⟩, only⟩
    refine
      { adjacent := rfl
        inside := inside
        amount := amount
        ofPair := fun _ p also => ?_
        ofAmount := fun _ => ⟨nowhere, fun p also => ?_⟩ }
    · rw [nowhere p] at also
      cases also
    · by_contra differs
      -- a second match escapes pass 2 only behind its last position
      have beyond : data.length < p + 16 := by
        by_contra within
        exact differs (only p ⟨Nat.not_lt.mp within, also⟩)
      exact absent ⟨nowhere, ⟨inOff, ⟨inside, amount⟩, only⟩, p, beyond, also⟩

/-- **The search and the forced offsets.** The search returns the offsets the whole buffer
forces, and `None` when it forces none, exactly where no further input amount in the last
fifteen bytes makes a fallback match ambiguous. -/
theorem discoverOffsets_forced_iff :
    (∀ inOff outOff, discoverOffsets data inAmount quotedOut = some (inOff, outOff) ↔
        Forced data inAmount quotedOut inOff outOff) ↔
      ¬ AmountAtEnd data inAmount quotedOut := by
  constructor
  · intro precise atEnd
    rcases atEnd with ⟨nowhere, ⟨p, ⟨inside, amount⟩, only⟩, q, beyond, again⟩
    have found : discoverOffsets data inAmount quotedOut = some (p, p + 8) :=
      discoverOffsets_eq_some_iff.mpr ⟨by omega, rfl, Or.inr
        ⟨filter_pairAt_eq_nil_iff.mpr nowhere,
          (filter_positions_eq_singleton (by omega)).mpr ⟨⟨inside, amount⟩, only⟩⟩⟩
    have differs : window data (p + 8) 8 ≠ le64 quotedOut := by
      intro reads
      have pair := pairAt_eq_true_iff.mpr ⟨amount, reads⟩
      rw [nowhere p] at pair
      cases pair
    have same : q = p := (((precise p (p + 8)).mp found).ofAmount differs).2 q again
    omega
  · intro absent inOff outOff
    exact ⟨forced_of_discoverOffsets absent, Forced.found⟩

end Search

/-- The amount 1 stands at 0 and, in the last eight bytes, at 16: the search takes the first
one for the only one. -/
theorem discoverOffsets_not_forced :
    let data := le64 1 ++ le64 5 ++ le64 1
    discoverOffsets data 1 9 = some (0, 8) ∧ amountAt data 1 16 = true ∧
      ¬ Forced data 1 9 0 8 := by
  refine ⟨by decide, by decide, ?_⟩
  intro forced
  have only := (forced.ofAmount (by decide)).2 16 (by decide)
  cases only

end ArbBot
