import Mathlib.Algebra.Order.SuccPred
import Mathlib.Algebra.Order.BigOperators.Group.List
import Mathlib.Algebra.Order.Ring.Nat

/-!
# Consecutive blocks

Blocks follow one another: each ends where the next one starts. A position lies in one block
only (`Block.unique`), and positions are ordered by their blocks and within a block
(`Block.lt_iff`). The blocks of a list of lengths start at its partial sums.
-/

namespace Foundation

section Blocks

variable {ι α : Type*} [LinearOrder ι] [Add ι] [One ι] [SuccAddOrder ι]
  [LinearOrder α] {start : ι → α} {i j : ι} {x y : α}

/-- The position lies in the block. -/
def Block (start : ι → α) (i : ι) (x : α) : Prop := start i ≤ x ∧ x < start (i + 1)

/-- An earlier block ends before a later one. -/
theorem Block.lt_of_lt (mono : Monotone start) (first : Block start i x) (second : Block start j y)
    (earlier : i < j) : x < y :=
  first.2.trans_le ((mono (Order.add_one_le_of_lt earlier)).trans second.1)

theorem Block.unique (mono : Monotone start) (first : Block start i x)
    (second : Block start j x) : i = j := by
  rcases lt_trichotomy i j with earlier | same | later
  · exact absurd (first.lt_of_lt mono second earlier) (lt_irrefl x)
  · exact same
  · exact absurd (second.lt_of_lt mono first later) (lt_irrefl x)

/-- **The order of positions** is that of their blocks, then that within the block. -/
theorem Block.lt_iff (mono : Monotone start) (first : Block start i x)
    (second : Block start j y) : x < y ↔ i < j ∨ i = j ∧ x < y := by
  constructor
  · intro below
    rcases lt_trichotomy i j with earlier | same | later
    · exact Or.inl earlier
    · exact Or.inr ⟨same, below⟩
    · exact absurd (second.lt_of_lt mono first later) below.not_gt
  · intro order
    rcases order with earlier | ⟨-, below⟩
    · exact first.lt_of_lt mono second earlier
    · exact below

end Blocks

section Lengths

variable {lengths : List Nat} {i : Nat}

/-- Where the block of a list of lengths starts. -/
def blockStart (lengths : List Nat) (i : Nat) : Nat := (lengths.take i).sum

theorem blockStart_cons (length : Nat) (rest : List Nat) (i : Nat) :
    blockStart (length :: rest) (i + 1) = length + blockStart rest i := by
  rw [blockStart, List.take_succ_cons, List.sum_cons, blockStart]

theorem blockStart_succ (inside : i < lengths.length) :
    blockStart lengths (i + 1) = blockStart lengths i + lengths[i] := by
  rw [blockStart, List.sum_take_succ lengths i inside, blockStart]

theorem blockStart_mono : Monotone (blockStart lengths) :=
  List.monotone_sum_take lengths

end Lengths

end Foundation
