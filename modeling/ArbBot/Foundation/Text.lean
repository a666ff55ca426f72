import Mathlib.Data.List.Basic
import Mathlib.Order.Lattice

/-!
# Texts that can be read back

Three ways in which a flattened text keeps its parts apart: an unsigned decimal
number reads back (`parseUnsigned_toString`), a text up to the first separator is
determined (`append_cons_inj_left`), and a concatenation of key-sorted blocks that
all hold one pivot key splits in one way only (`flatten_sortedBlocks_inj`).
-/

namespace Foundation

/-! ## Decimal numbers -/

/-- An unsigned decimal below `bound`: an optional plus sign and at least one
digit, as Rust's `from_str` of the unsigned types reads it. -/
def parseUnsigned (bound : Nat) (text : String) : Option Nat :=
  let digits := match text.toList with
    | '+' :: rest => rest
    | chars => chars
  if digits ≠ [] ∧ digits.all Char.isDigit then
    let n := Nat.ofDigitChars 10 digits 0
    if n < bound then some n else none
  else none

theorem plus_notMem_toDigits (n : Nat) : '+' ∉ Nat.toDigits 10 n := by
  intro member
  have digit := Nat.isDigit_of_mem_toDigits (by decide) (by decide) member
  revert digit
  decide

theorem parseUnsigned_toString {bound n : Nat} (fits : n < bound) :
    parseUnsigned bound (toString n) = some n := by
  have chars : (toString n).toList = Nat.toDigits 10 n := by
    rw [Nat.toString_eq_ofList_toDigits, String.toList_ofList]
  have unsigned : (match Nat.toDigits 10 n with
      | '+' :: rest => rest
      | chars => chars) = Nat.toDigits 10 n := by
    split
    · rename_i rest signed
      exact (plus_notMem_toDigits n (signed ▸ List.mem_cons_self)).elim
    · rfl
  have digits : (Nat.toDigits 10 n).all Char.isDigit = true :=
    List.all_eq_true.mpr fun _ member =>
      Nat.isDigit_of_mem_toDigits (by decide) (by decide) member
  simp only [parseUnsigned, chars, unsigned, ne_eq, Nat.toDigits_ne_nil, not_false_eq_true,
    digits, and_self, if_true, Nat.ofDigitChars_ten_toDigits, fits]

/-! ## The text of a string -/

/-- The UTF-8 bytes of a string. -/
def asBytes (s : String) : List UInt8 :=
  s.toByteArray.data.toList

theorem asBytes_inj {s t : String} (same : asBytes s = asBytes t) : s = t :=
  String.toByteArray_inj.mp (ByteArray.ext (Array.toList_inj.mp same))

/-! ## Separators -/

/-- The part before the first separator is determined. -/
theorem append_cons_inj_left {α : Type*} {c : α} {a a' b b' : List α}
    (free : c ∉ a) (free' : c ∉ a') (same : a ++ c :: b = a' ++ c :: b') :
    a = a' ∧ b = b' := by
  induction a generalizing a' with
  | nil =>
      cases a' with
      | nil => exact ⟨rfl, (List.cons.inj same).2⟩
      | cons x xs =>
          obtain ⟨head, -⟩ := List.cons.inj same
          exact (free' (head ▸ List.mem_cons_self)).elim
  | cons x xs ih =>
      cases a' with
      | nil =>
          obtain ⟨head, -⟩ := List.cons.inj same
          exact (free (head ▸ List.mem_cons_self)).elim
      | cons y ys =>
          obtain ⟨rfl, tails⟩ := List.cons.inj same
          obtain ⟨rfl, rfl⟩ := ih (fun member => free (List.mem_cons_of_mem _ member))
            (fun member => free' (List.mem_cons_of_mem _ member)) tails
          exact ⟨rfl, rfl⟩

/-! ## Key-sorted blocks with a pivot -/

section SortedBlocks

variable {β κ : Type*} [LinearOrder κ] {key : β → κ} {pivot : κ}

/-- Strictly sorted by key, with the pivot among the keys. -/
structure SortedBlock (key : β → κ) (pivot : κ) (block : List β) : Prop where
  sorted : block.Pairwise fun x y => key x < key y
  pivotal : pivot ∈ block.map key

theorem SortedBlock.head_le {block rest : List β} {x : β}
    (sorted : SortedBlock key pivot block) (shape : block = x :: rest) : key x ≤ pivot := by
  subst shape
  obtain ⟨y, member, rfl⟩ := List.mem_map.mp sorted.pivotal
  rcases List.mem_cons.mp member with rfl | later
  · exact le_refl _
  · exact le_of_lt ((List.pairwise_cons.mp sorted.sorted).1 y later)

theorem SortedBlock.ne_nil {block : List β} (sorted : SortedBlock key pivot block) :
    block ≠ [] := by
  rintro rfl
  simpa using sorted.pivotal

/-- A longer sorted block cannot start with a whole block: what follows the
shorter one starts the next block, at or below the pivot. -/
theorem SortedBlock.eq_of_append {short extra : List β} {rest : List (List β)}
    (shortSorted : SortedBlock key pivot short)
    (longSorted : SortedBlock key pivot (short ++ extra))
    (restSorted : ∀ block ∈ rest, SortedBlock key pivot block)
    (tail : List β) (same : rest.flatten = extra ++ tail) : extra = [] := by
  cases extra with
  | nil => rfl
  | cons x extra =>
      exfalso
      cases rest with
      | nil => simp at same
      | cons block rest =>
          have blockSorted := restSorted block List.mem_cons_self
          cases block with
          | nil => exact blockSorted.ne_nil rfl
          | cons y block =>
              obtain ⟨rfl, -⟩ := List.cons.inj same
              have low := blockSorted.head_le rfl
              obtain ⟨z, member, pivotKey⟩ := List.mem_map.mp shortSorted.pivotal
              have high := (List.pairwise_append.mp longSorted.sorted).2.2 z member y
                List.mem_cons_self
              rw [pivotKey] at high
              exact absurd low (not_le_of_gt high)

/-- Concatenated sorted blocks with a common pivot are determined by their
concatenation, although nothing separates them. -/
theorem flatten_sortedBlocks_inj {blocks blocks' : List (List β)}
    (sorted : ∀ block ∈ blocks, SortedBlock key pivot block)
    (sorted' : ∀ block ∈ blocks', SortedBlock key pivot block)
    (same : blocks.flatten = blocks'.flatten) : blocks = blocks' := by
  induction blocks generalizing blocks' with
  | nil =>
      cases blocks' with
      | nil => rfl
      | cons block rest =>
          simp only [List.flatten_nil, List.flatten_cons, List.nil_eq, List.append_eq_nil_iff]
            at same
          exact ((sorted' block List.mem_cons_self).ne_nil same.1).elim
  | cons block rest ih =>
      cases blocks' with
      | nil =>
          simp only [List.flatten_nil, List.flatten_cons, List.append_eq_nil_iff] at same
          exact ((sorted block List.mem_cons_self).ne_nil same.1).elim
      | cons block' rest' =>
          have here := sorted block List.mem_cons_self
          have here' := sorted' block' List.mem_cons_self
          have later := fun b member => sorted b (List.mem_cons_of_mem _ member)
          have later' := fun b member => sorted' b (List.mem_cons_of_mem _ member)
          rw [List.flatten_cons, List.flatten_cons] at same
          have headEq : block = block' := by
            rcases List.append_eq_append_iff.mp same with ⟨extra, rfl, tails⟩ | ⟨extra, rfl, tails⟩
            · rw [here.eq_of_append here' later _ tails, List.append_nil]
            · rw [here'.eq_of_append here later' _ tails, List.append_nil]
          subst headEq
          rw [ih later later' (List.append_cancel_left same)]

end SortedBlocks

end Foundation
