import ArbBot.Foundation.ByteWindow
import Mathlib.Data.List.Perm.Subperm

/-!
# Positions in tables

`chunksExact` cuts a list into whole blocks. `getElem?_idxOf_filter_iff` says when the
first position of an entry in a filtered table is still a position of it in the table
itself: just when no entry before it was dropped. `length_le_countP` counts different
positions whose entries have a property, and `length_flatMap_filterMap_eq_iff` the parts
that can be read.
-/

namespace Foundation

section Chunks

variable {α : Type*}

/-- The blocks of `size` entries from the start on; a shorter rest is left out. -/
def chunksExact (size : Nat) (data : List α) : List (List α) :=
  (List.range (data.length / size)).map fun i => window data (size * i) size

theorem length_chunksExact (size : Nat) (data : List α) :
    (chunksExact size data).length = data.length / size := by
  rw [chunksExact, List.length_map, List.length_range]

theorem length_of_mem_chunksExact {size : Nat} {data chunk : List α}
    (member : chunk ∈ chunksExact size data) : chunk.length = size := by
  rcases List.mem_map.mp member with ⟨i, inside, rfl⟩
  have room : size * (i + 1) ≤ data.length :=
    (Nat.mul_le_mul_left size (List.mem_range.mp inside)).trans (Nat.mul_div_le _ _)
  rw [Nat.mul_add_one] at room
  rw [window, List.length_take, List.length_drop]
  omega

theorem getElem?_chunksExact {size i : Nat} {data : List α} (inside : i < data.length / size) :
    (chunksExact size data)[i]? = some (window data (size * i) size) := by
  rw [chunksExact, List.getElem?_map, List.getElem?_range inside]
  rfl

end Chunks

section Filter

variable {α : Type*} [BEq α] [LawfulBEq α] {keep : α → Bool} {a : α} {l : List α}

theorem idxOf_le_of_getElem? {i : Nat} (found : l[i]? = some a) : l.idxOf a ≤ i := by
  induction l generalizing i with
  | nil => simp at found
  | cons b l ih =>
      rw [List.idxOf_cons]
      cases same : b == a with
      | true => exact Nat.zero_le _
      | false =>
          cases i with
          | zero =>
              rw [List.getElem?_cons_zero, Option.some.injEq] at found
              rw [found, BEq.rfl] at same
              cases same
          | succ i =>
              rw [List.getElem?_cons_succ] at found
              exact Nat.succ_le_succ (ih found)

theorem idxOf_filter_le (kept : keep a = true) : (l.filter keep).idxOf a ≤ l.idxOf a := by
  induction l with
  | nil => exact Nat.le_refl _
  | cons b l ih =>
      rw [List.idxOf_cons]
      cases same : b == a with
      | true =>
          rw [eq_of_beq same, List.filter_cons_of_pos kept, List.idxOf_cons_self]
          exact Nat.zero_le _
      | false =>
          cases keptHere : keep b with
          | true =>
              rw [List.filter_cons_of_pos keptHere, List.idxOf_cons, same]
              exact Nat.succ_le_succ ih
          | false =>
              rw [List.filter_cons_of_neg (by rw [keptHere]; exact Bool.false_ne_true)]
              exact ih.trans (Nat.le_succ _)

/-- The first position in the filtered list is one in the list just when the filter drops
nothing before it. -/
theorem getElem?_idxOf_filter_iff (kept : keep a = true) (member : a ∈ l) :
    l[(l.filter keep).idxOf a]? = some a ↔ ∀ b ∈ l.takeWhile (· != a), keep b = true := by
  induction l with
  | nil => cases member
  | cons b l ih =>
      cases same : b == a with
      | true =>
          obtain rfl := eq_of_beq same
          rw [List.filter_cons_of_pos kept, List.idxOf_cons_self,
            List.takeWhile_cons_of_neg (by simp)]
          simp
      | false =>
          have differs : b ≠ a := by
            intro equal
            rw [equal, BEq.rfl] at same
            cases same
          have later : a ∈ l := (List.mem_cons.mp member).resolve_left (Ne.symm differs)
          rw [List.takeWhile_cons_of_pos (by simpa using differs), List.forall_mem_cons]
          cases keptHere : keep b with
          | true =>
              rw [List.filter_cons_of_pos keptHere, List.idxOf_cons, same, cond_false,
                List.getElem?_cons_succ, ih later]
              simp
          | false =>
              refine iff_of_false ?_ (fun all => Bool.false_ne_true all.1)
              rw [List.filter_cons_of_neg (by rw [keptHere]; exact Bool.false_ne_true)]
              intro found
              -- one entry of the list is dropped before it, so the position is too early
              have early : (l.filter keep).idxOf a ≤ l.idxOf a := idxOf_filter_le kept
              have first := idxOf_le_of_getElem? found
              rw [List.idxOf_cons, same, cond_false] at first
              omega

end Filter

section Count

variable {α : Type*} {keep : α → Bool} {l : List α}

/-- Different positions of such entries are at most as many as the entries. -/
theorem length_le_countP {positions : List Nat} (nodup : positions.Nodup)
    (found : ∀ n ∈ positions, ∃ a, l[n]? = some a ∧ keep a) :
    positions.length ≤ l.countP keep := by
  have inside : positions ⊆ l.findIdxs keep := by
    intro n member
    rcases found n member with ⟨a, entry, kept⟩
    rcases List.getElem?_eq_some_iff.mp entry with ⟨bound, rfl⟩
    exact List.mem_findIdxs_iff_exists_getElem_pos.mpr ⟨bound, kept⟩
  have shorter := (nodup.subperm inside).length_le
  rwa [List.length_findIdxs] at shorter

end Count

section Sum

variable {α β γ : Type*} {items : List α} {parts : α → List β} {read : α → β → Option γ}

/-- Reading parts gives at most one entry for each part. -/
theorem length_flatMap_filterMap_le :
    (items.flatMap fun x => (parts x).filterMap (read x)).length ≤
      (items.map fun x => (parts x).length).sum := by
  induction items with
  | nil => exact Nat.le_refl _
  | cons x items ih =>
      rw [List.flatMap_cons, List.length_append, List.map_cons, List.sum_cons]
      exact Nat.add_le_add (List.length_filterMap_le _ _) ih

/-- It gives one for each part just when all of them can be read. -/
theorem length_flatMap_filterMap_eq_iff :
    (items.flatMap fun x => (parts x).filterMap (read x)).length =
        (items.map fun x => (parts x).length).sum ↔
      ∀ x ∈ items, ∀ y ∈ parts x, (read x y).isSome := by
  induction items with
  | nil => exact iff_of_true rfl (fun x member => by cases member)
  | cons x items ih =>
      have here : ((parts x).filterMap (read x)).length ≤ (parts x).length :=
        List.length_filterMap_le _ _
      have later := @length_flatMap_filterMap_le _ _ _ items parts read
      have all : ((parts x).filterMap (read x)).length = (parts x).length ↔
          ∀ y ∈ parts x, (read x y).isSome := by
        rw [List.length_filterMap_eq_countP, List.countP_eq_length]
      rw [List.flatMap_cons, List.length_append, List.map_cons, List.sum_cons,
        List.forall_mem_cons, ← ih, ← all]
      omega

end Sum

end Foundation
