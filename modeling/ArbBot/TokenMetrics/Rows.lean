import ArbBot.Pipeline.Quotes
import Mathlib.Algebra.BigOperators.Intervals

/-!
# The rows of the token metrics

`stats` has a row for each line of the tokens file, and `index` sends a mint to one of its rows,
also when the file repeats it. Both are as `new` made them in every state that `add` leads to
(`Indexed`), so `add` changes one counter of one row (`Indexed.row_add`).
-/

namespace ArbBot

namespace TokenMetrics

/-- The counters of a row. -/
def row (metrics : TokenMetrics) (i : Nat) : TokenCounter → Int :=
  match metrics.stats[i]? with
  | none => fun _ => 0
  | some stat => stat.counts

/-- A counter summed over all tokens. -/
def total (metrics : TokenMetrics) (counter : TokenCounter) : Int :=
  (metrics.stats.map fun stat => stat.counts counter).sum

/-- The rows and the index of a list of mints. -/
structure Indexed (tokenMints : List String) (metrics : TokenMetrics) : Prop where
  index : metrics.index = (new tokenMints).index
  length : metrics.stats.length = tokenMints.length

section Rows

variable {tokenMints : List String} {metrics : TokenMetrics} {mint : String} {i : Nat}
  {counter : TokenCounter} {n : Int}

theorem row_of_getElem? {stat : TokenStat} (found : metrics.stats[i]? = some stat) :
    metrics.row i = stat.counts := by
  rw [row, found]

theorem total_eq_sum (metrics : TokenMetrics) (counter : TokenCounter) :
    metrics.total counter = ∑ i ∈ Finset.range metrics.stats.length, metrics.row i counter := by
  unfold total row
  induction metrics.stats with
  | nil => rfl
  | cons stat stats ih =>
      rw [List.map_cons, List.sum_cons, ih, List.length_cons, Finset.sum_range_succ', add_comm]
      simp only [List.getElem?_cons_succ, List.getElem?_cons_zero]

/-! ## The index -/

/-- An entry of an index comes from the list it is made of, or was there before. -/
theorem getElem?_insertMany {l : List (String × Nat)} {index : Std.HashMap String Nat}
    (found : (index.insertMany l)[mint]? = some i) : (mint, i) ∈ l ∨ index[mint]? = some i := by
  induction l generalizing index with
  | nil =>
      rw [Std.HashMap.insertMany_nil] at found
      exact Or.inr found
  | cons entry l ih =>
      obtain ⟨key, j⟩ := entry
      rw [Std.HashMap.insertMany_cons] at found
      rcases ih found with later | earlier
      · exact Or.inl (List.mem_cons_of_mem _ later)
      · rw [Std.HashMap.getElem?_insert] at earlier
        split at earlier
        · rename_i same
          obtain rfl := Option.some.inj earlier
          obtain rfl : key = mint := eq_of_beq same
          exact Or.inl List.mem_cons_self
        · exact Or.inr earlier

theorem index_new_lt (found : (new tokenMints).index[mint]? = some i) :
    i < tokenMints.length := by
  rw [new, Std.HashMap.ofList_eq_insertMany_empty] at found
  rcases getElem?_insertMany found with member | absent
  · exact List.snd_lt_of_mem_zipIdx member |>.trans_eq (Nat.add_zero _)
  · rw [Std.HashMap.getElem?_empty] at absent
    cases absent

/-- A mint of the tokens file has a row. -/
theorem exists_index_new (listed : mint ∈ tokenMints) :
    ∃ i, (new tokenMints).index[mint]? = some i := by
  have held : mint ∈ (new tokenMints).index := by
    rw [new, Std.HashMap.mem_ofList, List.contains_iff_mem, List.zipIdx_map_fst]
    exact listed
  exact ⟨_, Std.HashMap.getElem?_eq_some_getElem held⟩

/-! ## Adding -/

theorem indexed_new (tokenMints : List String) : Indexed tokenMints (new tokenMints) where
  index := rfl
  length := List.length_map _

theorem Indexed.add (indexed : Indexed tokenMints metrics) :
    Indexed tokenMints (metrics.add mint counter n) := by
  unfold TokenMetrics.add
  split
  · exact indexed
  · exact ⟨indexed.index, (List.length_modify _ _ _).trans indexed.length⟩

/-- `add` changes a counter of the row of the mint. -/
theorem Indexed.row_add (indexed : Indexed tokenMints metrics) (i : Nat) (c : TokenCounter) :
    (metrics.add mint counter n).row i c =
      metrics.row i c +
        if (new tokenMints).index[mint]? = some i ∧ c = counter then n else 0 := by
  unfold TokenMetrics.add
  rw [← indexed.index]
  cases found : metrics.index[mint]? with
  | none => simp
  | some j =>
      have inside : j < metrics.stats.length := by
        rw [indexed.length]
        exact index_new_lt (indexed.index ▸ found)
      by_cases same : j = i
      · subst same
        simp only [row, List.getElem?_modify_eq, List.getElem?_eq_getElem inside,
          Option.map_eq_map, Option.map_some, Function.update_apply, true_and]
        split
        · rename_i same
          rw [same]
        · rw [add_zero]
      · simp only [row, List.getElem?_modify_ne _ _ same, Option.some.injEq, same, false_and,
          if_false, add_zero]

theorem row_new (tokenMints : List String) (i : Nat) (c : TokenCounter) :
    (new tokenMints).row i c = 0 := by
  unfold row new
  cases found : tokenMints[i]? <;> simp [found]

end Rows

end TokenMetrics

end ArbBot
