import ArbBot.TokenMetrics.Reporter
import Mathlib.Algebra.Order.BigOperators.Group.Finset

/-!
# The totals of the reports

`write_json` sorts the rows of a report and adds their counters up. `written_totals` says that
what is written has a row for each entry of the configured tokens, and carries the conservation of
the counters to the totals.
-/

namespace ArbBot

open Foundation

/-! ## What is written of a report -/

namespace Report

/-- Profitable first, then those with routes. -/
def before (a b : TokenSnapshot) : Bool :=
  b.counts .profitable < a.counts .profitable ∨
    (b.counts .profitable = a.counts .profitable ∧ b.counts .routeOk ≤ a.counts .routeOk)

def sorted (report : Report) : List TokenSnapshot := report.snapshots.mergeSort before

/-- The sum of a counter, as a `u64`. -/
def total (report : Report) (counter : TokenCounter) : UInt64 :=
  (report.sorted.map fun row => row.counts counter).sum

end Report

/-- The sum of a counter over rows. -/
def rowSum (rows : List TokenSnapshot) (counter : TokenCounter) : Nat :=
  (rows.map fun row => (row.counts counter).toNat).sum

section Rows

variable {rows : List TokenSnapshot} {report : Report} {c : TokenCounter}

theorem sorted_perm : report.sorted.Perm report.snapshots := List.mergeSort_perm _ _

theorem before_iff (a b : TokenSnapshot) : Report.before a b = true ↔
    (b.counts .profitable).toNat < (a.counts .profitable).toNat ∨
      ((b.counts .profitable).toNat = (a.counts .profitable).toNat ∧
        (b.counts .routeOk).toNat ≤ (a.counts .routeOk).toNat) := by
  rw [Report.before, decide_eq_true_eq, UInt64.lt_iff_toNat_lt, UInt64.le_iff_toNat_le,
    UInt64.toNat_inj]

theorem sorted_pairwise : report.sorted.Pairwise fun a b => Report.before a b := by
  apply List.pairwise_mergeSort
  · intro a b c first second
    rw [before_iff] at first second ⊢
    omega
  · intro a b
    rw [Bool.or_eq_true, before_iff, before_iff]
    omega

theorem toNat_sum (rows : List TokenSnapshot) (c : TokenCounter) :
    (rows.map fun row : TokenSnapshot => row.counts c).sum.toNat = rowSum rows c % 2 ^ 64 := by
  induction rows with
  | nil => rfl
  | cons row rows ih =>
      have split : rowSum (row :: rows) c = (row.counts c).toNat + rowSum rows c := rfl
      rw [List.map_cons, List.sum_cons, UInt64.toNat_add, ih, split, Nat.add_mod_mod]

/-- Sorting changes no sum. -/
theorem toNat_total : (report.total c).toNat = rowSum report.snapshots c % 2 ^ 64 := by
  rw [Report.total, toNat_sum, rowSum, (sorted_perm.map _).sum_eq, rowSum]

/-- The sum of the rows, by their numbers. -/
theorem rowSum_eq : rowSum rows c = ∑ i ∈ Finset.range rows.length, (cell rows i c).toNat := by
  induction rows with
  | nil => rfl
  | cons row rows ih =>
      rw [List.length_cons, Finset.sum_range_succ', rowSum, List.map_cons, List.sum_cons,
        Nat.add_comm]
      exact congrArg (· + (row.counts c).toNat) ih

end Rows

section Totals

variable {reports : List Report} {n : Nat} {c : TokenCounter}

theorem sum_rowSums (lengths : ∀ report ∈ reports, report.snapshots.length = n) :
    (reports.map fun report => rowSum report.snapshots c).sum =
      ∑ i ∈ Finset.range n, sumOf reports i c := by
  induction reports with
  | nil => simp [sumOf]
  | cons report reports ih =>
      obtain ⟨length, lengths⟩ := List.forall_mem_cons.mp lengths
      rw [List.map_cons, List.sum_cons, ih lengths, rowSum_eq, length, ← Finset.sum_add_distrib]
      rfl

theorem totals_congr : (reports.map fun report => (report.total c).toNat).sum % 2 ^ 64 =
    (reports.map fun report => rowSum report.snapshots c).sum % 2 ^ 64 := by
  induction reports with
  | nil => rfl
  | cons report reports ih =>
      rw [List.map_cons, List.sum_cons, List.map_cons, List.sum_cons, toNat_total, Nat.mod_add_mod,
        Nat.add_mod, ih, ← Nat.add_mod]

/-- Totals that a `u64` holds together are exact. -/
theorem totals_exact
    (fits : (reports.map fun report => rowSum report.snapshots c).sum < 2 ^ 64) :
    (reports.map fun report => (report.total c).toNat).sum =
      (reports.map fun report => rowSum report.snapshots c).sum := by
  refine congrArg List.sum (List.map_congr_left fun report member => ?_)
  have part : rowSum report.snapshots c ≤
      (reports.map fun report => rowSum report.snapshots c).sum :=
    List.le_sum_of_mem (List.mem_map.mpr ⟨report, member, rfl⟩)
  rw [toNat_total]
  exact Nat.mod_eq_of_lt (lt_of_le_of_lt part fits)

end Totals

/-! ## The totals -/

/-- What is written, and the updates of all tokens. -/
structure WrittenTotals (cfg : Settings) (r : Reporting) : Prop where
  /-- A row for each configured token, the profitable ones first. -/
  tokens : ∀ report ∈ r.reports5 ++ r.reports30,
    (mints report.sorted).Perm cfg.tokenMints ∧
      report.sorted.Pairwise fun a b => Report.before a b
  /-- A total is the sum of its rows. -/
  rows : ∀ report ∈ r.reports5 ++ r.reports30, ∀ c,
    (report.total c).toNat = rowSum report.sorted c % 2 ^ 64
  /-- The updates are in the totals, in the next report and in the counters. -/
  events : ∀ c, ((r.reports5.map fun report => (report.total c).toNat).sum +
    ∑ i ∈ Finset.range cfg.tokenMints.length,
      ((r.stage.collected i c).toNat + r.metrics.row i c)) % 2 ^ 64 =
        (∑ i ∈ Finset.range cfg.tokenMints.length, r.incremented i c) % 2 ^ 64
  exact : ∀ c, ∑ i ∈ Finset.range cfg.tokenMints.length, r.incremented i c < 2 ^ 64 →
    (r.reports5.map fun report => (report.total c).toNat).sum +
      ∑ i ∈ Finset.range cfg.tokenMints.length,
        ((r.stage.collected i c).toNat + r.metrics.row i c) =
          ∑ i ∈ Finset.range cfg.tokenMints.length, r.incremented i c
  /-- The totals of a summary are those of its six reports. -/
  summaries : ∀ k summary, r.reports30[k]? = some summary → ∀ c,
    (summary.total c).toNat =
      (((r.reports5.drop (6 * k)).take 6).map fun report => (report.total c).toNat).sum % 2 ^ 64

/-- **The totals that are written.** In any interleaving of the pipeline with the reporter. -/
theorem written_totals {cfg : Settings} {r : Reporting}
    (reached : (reportingMachine cfg).Reach Machine.anyStep r) : WrittenTotals cfg r := by
  obtain ⟨sound, summed⟩ := Reporting.sound_of_reach reached
  have named : ∀ report ∈ r.reports5 ++ r.reports30, mints report.snapshots = cfg.tokenMints := by
    refine List.forall_mem_append.mpr ⟨summed.named, fun report member => ?_⟩
    obtain ⟨k, found⟩ := List.getElem?_of_mem member
    exact (summed.summaries k report found).1
  have lengths : ∀ report ∈ r.reports5, report.snapshots.length = cfg.tokenMints.length := by
    intro report member
    rw [← summed.named report member, length_mints]
  have sums : ∀ c, (r.reports5.map fun report => rowSum report.snapshots c).sum =
      ∑ i ∈ Finset.range cfg.tokenMints.length, r.reported i c := fun c => sum_rowSums lengths
  refine ⟨?_, ?_, ?_, ?_, ?_⟩
  · exact fun report member => ⟨named report member ▸ sorted_perm.map _, sorted_pairwise⟩
  · intro report member c
    exact toNat_sum report.sorted c
  · intro c
    have congruent : (∑ i ∈ Finset.range cfg.tokenMints.length, ((r.reported i c : Int) +
        (r.stage.collected i c).toNat + r.metrics.row i c)) % 2 ^ 64 =
          (∑ i ∈ Finset.range cfg.tokenMints.length, r.incremented i c) % 2 ^ 64 := by
      rw [Finset.sum_int_mod, Finset.sum_int_mod (f := fun i => r.incremented i c)]
      exact congrArg (· % 2 ^ 64)
        (Finset.sum_congr rfl fun i _ => (sound.cells i c).congruent)
    have totals : (r.reports5.map fun report => (report.total c).toNat).sum % 2 ^ 64 =
        (∑ i ∈ Finset.range cfg.tokenMints.length, r.reported i c) % 2 ^ 64 :=
      totals_congr.trans (congrArg (· % 2 ^ 64) (sums c))
    simp only [add_assoc] at congruent
    rw [Finset.sum_add_distrib, ← Nat.cast_sum] at congruent
    omega
  · intro c fits
    have nonneg : ∀ i ∈ Finset.range cfg.tokenMints.length, 0 ≤ r.incremented i c := by
      intro i _
      obtain ⟨nonneg, -, below⟩ := sound.cells i c
      omega
    have exact : ∀ i ∈ Finset.range cfg.tokenMints.length, (r.reported i c : Int) +
        ((r.stage.collected i c).toNat + r.metrics.row i c) = r.incremented i c := by
      intro i inside
      rw [← add_assoc]
      refine (sound.cells i c).exact (lt_of_le_of_lt ?_ fits)
      exact Finset.single_le_sum nonneg inside
    have whole := Finset.sum_congr rfl exact
    rw [Finset.sum_add_distrib, ← Nat.cast_sum] at whole
    have rest : 0 ≤ ∑ i ∈ Finset.range cfg.tokenMints.length,
        (((r.stage.collected i c).toNat : Int) + r.metrics.row i c) := by
      refine Finset.sum_nonneg fun i _ => ?_
      have nonneg := (sound.cells i c).nonneg
      omega
    rw [totals_exact (by rw [sums]; omega), sums]
    exact whole
  · intro k summary found c
    have six : ∀ report ∈ (r.reports5.drop (6 * k)).take 6,
        report.snapshots.length = cfg.tokenMints.length :=
      fun report member => lengths report (List.mem_of_mem_drop (List.mem_of_mem_take member))
    obtain ⟨tokens, cells⟩ := summed.summaries k summary found
    rw [totals_congr, sum_rowSums six, toNat_total, rowSum_eq, ← length_mints, tokens,
      Finset.sum_nat_mod, Finset.sum_nat_mod (f := fun i => sumOf _ i c)]
    refine congrArg (· % 2 ^ 64) (Finset.sum_congr rfl fun i _ => ?_)
    rw [cells i c, Nat.mod_mod]

theorem written_totals_amongSwaps :
    ∃ r, r.reports5.length = 1 ∧ r.pool.shared.metrics .metisRespOk = 1 ∧
      WrittenTotals repeatedMint r := by
  rcases reach_amongSwaps with ⟨r, reached, one, answered⟩
  exact ⟨r, one, answered, written_totals reached⟩

end ArbBot
