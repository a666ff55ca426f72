import ArbBot.Simulator.Simulate

/-!
# Collected accounts and the lock count

`account_lock_count` adds up keys and indexes without resolving them. `collect_tx_accounts`
resolves the indexes in the tables it is given, skips what does not resolve, sorts and drops
what it has had. `collectTxAccounts_lockCount` compares the two.
-/

namespace ArbBot

open Foundation Sdk

/-- `account_lock_count`. -/
def VersionedTransaction.accountLockCount (tx : VersionedTransaction) : Nat :=
  match tx.message with
  | .v0 message =>
      let fromAlt := (message.addressTableLookups.map fun l =>
        l.writableIndexes.length + l.readonlyIndexes.length).sum
      message.accountKeys.length + fromAlt
  | .legacy accountKeys _ => accountKeys.length

/-! ## Sorted lists without repetitions -/

section Sorted

variable {keys : List Pubkey}

/-- What `sort_unstable` and `dedup` leave ascends strictly. -/
theorem sortDedup_pairwise (keys : List Pubkey) :
    (sortDedup keys).Pairwise fun a b => a.bytes < b.bytes := by
  have sorted : (keys.mergeSort fun a b => a.bytes ≤ b.bytes).Pairwise fun a b =>
      a.bytes ≤ b.bytes := by
    have whole : (keys.mergeSort fun a b => a.bytes ≤ b.bytes).Pairwise fun a b =>
        decide (a.bytes ≤ b.bytes) = true := by
      apply List.pairwise_mergeSort
      · intro a b c first second
        exact decide_eq_true (List.le_trans (of_decide_eq_true first) (of_decide_eq_true second))
      · intro a b
        rw [Bool.or_eq_true, decide_eq_true_eq, decide_eq_true_eq]
        exact List.le_total _ _
    exact whole.imp of_decide_eq_true
  have ascending : (sortDedup keys).Pairwise fun a b => a.bytes ≤ b.bytes :=
    sorted.sublist (List.destutter_sublist (· ≠ ·) _)
  have stepped : (sortDedup keys).IsChain (· ≠ ·) := List.isChain_destutter (· ≠ ·) _
  have strict : (sortDedup keys).IsChain fun a b => a.bytes < b.bytes := by
    rw [List.isChain_iff_getElem] at stepped ⊢
    intro i bound
    have below := List.pairwise_iff_getElem.mp ascending i (i + 1) (by omega) bound (by omega)
    exact Std.lt_of_le_of_ne below fun same => stepped i bound (Pubkey.ext same)
  have trans : Trans (fun a b : Pubkey => a.bytes < b.bytes)
      (fun a b : Pubkey => a.bytes < b.bytes) (fun a b : Pubkey => a.bytes < b.bytes) :=
    ⟨fun first second => List.lt_trans first second⟩
  exact strict.pairwise

theorem nodup_sortDedup (keys : List Pubkey) : (sortDedup keys).Nodup :=
  (sortDedup_pairwise keys).imp fun {a b} (below : a.bytes < b.bytes) (same : a = b) =>
    List.lt_irrefl _ (same ▸ below)

/-- Sorting and dropping leaves as many keys as there are different ones. -/
theorem length_sortDedup (keys : List Pubkey) : (sortDedup keys).length = keys.dedup.length := by
  apply List.Perm.length_eq
  rw [List.perm_ext_iff_of_nodup (nodup_sortDedup keys) (List.nodup_dedup keys)]
  intro key
  rw [mem_sortDedup, List.mem_dedup]

theorem length_sortDedup_le (keys : List Pubkey) : (sortDedup keys).length ≤ keys.length := by
  rw [length_sortDedup]
  exact (List.dedup_sublist keys).length_le

/-- Nothing is dropped just when the keys are different. -/
theorem length_sortDedup_eq_iff : (sortDedup keys).length = keys.length ↔ keys.Nodup := by
  rw [length_sortDedup, ← List.dedup_eq_self]
  constructor
  · exact (List.dedup_sublist keys).eq_of_length
  · exact fun same => congrArg List.length same

end Sorted

/-! ## The lookups -/

/-- The indexes of a lookup, the writable ones first. -/
def indexes (lookup : MessageAddressTableLookup) : List UInt8 :=
  lookup.writableIndexes ++ lookup.readonlyIndexes

/-- The entry of an index: in range of the first table with the key of the lookup. -/
def resolveIndex (alts : List AddressLookupTableAccount) (lookup : MessageAddressTableLookup)
    (idx : UInt8) : Option Pubkey :=
  (alts.find? (·.key = lookup.accountKey)).bind (·.addresses[idx.toNat]?)

section Lookups

variable {tx : VersionedTransaction} {alts : List AddressLookupTableAccount}

theorem resolvedBy_eq (lookup : MessageAddressTableLookup) :
    resolvedBy alts lookup = (indexes lookup).filterMap (resolveIndex alts lookup) := by
  unfold resolvedBy indexes resolveIndex
  cases alts.find? (·.key = lookup.accountKey) with
  | none => exact (List.filterMap_eq_nil_iff.mpr fun _ _ => rfl).symm
  | some alt => rw [List.filterMap_append]; rfl

/-- The static keys and what the lookups resolve to, before sorting. -/
def gathered (tx : VersionedTransaction) (alts : List AddressLookupTableAccount) : List Pubkey :=
  tx.message.staticAccountKeys ++ tx.message.addressTableLookups.flatMap fun lookup =>
    (indexes lookup).filterMap (resolveIndex alts lookup)

theorem collectTxAccounts_eq : collectTxAccounts tx alts = sortDedup (gathered tx alts) := by
  rw [collectTxAccounts, gathered]
  exact congrArg (fun resolved => sortDedup (_ ++ List.flatMap resolved _)) (funext resolvedBy_eq)

/-- The lock count is that of the static keys and of all indexes. -/
theorem accountLockCount_eq (tx : VersionedTransaction) :
    tx.accountLockCount = tx.message.staticAccountKeys.length +
      (tx.message.addressTableLookups.map fun lookup => (indexes lookup).length).sum := by
  rcases tx with ⟨message⟩
  cases message with
  | legacy accountKeys instructions => rfl
  | v0 message =>
      simp only [indexes, List.length_append]
      rfl

theorem length_gathered_le : (gathered tx alts).length ≤ tx.accountLockCount := by
  rw [gathered, List.length_append, accountLockCount_eq]
  exact Nat.add_le_add_left length_flatMap_filterMap_le _

theorem length_gathered_eq_iff :
    (gathered tx alts).length = tx.accountLockCount ↔
      ∀ lookup ∈ tx.message.addressTableLookups, ∀ idx ∈ indexes lookup,
        (resolveIndex alts lookup idx).isSome := by
  rw [gathered, List.length_append, accountLockCount_eq, Nat.add_left_cancel_iff,
    length_flatMap_filterMap_eq_iff]

end Lookups

/-- **Collected accounts and locks.** The collected accounts ascend strictly and are the
static keys and the entries the lookups resolve to. They are at most as many as the counted
locks, and as many just when every index resolves and no key comes twice. -/
theorem collectTxAccounts_lockCount (tx : VersionedTransaction)
    (alts : List AddressLookupTableAccount) :
    ((collectTxAccounts tx alts).Pairwise fun a b => a.bytes < b.bytes) ∧
      (∀ key, key ∈ collectTxAccounts tx alts ↔
        key ∈ tx.message.staticAccountKeys ∨ ∃ lookup ∈ tx.message.addressTableLookups,
          ∃ idx ∈ indexes lookup, resolveIndex alts lookup idx = some key) ∧
      (collectTxAccounts tx alts).length ≤ tx.accountLockCount ∧
      ((collectTxAccounts tx alts).length = tx.accountLockCount ↔
        (∀ lookup ∈ tx.message.addressTableLookups, ∀ idx ∈ indexes lookup,
          (resolveIndex alts lookup idx).isSome) ∧
        (gathered tx alts).Nodup) := by
  rw [collectTxAccounts_eq]
  have dropped := length_sortDedup_le (gathered tx alts)
  have counted : (gathered tx alts).length ≤ tx.accountLockCount := length_gathered_le
  refine ⟨sortDedup_pairwise _, fun key => ?_, dropped.trans counted, ?_⟩
  · simp only [mem_sortDedup, gathered, List.mem_append, List.mem_flatMap, List.mem_filterMap]
  · rw [← length_gathered_eq_iff, ← length_sortDedup_eq_iff]
    omega

end ArbBot
