import ArbBot.Simulator.Injection
import ArbBot.Simulator.Sending
import Mathlib.Algebra.BigOperators.Group.Finset.Basic
import Mathlib.Algebra.Order.BigOperators.Group.List

/-!
# The ledger over runs

A run of `send_transaction` keeps two books. Lamports are neither made nor lost, but for the
fees (`lamports_conserved`); and an account that is not paying rent never starts to, nor is one
that pays resized or credited before it is closed or exempt (`rent_discipline`).

What the program runtime does for it is `Engine.Lawful`: an instruction keeps the accounts that
are not writable and, if it succeeds, the sum of the lamports. LiteSVM does the rest: the fee,
the accounts that are stored, the rent of those that are.
-/

namespace ArbBot

open Foundation Sdk

variable {Program Table Signature Hash Limits Trace : Type}
  {rt : Runtime Program Table} {engine : Engine Program Signature Hash Limits Trace}
  {db db' : AccountsDb Program} {stx : SanitizedTransaction} {rent : Rent} {fee : UInt64}
  {limits : Limits}

/-! ## Writable accounts -/

section Writable

variable {α β : Type} {isWritable : Nat → Bool}

theorem writableOnly_append (i : Nat) (a b : List α) :
    writableOnly isWritable i (a ++ b) =
      writableOnly isWritable i a ++ writableOnly isWritable (i + a.length) b := by
  induction a generalizing i with
  | nil => rfl
  | cons x a ih =>
      have shift : i + 1 + a.length = i + (x :: a).length := by
        rw [List.length_cons]
        omega
      rw [List.cons_append, writableOnly, writableOnly, ih, shift]
      split <;> rfl

theorem writableOnly_eq_nil {i : Nat} {l : List α} (none : ∀ j, i ≤ j → isWritable j = false) :
    writableOnly isWritable i l = [] := by
  induction l generalizing i with
  | nil => rfl
  | cons x l ih =>
      rw [writableOnly, none i (Nat.le_refl i), if_neg Bool.false_ne_true]
      exact ih fun j later => none j (Nat.le_of_succ_le later)

theorem map_writableOnly (f : α → β) (i : Nat) (l : List α) :
    (writableOnly isWritable i l).map f = writableOnly isWritable i (l.map f) := by
  induction l generalizing i with
  | nil => rfl
  | cons x l ih =>
      rw [List.map_cons, writableOnly, writableOnly, ← ih]
      split <;> rfl

theorem writableOnly_sublist (i : Nat) (l : List α) :
    (writableOnly isWritable i l).Sublist l := by
  induction l generalizing i with
  | nil => exact .slnil
  | cons x l ih =>
      rw [writableOnly]
      split
      · exact (ih (i + 1)).cons_cons x
      · exact (ih (i + 1)).cons x

/-- A writable account has a writable number. -/
theorem mem_writableOnly {i : Nat} {l : List α} {a : α}
    (member : a ∈ writableOnly isWritable i l) :
    ∃ j, l[j]? = some a ∧ isWritable (i + j) = true := by
  induction l generalizing i with
  | nil => cases member
  | cons x l ih =>
      have later : a ∈ writableOnly isWritable (i + 1) l →
          ∃ j, (x :: l)[j]? = some a ∧ isWritable (i + j) = true := by
        intro member
        rcases ih member with ⟨j, found, writable⟩
        exact ⟨j + 1, found, by rw [← writable]; congr 1; omega⟩
      rw [writableOnly] at member
      split at member
      · rename_i writable
        rcases List.mem_cons.mp member with rfl | member
        · exact ⟨0, rfl, writable⟩
        · exact later member
      · exact later member

/-- The weight of the writable entries, when the others are the same. -/
theorem sum_writableOnly {weight : α → Nat} {i : Nat} {a b : List α} (length : a.length = b.length)
    (same : ∀ j, isWritable (i + j) = false → a[j]? = b[j]?)
    (total : (a.map weight).sum = (b.map weight).sum) :
    ((writableOnly isWritable i a).map weight).sum =
      ((writableOnly isWritable i b).map weight).sum := by
  -- The two differ by what their totals differ.
  have apart : ∀ (i : Nat) (a b : List α), a.length = b.length →
      (∀ j, isWritable (i + j) = false → a[j]? = b[j]?) →
      ((writableOnly isWritable i a).map weight).sum + (b.map weight).sum =
        ((writableOnly isWritable i b).map weight).sum + (a.map weight).sum := by
    clear length same total
    intro i a
    induction a generalizing i with
    | nil =>
        intro b length _
        rw [List.length_eq_zero_iff.mp length.symm]
    | cons x a ih =>
        intro b length same
        cases b with
        | nil => cases length
        | cons y b =>
            have rest := ih (i + 1) b (Nat.succ.inj length) fun j readonly => by
              have shift : i + (j + 1) = i + 1 + j := by omega
              exact same (j + 1) (shift ▸ readonly)
            rw [writableOnly, writableOnly]
            cases writable : isWritable i with
            | true =>
                simp only [if_true, List.map_cons, List.sum_cons]
                omega
            | false =>
                obtain rfl : x = y := Option.some.inj (same 0 writable)
                simp only [Bool.false_eq_true, if_false, List.map_cons, List.sum_cons]
                omega
  have books := apart i a b length same
  omega

end Writable

/-! ## Stored accounts -/

section Storing

variable {α : Type} {accounts : List (Pubkey × Account)}

theorem rfind_eq_some {pred : α → Bool} {l between behind : List α} {back : α}
    (found : AccountsDb.rfind pred l = some (between, back, behind)) :
    l = between ++ back :: behind := by
  induction l generalizing between with
  | nil => cases found
  | cons a l ih =>
      unfold AccountsDb.rfind at found
      split at found
      · rename_i between' back' behind' later
        cases found
        rw [ih later]
        rfl
      · split at found <;> cases found
        rfl

theorem partition_perm (pred : α → Bool) (fuel : Nat) (l : List α) :
    (AccountsDb.partition pred fuel l).Perm l := by
  induction fuel generalizing l with
  | zero => exact .refl _
  | succ fuel ih =>
      cases l with
      | nil => exact .refl _
      | cons front rest =>
          unfold AccountsDb.partition
          split
          · exact (ih rest).cons front
          · split
            · exact .refl _
            · rename_i between back behind found
              rw [rfind_eq_some found]
              have swapped : (back :: (between ++ front :: behind)).Perm
                  (front :: (between ++ back :: behind)) :=
                (List.perm_middle.cons back).trans
                  ((List.Perm.swap ..).trans (List.perm_middle.symm.cons front))
              exact (((ih between).append_right _).cons back).trans swapped

/-- An account that is no sysvar leaves the sysvars alone. -/
theorem sysvarCache_of_plain {key : Pubkey} {account : Account} {result : Except LiteSvmError Unit}
    (added : db.addAccount rt key account = some (result, db')) (plain : sysvarAt key = none) :
    db'.sysvarCache = db.sysvarCache := by
  have checked : ∀ {result : Except LiteSvmError Unit} {mid : AccountsDb Program},
      db.checkAccount rt key account = some (result, mid) → mid.sysvarCache = db.sysvarCache := by
    intro result mid checked
    unfold AccountsDb.checkAccount at checked
    split at checked
    · split at checked
      · cases checked
      · split at checked <;> cases checked <;> rfl
    · unfold AccountsDb.maybeHandleSysvarAccount at checked
      simp only [plain] at checked
      cases checked
      rfl
  unfold AccountsDb.addAccount at added
  split at added
  · cases added
  · rename_i refused
    cases added
    exact checked refused
  · rename_i taken
    have same := checked taken
    cases added
    exact same

/-- **What is stored.** Each account is as it was, or as one that was stored for its key; the
sysvars are as they were, when none is stored. -/
theorem of_addAccounts (stored : db.addAccounts rt accounts = some (.ok (), db')) :
    (∀ key, (∃ account, (key, account) ∈ accounts ∧ db'.inner key = AccountsDb.shown account) ∨
        key ∉ accounts.map Prod.fst ∧ db'.inner key = db.inner key) ∧
      ((∀ key ∈ accounts.map Prod.fst, sysvarAt key = none) →
        db'.sysvarCache = db.sysvarCache) := by
  induction accounts generalizing db with
  | nil =>
      cases stored
      exact ⟨fun key => Or.inr ⟨List.not_mem_nil, rfl⟩, fun _ => rfl⟩
  | cons entry accounts ih =>
      rcases entry with ⟨address, acc⟩
      unfold AccountsDb.addAccounts at stored
      split at stored
      · cases stored
      · cases stored
      · rename_i mid added
        rcases ih stored with ⟨inner, cache⟩
        have first : mid.inner = Function.update db.inner address (AccountsDb.shown acc) := by
          rcases AccountsDb.inner_of_addAccount added with ⟨-, same⟩ | ⟨⟨e, refused⟩, -⟩
          · exact same
          · cases refused
        refine ⟨fun key => ?_, fun plain => ?_⟩
        · rcases inner key with ⟨account, member, same⟩ | ⟨absent, same⟩
          · exact Or.inl ⟨account, List.mem_cons_of_mem _ member, same⟩
          · rw [first] at same
            by_cases here : key = address
            · subst here
              exact Or.inl ⟨acc, List.mem_cons_self, same.trans (Function.update_self ..)⟩
            · refine Or.inr ⟨?_, same.trans (Function.update_of_ne here ..)⟩
              rw [List.map_cons, List.mem_cons, not_or]
              exact ⟨here, absent⟩
        · rw [List.map_cons, List.forall_mem_cons] at plain
          rw [cache plain.2, sysvarCache_of_plain added plain.1]

theorem of_syncAccounts (stored : db.syncAccounts rt accounts = some (.ok (), db')) :
    (∀ key, (∃ account, (key, account) ∈ accounts ∧ db'.inner key = AccountsDb.shown account) ∨
        key ∉ accounts.map Prod.fst ∧ db'.inner key = db.inner key) ∧
      ((∀ key ∈ accounts.map Prod.fst, sysvarAt key = none) →
        db'.sysvarCache = db.sysvarCache) := by
  have perm := partition_perm (AccountsDb.isProgramData ·.2) accounts.length accounts
  rcases of_addAccounts stored with ⟨inner, cache⟩
  refine ⟨fun key => ?_, fun plain => cache fun key member => ?_⟩
  · rcases inner key with ⟨account, member, same⟩ | ⟨absent, same⟩
    · exact Or.inl ⟨account, perm.mem_iff.mp member, same⟩
    · exact Or.inr ⟨fun member => absent ((perm.map _).mem_iff.mpr member), same⟩
  · exact plain key ((perm.map _).mem_iff.mp member)

end Storing

/-! ## Execution -/

/-- What LiteSVM relies on. -/
structure Engine.Lawful (engine : Engine Program Signature Hash Limits Trace) : Prop where
  /-- An instruction keeps the accounts of the transaction in their places, -/
  keys : ∀ {db stx limits index ix programIndex context result units context'},
    engine.instruction db stx limits index ix programIndex context = (result, units, context') →
      context'.accounts.map Prod.fst = context.accounts.map Prod.fst
  /-- and those as they are that are not writable. -/
  readonly : ∀ {db stx limits index ix programIndex context result units context'},
    engine.instruction db stx limits index ix programIndex context = (result, units, context') →
      ∀ j, engine.isWritable stx j = false → context'.accounts[j]? = context.accounts[j]?
  /-- One that succeeds keeps the sum of the lamports. -/
  balanced : ∀ {db stx limits index ix programIndex context units context'},
    engine.instruction db stx limits index ix programIndex context = (.ok (), units, context') →
      (context'.accounts.map (·.2.lamports.toNat)).sum =
        (context.accounts.map (·.2.lamports.toNat)).sum
  /-- Only accounts of the message are writable, -/
  inside : ∀ {stx j}, engine.isWritable stx j = true → j < stx.accountKeys.length
  /-- and the sysvars are reserved keys. -/
  reserved : ∀ {stx j key}, stx.accountKeys[j]? = some key → engine.isWritable stx j = true →
    sysvarAt key = none ∧ key ≠ instructionsSysvar
  /-- The locks of an account are taken once. -/
  locks : ∀ {stx}, engine.validateAccountLocks stx = .ok () → stx.accountKeys.Nodup

section Processing

variable {context context' : Context Trace} {rest : List (CompiledInstruction × Nat)}
  {index : Nat} {accumulated units : UInt64} {result : Except TransactionError Unit}

/-- **What a message keeps**, by the laws of its instructions. -/
theorem Engine.Lawful.processMessage (lawful : engine.Lawful)
    (ran : processMessage engine db stx limits index rest accumulated context =
      (result, units, context')) :
    context'.accounts.map Prod.fst = context.accounts.map Prod.fst ∧
      (∀ j, engine.isWritable stx j = false → context'.accounts[j]? = context.accounts[j]?) ∧
      (result = .ok () → (context'.accounts.map (·.2.lamports.toNat)).sum =
        (context.accounts.map (·.2.lamports.toNat)).sum) := by
  induction rest generalizing index accumulated context with
  | nil =>
      cases ran
      exact ⟨rfl, fun _ _ => rfl, fun _ => rfl⟩
  | cons first rest ih =>
      rcases first with ⟨ix, programIndex⟩
      unfold ArbBot.processMessage at ran
      rcases step : engine.instruction db stx limits index ix programIndex context with
        ⟨answer, consumed, mid⟩
      rw [step] at ran
      cases answer with
      | error err =>
          cases ran
          exact ⟨lawful.keys step, lawful.readonly step, by rintro ⟨⟩⟩
      | ok _ =>
          rcases ih ran with ⟨keys, readonly, balanced⟩
          exact ⟨keys.trans (lawful.keys step),
            fun j locked => (readonly j locked).trans (lawful.readonly step j locked),
            fun ok => (balanced ok).trans (lawful.balanced step)⟩

theorem of_programIndices {start : Nat} {instructions : List CompiledInstruction}
    {loaded accounts : List (Pubkey × Account)} {indices : List Nat}
    (resolved : programIndices db start instructions loaded = some (.ok (accounts, indices))) :
    ∃ owners, accounts = loaded ++ owners := by
  induction instructions generalizing loaded indices with
  | nil =>
      cases resolved
      exact ⟨[], (List.append_nil _).symm⟩
  | cons c instructions ih =>
      have later : ∀ (more : List (Pubkey × Account)),
          ((programIndices db start instructions (loaded ++ more)).map fun rest =>
            rest.map fun later => (later.1, c.programIdIndex.toNat :: later.2)) =
              some (.ok (accounts, indices)) →
          ∃ owners, accounts = loaded ++ owners := by
        intro more same
        rcases Option.map_eq_some_iff.mp same with ⟨_ | ⟨accounts', indices'⟩, rest, same⟩
        · cases same
        · cases same
          rcases ih rest with ⟨owners, rfl⟩
          exact ⟨more ++ owners, List.append_assoc ..⟩
      have same := later []
      rw [List.append_nil] at same
      unfold programIndices at resolved
      dsimp only at resolved
      repeat' split at resolved
      all_goals first | cases resolved | exact same resolved | exact later _ resolved

end Processing

/-! ## Loaded accounts -/

def AccountsDb.balance (db : AccountsDb Program) (key : Pubkey) : Nat :=
  ((db.inner key).map (·.lamports.toNat)).getD 0

section Loading

variable {keys : List Pubkey} {i : Nat} {payer payer' : Option Pubkey}
  {accounts : List (Pubkey × Account)} {key : Pubkey}

theorem keys_of_loadAccounts
    (loaded : loadAccounts engine db stx rent fee keys i payer = some (.ok (accounts, payer'))) :
    accounts.map Prod.fst = keys := by
  induction keys generalizing i payer accounts with
  | nil =>
      cases loaded
      rfl
  | cons key keys ih =>
      rcases loadAccounts_cons loaded with
        ⟨account, rest, -, ⟨-, -, charged, -, others, rfl⟩ | ⟨others, rfl⟩⟩
      · rw [List.map_cons, ih others]
      · rw [List.map_cons, ih others]

theorem balance_of_loadAccount {account : Account}
    (found : loadAccount engine db stx i key = some account) (other : key ≠ instructionsSysvar) :
    account.lamports.toNat = db.balance key := by
  unfold AccountsDb.balance
  by_cases funded : account.lamports = 0
  · unfold loadAccount at found
    rw [if_neg other] at found
    split at found
    · rw [found]
      rfl
    · cases held : db.inner key with
      | none =>
          rw [funded]
          rfl
      | some account' =>
          rw [held] at found
          cases found
          rfl
  · rw [inner_of_loadAccount found other funded]
    rfl

/-- What the payer pays, if it is one of the writable accounts. -/
def feeOf (isWritable : Nat → Bool) (keys : List Pubkey) (i : Nat) (fee : UInt64)
    (payer : Option Pubkey) : Nat :=
  if ∃ key ∈ payer, key ∈ writableOnly isWritable i keys then fee.toNat else 0

theorem feeOf_le {isWritable : Nat → Bool} {payer : Option Pubkey} :
    feeOf isWritable keys i fee payer ≤ fee.toNat := by
  unfold feeOf
  split
  · exact Nat.le_refl _
  · exact Nat.zero_le _

/-- The accounts that are loaded after the payer hold what the database holds of them. -/
theorem books_of_paid
    (plain : ∀ key ∈ writableOnly (engine.isWritable stx) i keys, key ≠ instructionsSysvar)
    (loaded : loadAccounts engine db stx rent fee keys i (some key) =
      some (.ok (accounts, payer'))) :
    ((writableOnly (engine.isWritable stx) i accounts).map (·.2.lamports.toNat)).sum =
      ((writableOnly (engine.isWritable stx) i keys).map db.balance).sum := by
  induction keys generalizing i accounts with
  | nil =>
      cases loaded
      rfl
  | cons first keys ih =>
      rcases loadAccounts_cons loaded with ⟨account, rest, found, ⟨-, none, -⟩ | ⟨others, rfl⟩⟩
      · cases none
      rw [writableOnly] at plain ⊢
      rw [writableOnly]
      split at plain
      · rename_i writable
        obtain ⟨other, plain⟩ := List.forall_mem_cons.mp plain
        rw [if_pos writable, if_pos writable, List.map_cons, List.map_cons, List.sum_cons,
          List.sum_cons, ih plain others, balance_of_loadAccount found other]
      · rename_i locked
        rw [if_neg locked, if_neg locked]
        exact ih plain others

/-- **The books of the loaded accounts.** The writable ones hold what the database holds of them,
without the fee if the payer is one of them. -/
theorem books_of_loadAccounts (distinct : keys.Nodup)
    (plain : ∀ key ∈ writableOnly (engine.isWritable stx) i keys, key ≠ instructionsSysvar)
    (loaded : loadAccounts engine db stx rent fee keys i none = some (.ok (accounts, payer'))) :
    ((writableOnly (engine.isWritable stx) i accounts).map (·.2.lamports.toNat)).sum +
        feeOf (engine.isWritable stx) keys i fee payer' =
      ((writableOnly (engine.isWritable stx) i keys).map db.balance).sum := by
  induction keys generalizing i accounts with
  | nil =>
      cases loaded
      simp [feeOf, writableOnly]
  | cons first keys ih =>
      obtain ⟨fresh, distinct⟩ := List.nodup_cons.mp distinct
      have plain' : ∀ key ∈ writableOnly (engine.isWritable stx) (i + 1) keys,
          key ≠ instructionsSysvar := by
        intro key member
        refine plain key ?_
        rw [writableOnly]
        split
        · exact List.mem_cons_of_mem _ member
        · exact member
      rcases loadAccounts_cons loaded with
        ⟨account, rest, found, ⟨other, -, charged, valid, others, rfl⟩ | ⟨others, rfl⟩⟩
      · -- the first account pays
        rcases of_validateFeePayer valid with ⟨funded, rfl, -, kind, -, enough⟩
        cases loadAccounts_some others
        have books := books_of_paid plain' others
        have held := balance_of_loadAccount found other
        have charged : (account.lamports - fee).toNat = account.lamports.toNat - fee.toNat :=
          UInt64.toNat_sub_of_le _ _ (UInt64.le_iff_toNat_le.mpr (by omega))
        have absent : first ∉ writableOnly (engine.isWritable stx) (i + 1) keys :=
          fun member => fresh ((writableOnly_sublist _ _).subset member)
        cases writable : engine.isWritable stx i with
        | true =>
            simp only [feeOf, writableOnly, writable, if_true, List.map_cons, List.sum_cons,
              Option.mem_def, Option.some.injEq, exists_eq_left', List.mem_cons, true_or, charged,
              books, held]
            omega
        | false =>
            simp only [feeOf, writableOnly, writable, Bool.false_eq_true, if_false,
              Option.mem_def, Option.some.injEq, exists_eq_left', absent, books, Nat.add_zero]
      · -- the payer is a later one
        have books := ih distinct plain' others
        have later : feeOf (engine.isWritable stx) (first :: keys) i fee payer' =
            feeOf (engine.isWritable stx) keys (i + 1) fee payer' := by
          unfold feeOf
          refine if_congr (exists_congr fun key => and_congr_right fun paid => ?_) rfl rfl
          cases paid
          have other : key ≠ first := by
            rintro rfl
            exact fresh (payer_mem others)
          rw [writableOnly]
          split
          · rw [List.mem_cons, or_iff_right other]
          · rfl
        rw [later, writableOnly, writableOnly]
        cases writable : engine.isWritable stx i with
        | true =>
            have other : first ≠ instructionsSysvar := by
              refine plain first ?_
              rw [writableOnly, if_pos writable]
              exact List.mem_cons_self
            simp only [if_true, List.map_cons, List.sum_cons, balance_of_loadAccount found other]
            omega
        | false =>
            simp only [Bool.false_eq_true, if_false]
            exact books

end Loading

/-! ## A transaction that succeeded -/

section Executed

variable {processed : Processed Trace} {context : Context Trace}

/-- What the rent check lets through. -/
theorem of_checkAccountsRent {i : Nat} {accounts : List (Pubkey × Account)}
    (checked : checkAccountsRent engine db stx rent i accounts = .ok ()) :
    ∀ entry ∈ writableOnly (engine.isWritable stx) i accounts, entry.1 ≠ incinerator →
      transitionAllowed (db.rentState rent entry.1)
        (getAccountRentState rent entry.2.lamports entry.2.data.length) = true := by
  induction accounts generalizing i with
  | nil => exact fun entry member => absurd member List.not_mem_nil
  | cons first accounts ih =>
      rcases first with ⟨pubkey, account⟩
      unfold checkAccountsRent at checked
      dsimp only at checked
      split at checked
      · cases checked
      rename_i passed
      rw [writableOnly]
      split
      · rename_i writable
        rw [if_pos writable] at passed
        refine List.forall_mem_cons.mpr ⟨fun other => ?_, ih checked⟩
        unfold checkRentStateWithAccount at passed
        split at passed
        · cases passed
        · rename_i allowed
          rw [not_and, Bool.not_eq_true', Bool.not_eq_false] at allowed
          exact allowed other
      · exact ih checked

/-- **What a transaction that succeeded stores**: the writable accounts of its message, each after
a transition of its rent that is allowed, and with the lamports that they held but the fee. -/
theorem Engine.Lawful.executed (lawful : engine.Lawful)
    (ran : processTransaction rt engine db stx limits = some processed)
    (readied : processed.context = some context) (ok : processed.result = .ok ()) :
    (writableOnly (engine.isWritable stx) 0 context.accounts).map Prod.fst =
        writableOnly (engine.isWritable stx) 0 stx.accountKeys ∧
      (∃ bytes, db.sysvarCache .rent = some bytes ∧
        ∀ entry ∈ writableOnly (engine.isWritable stx) 0 context.accounts,
          entry.1 ≠ incinerator →
          transitionAllowed (db.rentState (engine.rent bytes) entry.1)
            (getAccountRentState (engine.rent bytes) entry.2.lamports entry.2.data.length) =
              true) ∧
      (stx.accountKeys.Nodup →
        ((writableOnly (engine.isWritable stx) 0 context.accounts).map
            (·.2.lamports.toNat)).sum +
          feeOf (engine.isWritable stx) stx.accountKeys 0 processed.fee processed.payerKey =
            ((writableOnly (engine.isWritable stx) 0 stx.accountKeys).map db.balance).sum) := by
  rcases processTransaction_cases ran with ⟨none, -⟩ |
    ⟨bytes, loaded, payer, accounts, indices, cached, readied', resolved, rfl⟩
  · rw [none] at readied
    cases readied
  rcases of_programIndices resolved with ⟨owners, rfl⟩
  rcases message : ArbBot.processMessage engine db stx limits 0 (stx.instructions.zip indices) 0
    { accounts := loaded ++ owners, trace := engine.defaultTrace, logs := [] } with
    ⟨result, units, context'⟩
  rcases lawful.processMessage message with ⟨keys, readonly, balanced⟩
  dsimp only at keys readonly balanced
  simp only [processLoaded, message] at readied ok ⊢
  obtain rfl := Option.some.inj readied
  -- Behind the accounts of the message there are only owners of programs.
  have first := keys_of_loadAccounts readied'
  have length : loaded.length = stx.accountKeys.length := by rw [← first, List.length_map]
  have behind : ∀ {α : Type} (l : List α),
      writableOnly (engine.isWritable stx) stx.accountKeys.length l = [] := by
    intro α l
    refine writableOnly_eq_nil fun j outside => ?_
    rw [← Bool.not_eq_true]
    exact fun writable => absurd (lawful.inside writable) (Nat.not_lt.mpr outside)
  have own : ∀ {α : Type} (a b : List α), a.length = stx.accountKeys.length →
      writableOnly (engine.isWritable stx) 0 (a ++ b) =
        writableOnly (engine.isWritable stx) 0 a := by
    intro α a b length
    rw [writableOnly_append, Nat.zero_add, length, behind, List.append_nil]
  have size : context'.accounts.length = (loaded ++ owners).length := by
    rw [← List.length_map (f := Prod.fst), keys, List.length_map]
  have checkedAll : writableOnly (engine.isWritable stx) 0 context'.accounts =
      writableOnly (engine.isWritable stx) 0
        (context'.accounts.take stx.accountKeys.length) := by
    have short : (context'.accounts.take stx.accountKeys.length).length =
        stx.accountKeys.length := by
      rw [List.length_take, size, List.length_append]
      omega
    have whole := own _ (context'.accounts.drop stx.accountKeys.length) short
    rw [List.take_append_drop] at whole
    exact whole
  refine ⟨?_, ⟨bytes, cached, ?_⟩, fun distinct => ?_⟩
  · rw [map_writableOnly, keys, List.map_append, own _ _ (by rw [List.length_map, length]), first]
  · rw [checkedAll]
    split at ok
    · cases ok
    · rename_i checked
      exact of_checkAccountsRent checked
  · have ok' : result = .ok () := by
      split at ok
      · cases ok
      · exact ok
    have plain : ∀ key ∈ writableOnly (engine.isWritable stx) 0 stx.accountKeys,
        key ≠ instructionsSysvar := by
      intro key member
      rcases mem_writableOnly member with ⟨j, found, writable⟩
      rw [Nat.zero_add] at writable
      exact (lawful.reserved found writable).2
    rw [sum_writableOnly size (fun j locked => readonly j (Nat.zero_add j ▸ locked))
      (balanced ok'), own _ _ length]
    exact books_of_loadAccounts distinct plain readied'

end Executed

/-! ## What is kept -/

theorem transitionAllowed_refl (state : RentState) : transitionAllowed state state = true := by
  cases state with
  | rentPaying lamports size => simp [transitionAllowed]
  | uninitialized | rentExempt => rfl

/-- The transitions of two steps are one. -/
theorem transitionAllowed_trans {first mid last : RentState}
    (before : transitionAllowed first mid = true) (after : transitionAllowed mid last = true) :
    transitionAllowed first last = true := by
  cases last with
  | uninitialized | rentExempt => rfl
  | rentPaying lamports size =>
      cases mid with
      | uninitialized | rentExempt => cases after
      | rentPaying lamports' size' =>
          cases first with
          | uninitialized | rentExempt => cases before
          | rentPaying lamports'' size'' =>
              simp only [transitionAllowed, decide_eq_true_eq] at before after ⊢
              exact ⟨after.1.trans before.1, UInt64.le_trans after.2 before.2⟩

/-- An account without lamports is shown as none. -/
theorem rentState_of_shown {key : Pubkey} {account : Account}
    (stored : db.inner key = AccountsDb.shown account) :
    db.rentState rent key = getAccountRentState rent account.lamports account.data.length := by
  rw [AccountsDb.rentState, stored, AccountsDb.shown]
  by_cases empty : account.lamports = 0
  · rw [if_pos empty, getAccountRentState, if_pos empty]
  · rw [if_neg empty]

/-- What a sending keeps of the rent: the sysvar, and the discipline of every account. -/
structure KeepsRent (engine : Engine Program Signature Hash Limits Trace)
    (db db' : AccountsDb Program) : Prop where
  sysvar : db'.sysvarCache .rent = db.sysvarCache .rent
  allowed : ∀ bytes, db.sysvarCache .rent = some bytes → ∀ key, key ≠ incinerator →
    transitionAllowed (db.rentState (engine.rent bytes) key)
      (db'.rentState (engine.rent bytes) key) = true

theorem KeepsRent.refl (db : AccountsDb Program) : KeepsRent engine db db :=
  ⟨rfl, fun _ _ _ _ => transitionAllowed_refl _⟩

theorem KeepsRent.trans {db'' : AccountsDb Program} (first : KeepsRent engine db db')
    (second : KeepsRent engine db' db'') : KeepsRent engine db db'' where
  sysvar := second.sysvar.trans first.sysvar
  allowed bytes cached key other := transitionAllowed_trans (first.allowed bytes cached key other)
    (second.allowed bytes (first.sysvar.trans cached) key other)

theorem balance_of_shown {key : Pubkey} {account : Account}
    (stored : db.inner key = AccountsDb.shown account) :
    db.balance key = account.lamports.toNat := by
  rw [AccountsDb.balance, stored, AccountsDb.shown]
  by_cases empty : account.lamports = 0
  · rw [if_pos empty, empty]
    rfl
  · rw [if_neg empty]
    rfl

/-- A sum whose terms are overwritten for some keys. -/
theorem sum_overwritten {κ V : Type} [DecidableEq κ] {f f' : κ → Nat} {K : Finset κ}
    {weight : κ × V → Nat} {entries : List (κ × V)} (distinct : (entries.map Prod.fst).Nodup)
    (inside : ∀ key ∈ entries.map Prod.fst, key ∈ K)
    (written : ∀ entry ∈ entries, f' entry.1 = weight entry)
    (kept : ∀ key, key ∉ entries.map Prod.fst → f' key = f key) :
    ∑ key ∈ K, f' key + ((entries.map Prod.fst).map f).sum =
      ∑ key ∈ K, f key + (entries.map weight).sum := by
  have within : (entries.map Prod.fst).toFinset ⊆ K :=
    fun key member => inside key (List.mem_toFinset.mp member)
  have outside : ∑ key ∈ K \ (entries.map Prod.fst).toFinset, f' key =
      ∑ key ∈ K \ (entries.map Prod.fst).toFinset, f key := by
    refine Finset.sum_congr rfl fun key member => kept key fun listed => ?_
    exact (Finset.mem_sdiff.mp member).2 (List.mem_toFinset.mpr listed)
  have overwritten : ∑ key ∈ (entries.map Prod.fst).toFinset, f' key =
      (entries.map weight).sum := by
    rw [List.sum_toFinset _ distinct, List.map_map]
    exact congrArg List.sum (List.map_congr_left written)
  have replaced : ∑ key ∈ (entries.map Prod.fst).toFinset, f key =
      ((entries.map Prod.fst).map f).sum := List.sum_toFinset _ distinct
  rw [← Finset.sum_sdiff within, ← Finset.sum_sdiff within, outside, overwritten, replaced]
  omega

/-- The books of a database in which accounts are written. -/
theorem sum_balance (db db' : AccountsDb Program) (entries : List (Pubkey × Account))
    {K : Finset Pubkey}
    (distinct : (entries.map Prod.fst).Nodup) (inside : ∀ key ∈ entries.map Prod.fst, key ∈ K)
    (written : ∀ key,
      (∃ account, (key, account) ∈ entries ∧ db'.balance key = account.lamports.toNat) ∨
        key ∉ entries.map Prod.fst ∧ db'.balance key = db.balance key) :
    ∑ key ∈ K, db'.balance key + ((entries.map Prod.fst).map db.balance).sum =
      ∑ key ∈ K, db.balance key + (entries.map (·.2.lamports.toNat)).sum := by
  refine sum_overwritten distinct inside ?_ ?_
  · intro entry member
    rcases written entry.1 with ⟨account, listed, same⟩ | ⟨absent, -⟩
    · have one := List.inj_on_of_nodup_map distinct listed member rfl
      rw [same, ← one]
    · exact (absent (List.mem_map_of_mem member)).elim
  · intro key absent
    rcases written key with ⟨account, listed, -⟩ | ⟨-, same⟩
    · exact (absent (List.mem_map_of_mem listed)).elim
    · exact same

/-! ## Runs -/

section Runs

variable [DecidableEq Signature] [DecidableEq Hash]
  {svm svm' : LiteSvm Program Signature Hash Trace} {tx : VersionedTransaction}
  {outcome : TransactionResult Signature Trace}

/-- The transaction with what its processing returns, if it is processed. -/
def LiteSvm.processed (rt : Runtime Program Table)
    (engine : Engine Program Signature Hash Limits Trace)
    (svm : LiteSvm Program Signature Hash Trace) (tx : VersionedTransaction) :
    Option (SanitizedTransaction × Processed Trace) :=
  match svm.sanitize rt engine tx with
  | some (.ok stx) =>
      match svm.checkAndProcess rt engine stx with
      | some (.ok processed) => some (stx, processed)
      | _ => none
  | _ => none

/-- The lamports that leave the ledger: the fee, unless the transaction has no context, or has
succeeded and its payer is not writable. -/
def LiteSvm.burned (rt : Runtime Program Table)
    (engine : Engine Program Signature Hash Limits Trace)
    (svm : LiteSvm Program Signature Hash Trace) (tx : VersionedTransaction) : Nat :=
  match svm.processed rt engine tx with
  | none => 0
  | some (stx, processed) =>
      match processed.context, processed.result with
      | none, _ => 0
      | some _, .error _ => processed.fee.toNat
      | some _, .ok () =>
          feeOf (engine.isWritable stx) stx.accountKeys 0 processed.fee processed.payerKey

/-- The fee that a caller is told. -/
def feeReported : TransactionResult Signature Trace → UInt64
  | .error failed => failed.metadata.fee
  | .ok metadata => metadata.fee

/-- **What a sending amounts to.** It is refused without a context; or it stores the accounts of
a success or charges the payer of a failure, and goes into the history. -/
theorem sending_cases (sent : svm.sendTransaction rt engine tx = some (outcome, svm')) :
    (svm' = svm ∧ (∃ failed, outcome = .error failed) ∧
      ∀ stx processed, svm.processed rt engine tx = some (stx, processed) →
        processed.context = none) ∨
      ∃ stx processed context db, svm.sanitize rt engine tx = some (.ok stx) ∧
        svm.checkAndProcess rt engine stx = some (.ok processed) ∧
        processed.context = some context ∧
        svm' = { svm with
          accounts := db
          history := svm.history.addNewTransaction (engine.signature stx) outcome } ∧
        feeReported outcome = processed.fee ∧
        ((∃ err payer account i bytes, processed.result = .error err ∧
            payer ∈ stx.accountKeys ∧ svm.accounts.inner payer = some account ∧
            svm.accounts.sysvarCache .rent = some bytes ∧
            validateFeePayer engine payer account i (engine.rent bytes) processed.fee =
              .ok { account with lamports := account.lamports - processed.fee } ∧
            db = { svm.accounts with
              inner := Function.update svm.accounts.inner payer
                (some { account with lamports := account.lamports - processed.fee }) }) ∨
          processed.result = .ok () ∧
            svm.accounts.syncAccounts rt
              (writableOnly (engine.isWritable stx) 0 context.accounts) = some (.ok (), db)) := by
  unfold LiteSvm.sendTransaction at sent
  unfold LiteSvm.processed
  cases sanitized : svm.sanitize rt engine tx with
  | none =>
      rw [sanitized] at sent
      cases sent
  | some answer =>
      rw [sanitized] at sent
      cases answer with
      | error e =>
          cases sent
          exact Or.inl ⟨rfl, ⟨_, rfl⟩, fun _ _ nothing => by cases nothing⟩
      | ok stx =>
          dsimp only at sent ⊢
          rcases execute_cases svm stx with ⟨checked, executed⟩ | ⟨e, checked, executed⟩ |
            ⟨processed, checked, ⟨none, ⟨err, failed⟩, executed⟩ |
              ⟨context, readied, ⟨ok, executed⟩ |
                ⟨err, payer, account, i, bytes, failed, member, held, cached, valid, executed⟩⟩⟩
          · rw [executed] at sent
            cases sent
          · rw [executed] at sent
            cases sent
            rw [checked]
            exact Or.inl ⟨rfl, ⟨_, rfl⟩, fun _ _ nothing => by cases nothing⟩
          · simp only [executed, unexecuted, failed] at sent
            cases sent
            rw [checked]
            refine Or.inl ⟨rfl, ⟨_, rfl⟩, fun _ _ same => ?_⟩
            cases same
            exact none
          · simp only [executed, executionResult, ok] at sent
            split at sent
            · rename_i db stored
              cases sent
              exact Or.inr ⟨stx, processed, context, db, rfl, checked, readied, rfl, rfl,
                Or.inr ⟨ok, stored⟩⟩
            · cases sent
          · simp only [executed, executionResult, failed] at sent
            cases sent
            exact Or.inr ⟨stx, processed, context, _, rfl, checked, readied, rfl, rfl,
              Or.inl ⟨err, payer, account, i, bytes, failed, member, held, cached, valid, rfl⟩⟩

theorem processed_of_checked {stx : SanitizedTransaction} {processed : Processed Trace}
    (sanitized : svm.sanitize rt engine tx = some (.ok stx))
    (checked : svm.checkAndProcess rt engine stx = some (.ok processed)) :
    svm.processed rt engine tx = some (stx, processed) := by
  simp only [LiteSvm.processed, sanitized, checked]

/-- What a sending does to the accounts: nothing, the fee of a transaction that failed, or the
accounts of one that succeeded. -/
theorem sendTransaction_cases
    (sent : svm.sendTransaction rt engine tx = some (outcome, svm')) :
    svm'.sigverify = svm.sigverify ∧ svm.burned rt engine tx ≤ (feeReported outcome).toNat ∧
      ((svm'.accounts = svm.accounts ∧ svm.burned rt engine tx = 0) ∨
        ∃ stx processed context, svm.processed rt engine tx = some (stx, processed) ∧
          processed.context = some context ∧
          ((∃ err payer account i bytes, processed.result = .error err ∧
              payer ∈ stx.accountKeys ∧ svm.accounts.inner payer = some account ∧
              svm.accounts.sysvarCache .rent = some bytes ∧
              validateFeePayer engine payer account i (engine.rent bytes) processed.fee =
                .ok { account with lamports := account.lamports - processed.fee } ∧
              svm'.accounts = { svm.accounts with
                inner := Function.update svm.accounts.inner payer
                  (some { account with lamports := account.lamports - processed.fee }) }) ∨
            (∃ limits, processTransaction rt engine svm.accounts stx limits = some processed) ∧
              processed.result = .ok () ∧
              svm.accounts.syncAccounts rt
                (writableOnly (engine.isWritable stx) 0 context.accounts) =
                  some (.ok (), svm'.accounts))) := by
  rcases sending_cases sent with ⟨rfl, -, none⟩ |
    ⟨stx, processed, context, db, sanitized, checked, readied, rfl, fee, ended⟩
  · have unburned : svm'.burned rt engine tx = 0 := by
      unfold LiteSvm.burned
      cases ran : svm'.processed rt engine tx with
      | none => rfl
      | some pair =>
          rcases pair with ⟨stx, processed⟩
          simp only [none stx processed ran]
    exact ⟨rfl, unburned ▸ Nat.zero_le _, Or.inl ⟨rfl, unburned⟩⟩
  · have ran := processed_of_checked sanitized checked
    refine ⟨rfl, ?_, Or.inr ⟨stx, processed, context, ran, readied, ?_⟩⟩
    · rw [fee, LiteSvm.burned, ran]
      rcases ended with ⟨err, payer, account, i, bytes, failed, -⟩ | ⟨ok, -⟩
      · simp only [readied, failed]
        exact Nat.le_refl _
      · simp only [readied, ok]
        exact feeOf_le
    · rcases ended with charged | ⟨ok, stored⟩
      · exact Or.inl charged
      · exact Or.inr ⟨processTransaction_of_checked checked, ok, stored⟩

theorem Engine.Lawful.keepsRent (lawful : engine.Lawful)
    (sent : svm.sendTransaction rt engine tx = some (outcome, svm')) :
    KeepsRent engine svm.accounts svm'.accounts := by
  rcases (sendTransaction_cases sent).2.2 with ⟨same, -⟩ |
    ⟨stx, processed, context, -, readied,
      ⟨err, payer, account, i, bytes, -, -, held, cached, valid, same⟩ |
        ⟨⟨limits, ran⟩, ok, stored⟩⟩
  · rw [same]
    exact .refl _
  · -- the payer was checked with the fee
    rw [same]
    refine ⟨rfl, fun bytes' cached' key other => ?_⟩
    obtain rfl := Option.some.inj (cached.symm.trans cached')
    by_cases paid : key = payer
    · subst paid
      have checked := (of_validateFeePayer valid).2.2.1
      unfold checkRentStateWithAccount at checked
      split at checked
      · cases checked
      rename_i allowed
      rw [not_and, Bool.not_eq_true', Bool.not_eq_false] at allowed
      simp only [AccountsDb.rentState, held, Function.update_self]
      exact allowed other
    · simp only [AccountsDb.rentState, Function.update_of_ne paid]
      exact transitionAllowed_refl _
  · rcases lawful.executed ran readied ok with ⟨keys, ⟨bytes, cached, checked⟩, -⟩
    rcases of_syncAccounts stored with ⟨inner, cache⟩
    have sysvars : svm'.accounts.sysvarCache = svm.accounts.sysvarCache := by
      refine cache fun key member => ?_
      rw [keys] at member
      rcases mem_writableOnly member with ⟨j, found, writable⟩
      rw [Nat.zero_add] at writable
      exact (lawful.reserved found writable).1
    refine ⟨by rw [sysvars], fun bytes' cached' key other => ?_⟩
    obtain rfl := Option.some.inj (cached.symm.trans cached')
    rcases inner key with ⟨account, member, same⟩ | ⟨-, same⟩
    · rw [rentState_of_shown same]
      exact checked (key, account) member other
    · rw [AccountsDb.rentState, AccountsDb.rentState, same]
      exact transitionAllowed_refl _

/-- The transaction names no account twice. With the signatures LiteSVM checks the locks. -/
def NamesOnce (rt : Runtime Program Table) (engine : Engine Program Signature Hash Limits Trace)
    (svm : LiteSvm Program Signature Hash Trace) (tx : VersionedTransaction) : Prop :=
  ∀ stx, svm.sanitize rt engine tx = some (.ok stx) → stx.accountKeys.Nodup

omit [DecidableEq Signature] [DecidableEq Hash] in
theorem Engine.Lawful.namesOnce (lawful : engine.Lawful) (verified : svm.sigverify = true)
    (tx : VersionedTransaction) : NamesOnce rt engine svm tx := by
  intro stx sanitized
  rw [LiteSvm.sanitize, if_pos verified] at sanitized
  rcases Option.map_eq_some_iff.mp sanitized with ⟨answer, -, checked⟩
  rcases exists_of_bind_eq_ok checked with ⟨stx', -, checked⟩
  rcases exists_of_bind_eq_ok checked with ⟨_, -, checked⟩
  rcases exists_of_bind_eq_ok checked with ⟨_, locks, checked⟩
  cases checked
  exact lawful.locks locks

theorem sanitize_of_processed {processed : Processed Trace}
    (found : svm.processed rt engine tx = some (stx, processed)) :
    svm.sanitize rt engine tx = some (.ok stx) := by
  unfold LiteSvm.processed at found
  split at found
  · rename_i stx' sanitized
    split at found <;> cases found
    exact sanitized
  · cases found

/-- **The books of a sending.** -/
theorem Engine.Lawful.books (lawful : engine.Lawful) {K : Finset Pubkey}
    (sent : svm.sendTransaction rt engine tx = some (outcome, svm'))
    (once : NamesOnce rt engine svm tx)
    (inside : ∀ stx, svm.sanitize rt engine tx = some (.ok stx) →
      ∀ key ∈ stx.accountKeys, key ∈ K) :
    ∑ key ∈ K, svm'.accounts.balance key + svm.burned rt engine tx =
      ∑ key ∈ K, svm.accounts.balance key := by
  rcases (sendTransaction_cases sent).2.2 with ⟨same, none⟩ |
    ⟨stx, processed, context, found, readied,
      ⟨err, payer, account, i, bytes, failed, member, held, -, valid, same⟩ |
        ⟨⟨limits, ran⟩, ok, stored⟩⟩
  · rw [same, none, Nat.add_zero]
  · have burned : svm.burned rt engine tx = processed.fee.toNat := by
      simp only [LiteSvm.burned, found, readied, failed]
    rcases of_validateFeePayer valid with ⟨-, -, -, kind, -, enough⟩
    have charged : (account.lamports - processed.fee).toNat =
        account.lamports.toNat - processed.fee.toNat :=
      UInt64.toNat_sub_of_le _ _ (UInt64.le_iff_toNat_le.mpr (by omega))
    have before : svm.accounts.balance payer = account.lamports.toNat := by
      rw [AccountsDb.balance, held]
      rfl
    have written : ∀ key,
        (∃ charged, (key, charged) ∈
            [(payer, { account with lamports := account.lamports - processed.fee })] ∧
          svm'.accounts.balance key = charged.lamports.toNat) ∨
        key ∉ [payer] ∧ svm'.accounts.balance key = svm.accounts.balance key := by
      intro key
      rw [same]
      by_cases paid : key = payer
      · subst paid
        refine Or.inl ⟨_, List.mem_singleton_self _, ?_⟩
        simp only [AccountsDb.balance, Function.update_self]
        rfl
      · refine Or.inr ⟨fun member => paid (List.mem_singleton.mp member), ?_⟩
        simp only [AccountsDb.balance, Function.update_of_ne paid]
    have books := sum_balance svm.accounts svm'.accounts
      [(payer, { account with lamports := account.lamports - processed.fee })]
      (List.nodup_singleton payer)
      (List.forall_mem_singleton.mpr (inside stx (sanitize_of_processed found) payer member))
      written
    simp only [List.map_cons, List.map_nil, List.sum_cons, List.sum_nil, before, charged] at books
    omega
  · have burned : svm.burned rt engine tx =
        feeOf (engine.isWritable stx) stx.accountKeys 0 processed.fee processed.payerKey := by
      simp only [LiteSvm.burned, found, readied, ok]
    have sanitized := sanitize_of_processed found
    rcases lawful.executed ran readied ok with ⟨keys, -, sums⟩
    have distinct : ((writableOnly (engine.isWritable stx) 0 context.accounts).map
        Prod.fst).Nodup := by
      rw [keys]
      exact (once stx sanitized).sublist (writableOnly_sublist 0 _)
    have books := sum_balance svm.accounts svm'.accounts _ distinct
      (fun key listed => by
        rw [keys] at listed
        exact inside stx sanitized key ((writableOnly_sublist 0 _).subset listed))
      (fun key => by
        rcases (of_syncAccounts stored).1 key with ⟨account, listed, same⟩ | ⟨absent, same⟩
        · exact Or.inl ⟨account, listed, balance_of_shown same⟩
        · exact Or.inr ⟨absent, by rw [AccountsDb.balance, AccountsDb.balance, same]⟩)
    rw [keys, ← sums (once stx sanitized), ← burned] at books
    omega

end Runs

/-! ## A transfer -/

/-- The system program's transfer from the first account to the second one. -/
def transferInstruction (isWritable : Nat → Bool) (instruction : CompiledInstruction)
    (context : Context Unit) : Except String Unit × UInt64 × Context Unit :=
  let lamports := fromLe64 (instruction.data.drop 4)
  match context.accounts with
  | (payer, paying) :: (receiver, receiving) :: rest =>
      if instruction.accounts = [0, 1] ∧ instruction.data.take 4 = [2, 0, 0, 0] ∧
          isWritable 0 ∧ isWritable 1 ∧ lamports ≤ paying.lamports ∧
          receiving.lamports.toNat + lamports.toNat < 2 ^ 64 then
        (.ok (), 150, { context with
          accounts := (payer, { paying with lamports := paying.lamports - lamports }) ::
            (receiver, { receiving with lamports := receiving.lamports + lamports }) :: rest })
      else (.error "Custom(1)", 150, context)
  | _ => (.error "NotEnoughAccountKeys", 150, context)

def transferHash : Pubkey := ⟨List.replicate 32 31, rfl⟩

/-- One signer, who pays, and one other writable account. -/
def transferWritable (stx : SanitizedTransaction) (i : Nat) : Bool :=
  i < 2 ∧ (stx.accountKeys[i]?).any fun key => sysvarAt key = none ∧ key ≠ instructionsSysvar

def transferEngine : Engine Unit (List UInt8) Pubkey Unit Unit where
  rent _ := { minimumBalance := fun size => UInt64.ofNat ((size + 128) * 6960) }
  isWritable := transferWritable
  instructionsData _ := []
  systemAccountKind account :=
    if account.owner = systemProgram ∧ account.data = [] then some .system else none
  nonceSize := 80
  verify _ := .ok ()
  validateAccountLocks stx :=
    if stx.accountKeys.Nodup then .ok () else .error (.other "AccountLoadedTwice")
  signature _ := List.replicate 64 9
  recentBlockhash _ := transferHash
  durableNonce _ := none
  nonceFromBlockhash _ := ⟨List.replicate 32 32, rfl⟩
  verifyNonceAccount _ _ := none
  nonceSigners _ := []
  computeBudgetLimits _ := .ok ()
  fee _ _ := 5000
  instruction _ stx _ _ instruction _ := transferInstruction (transferWritable stx) instruction
  defaultSignature := List.replicate 64 0
  defaultTrace := ()

theorem of_transferInstruction {isWritable : Nat → Bool} {instruction : CompiledInstruction}
    {context context' : Context Unit} {result : Except String Unit} {units : UInt64}
    (ran : transferInstruction isWritable instruction context = (result, units, context')) :
    context'.accounts.map Prod.fst = context.accounts.map Prod.fst ∧
      (∀ j, isWritable j = false → context'.accounts[j]? = context.accounts[j]?) ∧
      (context'.accounts.map (·.2.lamports.toNat)).sum =
        (context.accounts.map (·.2.lamports.toNat)).sum := by
  unfold transferInstruction at ran
  dsimp only at ran
  split at ran
  · rename_i payer paying receiver receiving rest held
    split at ran
    · rename_i moved
      rcases moved with ⟨-, -, writable, writable', funded, fits⟩
      cases ran
      have taken : (paying.lamports - fromLe64 (instruction.data.drop 4)).toNat =
          paying.lamports.toNat - (fromLe64 (instruction.data.drop 4)).toNat :=
        UInt64.toNat_sub_of_le _ _ funded
      have given : (receiving.lamports + fromLe64 (instruction.data.drop 4)).toNat =
          receiving.lamports.toNat + (fromLe64 (instruction.data.drop 4)).toNat := by
        rw [UInt64.toNat_add, Nat.mod_eq_of_lt fits]
      rw [UInt64.le_iff_toNat_le] at funded
      refine ⟨by rw [held]; rfl, fun j locked => ?_, ?_⟩
      · rw [held]
        match j with
        | 0 => exact absurd (writable.symm.trans locked) (by decide)
        | 1 => exact absurd (writable'.symm.trans locked) (by decide)
        | _ + 2 => rfl
      · simp only [held, List.map_cons, List.sum_cons, taken, given]
        omega
    · cases ran
      exact ⟨rfl, fun _ _ => rfl, rfl⟩
  · cases ran
    exact ⟨rfl, fun _ _ => rfl, rfl⟩

theorem lawful_transferEngine : transferEngine.Lawful where
  keys {_ stx _ _ ix _ context _ _ _} ran :=
    (@of_transferInstruction (transferWritable stx) ix context _ _ _ ran).1
  readonly {_ stx _ _ ix _ context _ _ _} ran :=
    (@of_transferInstruction (transferWritable stx) ix context _ _ _ ran).2.1
  balanced {_ stx _ _ ix _ context _ _} ran :=
    (@of_transferInstruction (transferWritable stx) ix context _ _ _ ran).2.2
  inside := by
    intro stx j writable
    simp only [transferEngine, transferWritable, decide_eq_true_eq] at writable
    by_contra outside
    rw [List.getElem?_eq_none (Nat.not_lt.mp outside)] at writable
    exact absurd writable.2 (by decide)
  reserved := by
    intro stx j key found writable
    simp only [transferEngine, transferWritable, decide_eq_true_eq, found, Option.any_some]
      at writable
    exact writable.2
  locks := by
    intro stx locked
    simp only [transferEngine] at locked
    split at locked
    · assumption
    · cases locked

def transferAccount (lamports : UInt64) : Account where
  lamports := lamports
  data := []
  owner := systemProgram
  executable := false
  rentEpoch := 0

def rentAccount : Account where
  lamports := 1009200
  data := le64 3480 ++ [0, 0, 0, 0, 0, 0, 0, 64, 50]
  owner := sysvarProgram
  executable := false
  rentEpoch := 0

/-- The payer pays rent. -/
def transferSvm : LiteSvm Unit (List UInt8) Pubkey Unit where
  accounts := {
    inner := fun key =>
      if key = payerKey then some (transferAccount 800000)
      else if key = mintKey then some (transferAccount 1000000)
      else if key = systemProgram then
        some { transferAccount 1 with owner := nativeLoader, executable := true }
      else if key = Sysvar.rent.id then some rentAccount
      else none
    programsCache := fun key => if key = systemProgram then some () else none
    programsSlot := 0
    sysvarCache := fun sysvar => if sysvar = .rent then some rentAccount.data else none }
  latestBlockhash := transferHash
  history := { entries := [], capacity := 32 }
  sigverify := true
  blockhashCheck := true

def transferRuntime : Runtime Unit Unit :=
  { bareRuntime with decodesSysvar := fun sysvar data => sysvar = .rent ∧ data.length = 17 }

def transferTx : VersionedTransaction where
  message := .legacy [payerKey, mintKey, systemProgram]
    [{ programIdIndex := 2, accounts := [0, 1], data := [2, 0, 0, 0] ++ le64 100000 }]

theorem sent_transferTx : ∃ outcome svm',
    transferSvm.sendTransaction transferRuntime transferEngine transferTx =
      some (outcome, svm') ∧
    svm'.accounts.rentState (transferEngine.rent rentAccount.data) payerKey =
      .rentPaying 695000 0 := by
  have ran : ((transferSvm.sendTransaction transferRuntime transferEngine transferTx).any
      fun sending => sending.2.accounts.rentState (transferEngine.rent rentAccount.data) payerKey =
        .rentPaying 695000 0) = true := by
    decide +kernel
  cases sent : transferSvm.sendTransaction transferRuntime transferEngine transferTx with
  | none =>
      rw [sent] at ran
      cases ran
  | some sending =>
      rw [sent, Option.any_some, decide_eq_true_eq] at ran
      exact ⟨sending.1, sending.2, rfl, ran⟩

/-! ## The ledger of a run -/

section Ledger

variable [DecidableEq Signature] [DecidableEq Hash]
  {svm svm' : LiteSvm Program Signature Hash Trace}

/-- Sendings one after the other, with what they return. -/
def ledgerMachine (rt : Runtime Program Table)
    (engine : Engine Program Signature Hash Limits Trace) :
    Machine (LiteSvm Program Signature Hash Trace)
      (VersionedTransaction × TransactionResult Signature Trace) where
  start _ := True
  step svm sending svm' := svm.sendTransaction rt engine sending.1 = some (sending.2, svm')

variable {steps : List (Machine.Entry (LiteSvm Program Signature Hash Trace)
  (VersionedTransaction × TransactionResult Signature Trace))}

theorem sigverify_of_trace (trace : (ledgerMachine rt engine).Trace svm steps svm') :
    svm'.sigverify = svm.sigverify := by
  induction trace with
  | nil => rfl
  | snoc _ sent ih => exact (sendTransaction_cases sent).1.trans ih

/-- **Rent over a run.** Whatever transactions are sent, an account that pays rent in the end did
so in the beginning, with the same size and at least the lamports it has now: none starts to pay
rent, and none that does is resized or credited, unless it is exempt after that. The sysvar
itself stays. Only the incinerator is left out. -/
theorem rent_discipline (lawful : engine.Lawful) {bytes : List UInt8} {key : Pubkey}
    (trace : (ledgerMachine rt engine).Trace svm steps svm')
    (cached : svm.accounts.sysvarCache .rent = some bytes) (other : key ≠ incinerator) :
    svm'.accounts.sysvarCache .rent = some bytes ∧
      ∀ lamports size,
        svm'.accounts.rentState (engine.rent bytes) key = .rentPaying lamports size →
        ∃ lamports', lamports ≤ lamports' ∧
          svm.accounts.rentState (engine.rent bytes) key = .rentPaying lamports' size := by
  have kept : KeepsRent engine svm.accounts svm'.accounts := by
    induction trace with
    | nil => exact .refl _
    | snoc _ sent ih => exact ih.trans (lawful.keepsRent sent)
  refine ⟨kept.sysvar.trans cached, fun lamports size pays => ?_⟩
  have allowed := kept.allowed bytes cached key other
  rw [pays] at allowed
  cases before : svm.accounts.rentState (engine.rent bytes) key with
  | uninitialized | rentExempt =>
      rw [before] at allowed
      cases allowed
  | rentPaying lamports' size' =>
      rw [before] at allowed
      simp only [transitionAllowed, decide_eq_true_eq] at allowed
      exact ⟨lamports', allowed.2, allowed.1 ▸ rfl⟩

/-- The payer still pays rent after the transfer, and did so before it. -/
theorem rent_discipline_transfer : ∃ lamports', 695000 ≤ lamports' ∧
    transferSvm.accounts.rentState (transferEngine.rent rentAccount.data) payerKey =
      .rentPaying lamports' 0 := by
  rcases sent_transferTx with ⟨outcome, svm', sent, pays⟩
  have trace := Machine.Trace.snoc (.nil transferSvm) (i := (transferTx, outcome))
    (M := ledgerMachine transferRuntime transferEngine) sent
  exact (rent_discipline lawful_transferEngine trace rfl (by decide)).2 695000 0 pays

/-- **Lamports over a run.** Whatever transactions are sent, the accounts they name hold together
what they held before, without the fees that were taken, none of which is above the fee that its
caller was told. Where LiteSVM checks no signatures it checks no locks either: there the
transactions have to name each account once. -/
theorem lamports_conserved (lawful : engine.Lawful) {K : Finset Pubkey}
    (trace : (ledgerMachine rt engine).Trace svm steps svm')
    (once : svm.sigverify = true ∨
      ∀ entry ∈ steps, NamesOnce rt engine entry.before entry.label.1)
    (inside : ∀ entry ∈ steps, ∀ stx,
      entry.before.sanitize rt engine entry.label.1 = some (.ok stx) →
      ∀ key ∈ stx.accountKeys, key ∈ K) :
    ∑ key ∈ K, svm'.accounts.balance key +
        (steps.map fun entry => entry.before.burned rt engine entry.label.1).sum =
      ∑ key ∈ K, svm.accounts.balance key ∧
    ∀ entry ∈ steps, entry.before.burned rt engine entry.label.1 ≤
      (feeReported entry.label.2).toNat := by
  induction trace with
  | nil => exact ⟨rfl, fun _ member => absurd member List.not_mem_nil⟩
  | @snoc mid last sending steps earlier sent ih =>
      obtain ⟨inside, insideLast⟩ := List.forall_mem_append.mp inside
      have onceLast : NamesOnce rt engine mid sending.1 := by
        rcases once with verified | once
        · exact lawful.namesOnce ((sigverify_of_trace earlier).trans verified) _
        · exact (List.forall_mem_append.mp once).2 _ (List.mem_singleton_self _)
      rcases ih (once.imp_right fun once => (List.forall_mem_append.mp once).1) inside with
        ⟨books, told⟩
      have booksLast := lawful.books sent onceLast (insideLast _ (List.mem_singleton_self _))
      refine ⟨?_, List.forall_mem_append.mpr ⟨told,
        List.forall_mem_singleton.mpr (sendTransaction_cases sent).2.1⟩⟩
      rw [List.map_append, List.sum_append, List.map_singleton, List.sum_singleton,
        ← Nat.add_assoc, Nat.add_right_comm, booksLast]
      exact books

/-- The payer pays a fee of 5000, and the rest stays where it was. -/
theorem lamports_conserved_transfer : ∃ outcome svm',
    transferSvm.sendTransaction transferRuntime transferEngine transferTx =
      some (outcome, svm') ∧
    ∑ key ∈ {payerKey, mintKey, systemProgram}, svm'.accounts.balance key + 5000 = 1800001 := by
  rcases sent_transferTx with ⟨outcome, svm', sent, -⟩
  have trace := Machine.Trace.snoc (.nil transferSvm) (i := (transferTx, outcome))
    (M := ledgerMachine transferRuntime transferEngine) sent
  have sanitized : transferSvm.sanitize transferRuntime transferEngine transferTx =
      some (.ok { tx := transferTx, loaded := { writable := [], readonly := [] } }) := by
    decide +kernel
  have books := (lamports_conserved (K := {payerKey, mintKey, systemProgram})
    lawful_transferEngine trace (Or.inl rfl)
    (List.forall_mem_singleton.mpr fun stx same key member => by
      cases sanitized.symm.trans same
      revert member key
      decide)).1
  have burned : transferSvm.burned transferRuntime transferEngine transferTx = 5000 := by
    decide +kernel
  have before : ∑ key ∈ {payerKey, mintKey, systemProgram}, transferSvm.accounts.balance key =
      1800001 := by
    decide +kernel
  rw [List.nil_append, List.map_singleton, List.sum_singleton, burned, before] at books
  exact ⟨outcome, svm', sent, books⟩

end Ledger

end ArbBot
