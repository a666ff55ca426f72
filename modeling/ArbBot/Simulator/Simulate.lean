import ArbBot.Simulator.Svm
import Mathlib.Data.List.Destutter

/-!
# One simulation

`simulate` collects the accounts of a transaction, fetches those the cache lacks, warps the
SVM to the live slot and sets the cached accounts in it: first the lookup tables, then the
collected accounts. `prepare` is the part under the mutex up to `simulate_transaction`. Its
second value is the history of the `set_account` calls that succeeded.
-/

namespace ArbBot

open Foundation Sdk

/-! ## The accounts of a transaction -/

/-- What a lookup draws from the first table with its key. -/
def resolvedBy (alts : List AddressLookupTableAccount) (lookup : MessageAddressTableLookup) :
    List Pubkey :=
  match alts.find? (·.key = lookup.accountKey) with
  | none => []
  | some alt =>
      lookup.writableIndexes.filterMap (fun idx => alt.addresses[idx.toNat]?) ++
        lookup.readonlyIndexes.filterMap fun idx => alt.addresses[idx.toNat]?

/-- `sort_unstable` and `dedup`. -/
def sortDedup (keys : List Pubkey) : List Pubkey :=
  (keys.mergeSort fun a b => a.bytes ≤ b.bytes).destutter (· ≠ ·)

def collectTxAccounts (tx : VersionedTransaction) (alts : List AddressLookupTableAccount) :
    List Pubkey :=
  sortDedup (tx.message.staticAccountKeys ++
    tx.message.addressTableLookups.flatMap (resolvedBy alts))

theorem mem_destutter' {α : Type*} [DecidableEq α] {x a : α} {l : List α} :
    x ∈ l.destutter' (· ≠ ·) a ↔ x = a ∨ x ∈ l := by
  induction l generalizing a with
  | nil => simp
  | cons b l ih =>
      by_cases same : a = b
      · subst same
        rw [List.destutter'_cons_neg (h := fun differs => differs rfl), ih, List.mem_cons]
        tauto
      · rw [List.destutter'_cons_pos (h := same), List.mem_cons, ih, List.mem_cons]

theorem mem_sortDedup {key : Pubkey} {keys : List Pubkey} : key ∈ sortDedup keys ↔ key ∈ keys := by
  have sorted : key ∈ keys.mergeSort (fun a b => a.bytes ≤ b.bytes) ↔ key ∈ keys :=
    List.mem_mergeSort
  rw [sortDedup, ← sorted]
  cases keys.mergeSort fun a b => a.bytes ≤ b.bytes with
  | nil => rfl
  | cons a l => rw [List.destutter_cons', mem_destutter', List.mem_cons]

theorem sortDedup_of_sorted {keys : List Pubkey}
    (sorted : keys.Pairwise fun a b => a.bytes < b.bytes) : sortDedup keys = keys := by
  have ordered : keys.Pairwise fun a b => decide (a.bytes ≤ b.bytes) = true :=
    sorted.imp fun below => decide_eq_true (List.le_of_lt below)
  rw [sortDedup, List.mergeSort_of_pairwise ordered]
  apply List.destutter_of_isChain
  apply List.Pairwise.isChain
  refine sorted.imp ?_
  intro a b below same
  exact List.lt_irrefl _ (same ▸ below)

/-! ## Fetch and injection -/

/-- Fetches what the cache lacks; an error is logged. -/
def lazyFetch (showPubkey : Pubkey → String) (getAccount : Pubkey → Except String Account)
    (cache : AccountCache) (accounts : List Pubkey) : AccountCache :=
  accounts.foldl (fun cache pk =>
    if (cache.get pk).isNone then (cache.getOrFetch showPubkey pk getAccount).2 else cache) cache

variable {Program Table : Type}

/-- Sets the accounts that are held for the keys, one after the other; an error is logged. -/
def inject (rt : Runtime Program Table) (held : Pubkey → Option Account)
    (db : AccountsDb Program) :
    List Pubkey → Option (AccountsDb Program × List (Pubkey × Account))
  | [] => some (db, [])
  | key :: keys =>
      match held key with
      | none => inject rt held db keys
      | some account =>
          match db.setAccount rt key account with
          | none => none
          | some (.error _, db) => inject rt held db keys
          | some (.ok (), db) =>
              (inject rt held db keys).map fun later => (later.1, (key, account) :: later.2)

/-- The raw lookup tables that the cache holds. -/
def injectAlts (rt : Runtime Program Table) (cache : AccountCache)
    (alts : List AddressLookupTableAccount) (db : AccountsDb Program) :
    Option (AccountsDb Program × List (Pubkey × Account)) :=
  inject rt cache.get db (alts.map AddressLookupTableAccount.key)

/-- The collected accounts that the cache holds and that are not executable. -/
def injectAccounts (rt : Runtime Program Table) (cache : AccountCache) (accounts : List Pubkey)
    (db : AccountsDb Program) : Option (AccountsDb Program × List (Pubkey × Account)) :=
  inject rt (fun pk => (cache.get pk).filter fun acct => !acct.executable) db accounts

/-- The SVM as `simulate_transaction` finds it. -/
def prepare (rt : Runtime Program Table) (svm : AccountsDb Program) (liveSlot : UInt64)
    (cache : AccountCache) (alts : List AddressLookupTableAccount) (accounts : List Pubkey) :
    Option (AccountsDb Program × List (Pubkey × Account)) :=
  match svm.warpToSlot rt liveSlot with
  | none => none
  | some svm =>
      match injectAlts rt cache alts svm with
      | none => none
      | some (svm, tables) =>
          (injectAccounts rt cache accounts svm).map fun later => (later.1, tables ++ later.2)

/-! ## What the calls leave -/

/-- What `get_or_fetch` returns for the key, if it returns an account. -/
def AccountCache.known (getAccount : Pubkey → Except String Account) (cache : AccountCache)
    (pk : Pubkey) : Option Account :=
  (cache.get pk).or (getAccount pk).toOption

theorem AccountCache.inner_getOrFetch {showPubkey : Pubkey → String}
    {getAccount : Pubkey → Except String Account} (cache : AccountCache) (key pk : Pubkey) :
    (cache.getOrFetch showPubkey key getAccount).2.inner pk =
      if pk = key then cache.known getAccount pk else cache.inner pk := by
  unfold getOrFetch known
  by_cases same : pk = key
  · subst same
    rw [if_pos rfl]
    cases held : cache.get pk with
    | some account => exact held
    | none =>
        cases getAccount pk with
        | error e => exact held
        | ok account => exact Function.update_self ..
  · rw [if_neg same]
    cases cache.get key with
    | some account => rfl
    | none =>
        cases getAccount key with
        | error e => rfl
        | ok account => exact Function.update_of_ne same ..

/-- The cache answers at once what it holds, so the fetch is a `prefetch`. -/
theorem lazyFetch_eq (showPubkey : Pubkey → String)
    (getAccount : Pubkey → Except String Account) (cache : AccountCache)
    (accounts : List Pubkey) :
    lazyFetch showPubkey getAccount cache accounts =
      cache.prefetch showPubkey accounts getAccount := by
  unfold lazyFetch AccountCache.prefetch
  congr 1
  funext cache pk
  unfold AccountCache.getOrFetch
  cases cache.get pk with
  | none => rfl
  | some account => rfl

/-- After the fetch the cache holds what it knows of the accounts, and what it held. -/
theorem get_lazyFetch (showPubkey : Pubkey → String)
    (getAccount : Pubkey → Except String Account) (cache : AccountCache)
    (accounts : List Pubkey) (pk : Pubkey) :
    (lazyFetch showPubkey getAccount cache accounts).get pk =
      if pk ∈ accounts then cache.known getAccount pk else cache.get pk := by
  rw [lazyFetch_eq, AccountCache.prefetch]
  induction accounts generalizing cache with
  | nil => rfl
  | cons key accounts ih =>
      have turn : (cache.getOrFetch showPubkey key getAccount).2.get pk =
          if pk = key then cache.known getAccount pk else cache.get pk :=
        cache.inner_getOrFetch key pk
      rw [List.foldl_cons, ih, AccountCache.known, turn]
      by_cases same : pk = key
      · subst same
        rw [if_pos rfl, if_pos (List.mem_cons_self ..), AccountCache.known]
        cases cache.get pk with
        | some account => exact ite_self _
        | none => cases getAccount pk <;> exact ite_self _
      · rw [if_neg same]
        simp only [AccountCache.known, List.mem_cons, same, false_or]

theorem AccountCache.known_of_get {getAccount : Pubkey → Except String Account}
    {cache : AccountCache} {pk : Pubkey} {account : Account} (held : cache.get pk = some account) :
    cache.known getAccount pk = some account := by
  rw [AccountCache.known, held, Option.some_or]

/-- An account that is cached after the fetch was cached before, or was fetched. -/
theorem get_lazyFetch_eq_some_iff {showPubkey : Pubkey → String}
    {getAccount : Pubkey → Except String Account} {cache : AccountCache}
    {accounts : List Pubkey} {pk : Pubkey} {account : Account} :
    (lazyFetch showPubkey getAccount cache accounts).get pk = some account ↔
      (pk ∈ accounts ∧ cache.known getAccount pk = some account) ∨
        cache.get pk = some account := by
  rw [get_lazyFetch]
  by_cases collected : pk ∈ accounts
  · rw [if_pos collected, and_iff_right collected]
    exact (or_iff_left_of_imp AccountCache.known_of_get).symm
  · rw [if_neg collected]
    exact (or_iff_right fun fetched => collected fetched.1).symm

section Injection

variable {rt : Runtime Program Table} {held : Pubkey → Option Account}
  {db db' : AccountsDb Program} {keys : List Pubkey} {done : List (Pubkey × Account)}

/-- The first key is passed over, or its account goes to the SVM and then the rest follow. -/
theorem inject_cons {key : Pubkey} (ran : inject rt held db (key :: keys) = some (db', done)) :
    (held key = none ∧ inject rt held db keys = some (db', done)) ∨
      ∃ account result mid later, held key = some account ∧
        AccountsDb.setAccount rt db key account = some (result, mid) ∧
        inject rt held mid keys = some (db', later) ∧
        ((∃ e, result = .error e) ∧ done = later ∨
          result = .ok () ∧ done = (key, account) :: later) := by
  unfold inject at ran
  split at ran
  · rename_i missing
    exact Or.inl ⟨missing, ran⟩
  · rename_i account found
    split at ran
    · cases ran
    · rename_i e mid set
      exact Or.inr ⟨account, _, mid, done, found, set, ran, Or.inl ⟨⟨e, rfl⟩, rfl⟩⟩
    · rename_i mid set
      rcases Option.map_eq_some_iff.mp ran with ⟨⟨final, later⟩, rest, same⟩
      cases same
      exact Or.inr ⟨account, _, mid, later, found, set, rest, Or.inr ⟨rfl, rfl⟩⟩

/-- **The rule of the injection.** What every call with a held account keeps, the whole
keeps. -/
theorem inject_keeps (Inv : AccountsDb Program → Prop)
    (step : ∀ {db db' key account result}, key ∈ keys → held key = some account →
      AccountsDb.setAccount rt db key account = some (result, db') → Inv db → Inv db')
    (ran : inject rt held db keys = some (db', done)) (holds : Inv db) : Inv db' := by
  induction keys generalizing db done with
  | nil =>
      cases ran
      exact holds
  | cons key keys ih =>
      have step' : ∀ {db db' key account result}, key ∈ keys → held key = some account →
          AccountsDb.setAccount rt db key account = some (result, db') → Inv db → Inv db' :=
        fun inside => step (List.mem_cons_of_mem _ inside)
      rcases inject_cons ran with ⟨-, rest⟩ | ⟨account, result, mid, later, found, set, rest, -⟩
      · exact ih step' rest holds
      · exact ih step' rest (step (List.mem_cons_self ..) found set holds)

/-- What one call leaves at a key whose account is held: the account, as it is shown, stays. -/
theorem shown_of_setAccount {key pk : Pubkey} {account copy : Account}
    {result : Except LiteSvmError Unit} (found : held key = some account)
    (copied : held pk = some copy)
    (set : AccountsDb.setAccount rt db key account = some (result, db'))
    (before : db.inner pk = AccountsDb.shown copy) : db'.inner pk = AccountsDb.shown copy := by
  rcases AccountsDb.inner_of_addAccount set with ⟨taken, after⟩ | ⟨refused, after⟩
  · rw [after]
    by_cases same : pk = key
    · subst same
      rw [found] at copied
      cases copied
      exact Function.update_self ..
    · rw [Function.update_of_ne same, before]
  · rw [after, before]

/-- What was set comes from the keys and is shown in the end. -/
theorem inner_of_inject {key : Pubkey} {account : Account}
    (ran : inject rt held db keys = some (db', done)) (member : (key, account) ∈ done) :
    key ∈ keys ∧ held key = some account ∧ db'.inner key = AccountsDb.shown account := by
  induction keys generalizing db done with
  | nil =>
      cases ran
      cases member
  | cons first keys ih =>
      rcases inject_cons ran with ⟨-, rest⟩ |
        ⟨copy, result, mid, later, found, set, rest, ⟨-, rfl⟩ | ⟨taken, rfl⟩⟩
      · rcases ih rest member with ⟨listed, tail⟩
        exact ⟨List.mem_cons_of_mem _ listed, tail⟩
      · rcases ih rest member with ⟨listed, tail⟩
        exact ⟨List.mem_cons_of_mem _ listed, tail⟩
      · rcases List.mem_cons.mp member with same | inside
        · cases same
          have written : mid.inner key = AccountsDb.shown account := by
            rcases AccountsDb.inner_of_addAccount set with ⟨-, after⟩ | ⟨⟨e, refused⟩, -⟩
            · rw [after, Function.update_self]
            · rw [taken] at refused
              cases refused
          refine ⟨List.mem_cons_self .., found, ?_⟩
          apply inject_keeps (fun db => db.inner key = AccountsDb.shown account) _ rest
            written
          intro db db' other copy result _ found' set' before
          exact shown_of_setAccount found' found set' before
        · rcases ih rest inside with ⟨listed, tail⟩
          exact ⟨List.mem_cons_of_mem _ listed, tail⟩

/-- An account that is not executable is set exactly when LiteSVM accepts it. -/
theorem mem_done_iff {key : Pubkey} {account : Account}
    (ran : inject rt held db keys = some (db', done)) (listed : key ∈ keys)
    (found : held key = some account) (plain : account.executable = false) :
    (key, account) ∈ done ↔ AccountsDb.accepts rt key account := by
  induction keys generalizing db done with
  | nil => cases listed
  | cons first keys ih =>
      -- The same key may come again, with the same account and the same answer.
      have later : ∀ {mid : AccountsDb Program} {rest : List (Pubkey × Account)},
          inject rt held mid keys = some (db', rest) → first ≠ key ∨
            AccountsDb.accepts rt key account = false →
          ((key, account) ∈ rest ↔ AccountsDb.accepts rt key account) := by
        intro mid rest ran which
        by_cases again : key ∈ keys
        · exact ih ran again
        · rcases which with other | refused
          · exact absurd (List.mem_of_ne_of_mem (Ne.symm other) listed) again
          · rw [refused]
            exact iff_of_false (fun member => again (inner_of_inject ran member).1)
              Bool.false_ne_true
      rcases inject_cons ran with ⟨missing, rest⟩ |
        ⟨copy, result, mid, out, held', set, rest, ⟨⟨e, refused⟩, rfl⟩ | ⟨taken, rfl⟩⟩
      · refine later rest (Or.inl ?_)
        intro same
        subst same
        rw [missing] at found
        cases found
      · refine later rest ?_
        by_cases same : first = key
        · subst same
          rw [found] at held'
          cases held'
          refine Or.inr (Bool.eq_false_iff.mpr ?_)
          intro accepted
          rw [(AccountsDb.ok_iff_of_plain plain set).mpr accepted] at refused
          cases refused
        · exact Or.inl same
      · by_cases same : first = key
        · subst same
          rw [found] at held'
          cases held'
          exact iff_of_true (List.mem_cons_self ..)
            ((AccountsDb.ok_iff_of_plain plain set).mp taken)
        · rw [List.mem_cons, ← later rest (Or.inl same)]
          apply or_iff_right
          intro equal
          exact same (congrArg Prod.fst equal).symm

end Injection

/-! ## The call -/

structure SimOutcome where
  computeUnits : UInt64
  wsolAfter : UInt64
  deriving DecidableEq, Repr

inductive SimError where
  /-- Of `to_litesvm_tx`, with its context. -/
  | boundary (context cause : String)
  | unprofitable (wsolAfter minAcceptableOut : UInt64)
  | reverted (err : TransactionError) (logs : List String)
  deriving DecidableEq, Repr

def parseTokenAmount (data : List UInt8) : Option UInt64 :=
  if data.length < 72 then none else some (fromLe64 (window data 64 8))

def parseWsolAmount (svm : AccountsDb Program) (wsolAta : Pubkey) : UInt64 :=
  ((svm.inner wsolAta).bind fun a => parseTokenAmount a.data).getD 0

def toLitesvmTx (rt : Runtime Program Table) (tx : VersionedTransaction) :
    Except SimError VersionedTransaction :=
  match rt.serialize tx with
  | .error e => .error (.boundary "serialize tx for litesvm boundary" e)
  | .ok bytes =>
      match rt.deserialize bytes with
      | .error e => .error (.boundary "deserialize tx for litesvm boundary" e)
      | .ok tx => .ok tx

structure Simulator (Program : Type) where
  svm : AccountsDb Program
  wsolAta : Pubkey
  failClosed : Bool

/-- What a call leaves behind. -/
structure Simulation (Program : Type) where
  result : Except SimError SimOutcome
  simulator : Simulator Program
  cache : AccountCache
  txDropped : Nat

/-- What `simulate` makes of the run, and the transactions it counts as dropped. -/
def judge (sim : Simulator Program) (wsolBefore minAcceptableOut : UInt64) :
    Except FailedTransactionMetadata SimulatedTransactionInfo → Except SimError SimOutcome × Nat
  | .ok info =>
      let wsolAfter :=
        ((info.postAccounts.find? (·.1 = sim.wsolAta)).bind
          fun entry => parseTokenAmount entry.2.data).getD wsolBefore
      if wsolAfter < minAcceptableOut then
        (.error (.unprofitable wsolAfter minAcceptableOut), 1)
      else (.ok { computeUnits := info.computeUnitsConsumed, wsolAfter := wsolAfter }, 0)
  | .error failed =>
      if sim.failClosed then (.error (.reverted failed.err failed.logs), 0)
      else (.ok { computeUnits := failed.computeUnitsConsumed, wsolAfter := 0 }, 0)

/-- `Simulator::simulate`, with the answers of the RPC node and the slot that it loads. -/
def Simulator.simulate (rt : Runtime Program Table) (showPubkey : Pubkey → String)
    (getAccount : Pubkey → Except String Account) (sim : Simulator Program) (liveSlot : UInt64)
    (tx : VersionedTransaction) (alts : List AddressLookupTableAccount) (cache : AccountCache)
    (minAcceptableOut : UInt64) : Option (Simulation Program) :=
  let accounts := collectTxAccounts tx alts
  let cache := lazyFetch showPubkey getAccount cache accounts
  match prepare rt sim.svm liveSlot cache alts accounts with
  | none => none
  | some (svm, _) =>
      let sim := { sim with svm := svm }
      let wsolBefore := parseWsolAmount svm sim.wsolAta
      match toLitesvmTx rt tx with
      | .error e => some { result := .error e, simulator := sim, cache := cache, txDropped := 0 }
      | .ok litesvmTx =>
          match svm.simulateTransaction rt litesvmTx with
          | none => none
          | some run =>
              let (result, txDropped) := judge sim wsolBefore minAcceptableOut run
              some { result := result, simulator := sim, cache := cache, txDropped := txDropped }

/-- A call leaves the SVM as it prepared it. -/
theorem svm_of_simulate {rt : Runtime Program Table} {showPubkey : Pubkey → String}
    {getAccount : Pubkey → Except String Account} {sim : Simulator Program} {liveSlot : UInt64}
    {tx : VersionedTransaction} {alts : List AddressLookupTableAccount} {cache : AccountCache}
    {minAcceptableOut : UInt64} {after : Simulation Program}
    (ran : sim.simulate rt showPubkey getAccount liveSlot tx alts cache minAcceptableOut =
      some after) :
    ∃ done, prepare rt sim.svm liveSlot
      (lazyFetch showPubkey getAccount cache (collectTxAccounts tx alts)) alts
      (collectTxAccounts tx alts) = some (after.simulator.svm, done) := by
  unfold Simulator.simulate at ran
  dsimp only at ran
  split at ran
  · cases ran
  · rename_i svm done prepared
    refine ⟨done, ?_⟩
    rw [prepared]
    split at ran
    · cases ran
      rfl
    · split at ran
      · cases ran
      · cases ran
        rfl

/-- A call changes nothing of the simulator but its SVM. -/
theorem simulator_of_simulate {rt : Runtime Program Table} {showPubkey : Pubkey → String}
    {getAccount : Pubkey → Except String Account} {sim : Simulator Program} {liveSlot : UInt64}
    {tx : VersionedTransaction} {alts : List AddressLookupTableAccount} {cache : AccountCache}
    {minAcceptableOut : UInt64} {after : Simulation Program}
    (ran : sim.simulate rt showPubkey getAccount liveSlot tx alts cache minAcceptableOut =
      some after) :
    after.simulator = { sim with svm := after.simulator.svm } := by
  unfold Simulator.simulate at ran
  dsimp only at ran
  split at ran
  · cases ran
  · split at ran
    · cases ran
      rfl
    · split at ran
      · cases ran
      · cases ran
        rfl

end ArbBot
