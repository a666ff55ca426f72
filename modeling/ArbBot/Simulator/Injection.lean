import ArbBot.Simulator.Simulate

/-!
# The accounts that reach the SVM

A message loads its static keys, the keys that its lookups draw from the tables, and the
accounts of the tables. `collect_tx_accounts` collects the first two and the fetch runs over
what is collected. A table that the cache lacks is therefore set only if the message names
it elsewhere, and the expansion finds no account for it (`accounts_set_iff`).
-/

namespace ArbBot

open Foundation Sdk

/-! ## What is to be set -/

/-- The keys whose accounts the message loads, with those of its tables. -/
def Loadable (tx : VersionedTransaction) (alts : List AddressLookupTableAccount)
    (key : Pubkey) : Prop :=
  key ∈ collectTxAccounts tx alts ∨
    ∃ lookup ∈ tx.message.addressTableLookups, lookup.accountKey = key

/-- Every lookup has a resolved table. -/
def Covers (alts : List AddressLookupTableAccount) (tx : VersionedTransaction) : Prop :=
  ∀ lookup ∈ tx.message.addressTableLookups, ∃ alt ∈ alts, alt.key = lookup.accountKey

/-- Every account that is known, of the cache or else of the node, has been set, and the
expansion finds the tables. -/
structure EveryAccountSet {Program : Type} (tx : VersionedTransaction)
    (alts : List AddressLookupTableAccount) (known : Pubkey → Option Account)
    (svm : AccountsDb Program) (done : List (Pubkey × Account)) : Prop where
  set : ∀ key account, Loadable tx alts key → known key = some account →
    account.executable = false → (key, account) ∈ done
  expands : ∀ lookup ∈ tx.message.addressTableLookups, ∀ table,
    known lookup.accountKey = some table → table.executable = false → table.lamports ≠ 0 →
      svm.inner lookup.accountKey = some table

section Prepared

variable {Program Table : Type} {rt : Runtime Program Table} {showPubkey : Pubkey → String}
  {getAccount : Pubkey → Except String Account} {svm svm' : AccountsDb Program}
  {liveSlot : UInt64} {tx : VersionedTransaction} {alts : List AddressLookupTableAccount}
  {cache : AccountCache} {accounts : List Pubkey} {done : List (Pubkey × Account)}
  {key : Pubkey} {account : Account}

/-- The two injections of a call. -/
theorem injections_of_prepare (prepared : prepare rt svm liveSlot cache alts accounts =
      some (svm', done)) :
    ∃ warped mid tables later, svm.warpToSlot rt liveSlot = some warped ∧
      injectAlts rt cache alts warped = some (mid, tables) ∧
      injectAccounts rt cache accounts mid = some (svm', later) ∧ done = tables ++ later := by
  unfold prepare at prepared
  split at prepared
  · cases prepared
  · rename_i warped onTime
    split at prepared
    · cases prepared
    · rename_i mid tables first
      rcases Option.map_eq_some_iff.mp prepared with ⟨⟨final, later⟩, second, same⟩
      cases same
      exact ⟨warped, mid, tables, later, onTime, first, second, rfl⟩

theorem filter_of_plain (held : cache.get key = some account)
    (plain : account.executable = false) :
    (cache.get key).filter (fun acct => !acct.executable) = some account := by
  rw [held, Option.filter_some, plain]
  rfl

/-- An account that is not executable has been set exactly when one of the injections has
its key, the cache holds it and LiteSVM accepts it. -/
theorem set_iff_of_prepare (prepared : prepare rt svm liveSlot cache alts accounts =
      some (svm', done)) (plain : account.executable = false) :
    (key, account) ∈ done ↔ (key ∈ alts.map AddressLookupTableAccount.key ∨ key ∈ accounts) ∧
      cache.get key = some account ∧ AccountsDb.accepts rt key account := by
  obtain ⟨warped, mid, tables, later, -, first, second, rfl⟩ := injections_of_prepare prepared
  rw [List.mem_append]
  apply Iff.intro
  · intro member
    rcases member with inTables | inLater
    · obtain ⟨listed, held, -⟩ := inner_of_inject first inTables
      exact ⟨Or.inl listed, held, (mem_done_iff first listed held plain).mp inTables⟩
    · obtain ⟨listed, held, -⟩ := inner_of_inject second inLater
      exact ⟨Or.inr listed, (Option.filter_eq_some_iff.mp held).1,
        (mem_done_iff second listed held plain).mp inLater⟩
  · intro ⟨listed, held, accepted⟩
    rcases listed with inTables | inLater
    · exact Or.inl ((mem_done_iff first inTables held plain).mpr accepted)
    · exact Or.inr
        ((mem_done_iff second inLater (filter_of_plain held plain) plain).mpr accepted)

/-- What has been set shows in the SVM. -/
theorem inner_of_prepare (prepared : prepare rt svm liveSlot cache alts accounts =
      some (svm', done)) (member : (key, account) ∈ done) :
    svm'.inner key = AccountsDb.shown account := by
  obtain ⟨warped, mid, tables, later, -, first, second, rfl⟩ := injections_of_prepare prepared
  rcases List.mem_append.mp member with inTables | inLater
  · obtain ⟨-, held, before⟩ := inner_of_inject first inTables
    apply inject_keeps (fun db => db.inner key = AccountsDb.shown account) _ second before
    intro db db' other copy result _ found set kept
    exact shown_of_setAccount (Option.filter_eq_some_iff.mp found).1 held set kept
  · exact (inner_of_inject second inLater).2.2

/-- What is known of a key is cached after the fetch if it was before or was collected. -/
theorem get_lazyFetch_iff (known : cache.known getAccount key = some account) :
    (lazyFetch showPubkey getAccount cache accounts).get key = some account ↔
      (cache.get key).isSome ∨ key ∈ accounts := by
  rw [get_lazyFetch_eq_some_iff]
  apply Iff.intro
  · intro cached
    rcases cached with ⟨collected, -⟩ | held
    · exact Or.inr collected
    · exact Or.inl (Option.isSome_iff_exists.mpr ⟨account, held⟩)
  · intro cached
    rcases cached with held | collected
    · rcases Option.isSome_iff_exists.mp held with ⟨copy, held⟩
      exact Or.inr (held.trans ((AccountCache.known_of_get held).symm.trans known))
    · exact Or.inl ⟨collected, known⟩

/-- **Accounts that are set.** Every account that the message loads has been set, and the
expansion finds its tables, exactly when the tables are cached or collected and the accounts
at the addresses of sysvars decode. -/
theorem accounts_set_iff (covered : Covers alts tx)
    (prepared : prepare rt svm liveSlot
        (lazyFetch showPubkey getAccount cache (collectTxAccounts tx alts)) alts
        (collectTxAccounts tx alts) = some (svm', done)) :
    EveryAccountSet tx alts (cache.known getAccount) svm' done ↔
      (∀ lookup ∈ tx.message.addressTableLookups, ∀ table,
        cache.known getAccount lookup.accountKey = some table → table.executable = false →
          (cache.get lookup.accountKey).isSome ∨
            lookup.accountKey ∈ collectTxAccounts tx alts) ∧
      ∀ key account, Loadable tx alts key → cache.known getAccount key = some account →
        account.executable = false → AccountsDb.accepts rt key account := by
  have listed : ∀ key, Loadable tx alts key →
      key ∈ alts.map AddressLookupTableAccount.key ∨ key ∈ collectTxAccounts tx alts := by
    intro key loadable
    rcases loadable with collected | ⟨lookup, inside, rfl⟩
    · exact Or.inr collected
    · obtain ⟨alt, resolved, same⟩ := covered lookup inside
      exact Or.inl (same ▸ List.mem_map_of_mem resolved)
  -- Whether a known account is set depends on the fetch and on the address.
  have set : ∀ key account, Loadable tx alts key → cache.known getAccount key = some account →
      account.executable = false → ((key, account) ∈ done ↔
        ((cache.get key).isSome ∨ key ∈ collectTxAccounts tx alts) ∧
          AccountsDb.accepts rt key account) := by
    intro key account loadable known plain
    rw [set_iff_of_prepare prepared plain, get_lazyFetch_iff known]
    exact and_iff_right (listed key loadable)
  apply Iff.intro
  · intro every
    apply And.intro
    · intro lookup inside table known plain
      have loadable : Loadable tx alts lookup.accountKey := Or.inr ⟨lookup, inside, rfl⟩
      exact ((set _ _ loadable known plain).mp (every.set _ _ loadable known plain)).1
    · intro key account loadable known plain
      exact ((set _ _ loadable known plain).mp (every.set _ _ loadable known plain)).2
  · intro ⟨reached, accepted⟩
    have every : ∀ key account, Loadable tx alts key →
        cache.known getAccount key = some account → account.executable = false →
          (key, account) ∈ done := by
      intro key account loadable known plain
      apply (set key account loadable known plain).mpr
      refine ⟨?_, accepted key account loadable known plain⟩
      rcases loadable with collected | ⟨lookup, inside, rfl⟩
      · exact Or.inr collected
      · exact reached lookup inside account known plain
    refine ⟨every, ?_⟩
    intro lookup inside table known plain funded
    have member := every _ table (Or.inr ⟨lookup, inside, rfl⟩) known plain
    rw [inner_of_prepare prepared member, AccountsDb.shown, if_neg funded]

/-- Without the account of the first table the expansion fails. -/
theorem simulateTransaction_of_absent {lookup : MessageAddressTableLookup}
    {lookups : List MessageAddressTableLookup} (sane : rt.sanitize tx = .ok ())
    (first : tx.message.addressTableLookups = lookup :: lookups)
    (absent : svm.inner lookup.accountKey = none) :
    svm.simulateTransaction rt tx = some (.error {
      err := .addressLookupTableNotFound
      computeUnitsConsumed := 0
      logs := [] }) := by
  rw [AccountsDb.simulateTransaction, sane, first, AccountsDb.loadAddresses,
    AccountsDb.loadLookupTableAddresses, absent]
  rfl

end Prepared

/-! ### A table that nothing fetches -/

/-- A runtime in which only the clock decodes. -/
def bareRuntime : Runtime Unit Unit where
  serialize _ := .ok []
  deserialize _ := .error "io error: unexpected end of file"
  decodesSysvar _ _ := false
  loadProgram _ _ _ := .ok ()
  deserializeTable _ := some ()
  lookup _ _ _ _ := .error .invalidLookupIndex
  sanitize _ := .ok ()
  execute _ _ _ := some (.ok { computeUnitsConsumed := 0, postAccounts := [] })

/-- An SVM with nothing but the clock. -/
def bareSvm : AccountsDb Unit :=
  let inner := Function.update (fun _ => none) Sysvar.clock.id
    (some (AccountsDb.clockAccount ⟨0, 0, 0, 0, 0⟩))
  { inner := inner
    programsCache := fun _ => none
    programsSlot := 0
    sysvarCache := AccountsDb.refill bareRuntime inner }

def payerKey : Pubkey := ⟨List.replicate 32 1, rfl⟩

def mintKey : Pubkey := ⟨List.replicate 32 3, rfl⟩

def tableKey : Pubkey := ⟨List.replicate 32 5, rfl⟩

/-- The payer pays, and the mint comes from the table. -/
def lookupTx : VersionedTransaction where
  message := .v0 {
    accountKeys := [payerKey]
    instructions := []
    addressTableLookups := [
      { accountKey := tableKey, writableIndexes := [0], readonlyIndexes := [] }] }

def lookupTables : List AddressLookupTableAccount := [{ key := tableKey, addresses := [mintKey] }]

def tableAccount : Account where
  lamports := 1461600
  data := List.replicate 56 0 ++ mintKey.bytes
  owner := addressLookupTableProgram
  executable := false
  rentEpoch := 0

/-- The node has the table and every other account. -/
def chainAccount (pk : Pubkey) : Except String Account :=
  .ok (if pk = tableKey then tableAccount
    else { tableAccount with data := [], owner := noOwner })

theorem collect_lookupTx : collectTxAccounts lookupTx lookupTables = [payerKey, mintKey] :=
  sortDedup_of_sorted (by decide)

theorem covers_lookupTx : Covers lookupTables lookupTx := by
  intro lookup inside
  rcases List.mem_singleton.mp inside
  exact ⟨_, List.mem_singleton_self _, rfl⟩

/-- With the table in the cache every account is set. -/
theorem accounts_set_iff_cached :
    let cache := AccountCache.new.insert tableKey tableAccount
    ∃ svm done, prepare bareRuntime bareSvm 12
        (lazyFetch (fun _ => "") chainAccount cache (collectTxAccounts lookupTx lookupTables))
        lookupTables (collectTxAccounts lookupTx lookupTables) = some (svm, done) ∧
      EveryAccountSet lookupTx lookupTables (cache.known chainAccount) svm done := by
  intro cache
  have ran : (prepare bareRuntime bareSvm 12
      (lazyFetch (fun _ => "") chainAccount cache [payerKey, mintKey]) lookupTables
      [payerKey, mintKey]).isSome := by decide
  rw [← collect_lookupTx] at ran
  rcases Option.isSome_iff_exists.mp ran with ⟨⟨svm, done⟩, prepared⟩
  refine ⟨svm, done, prepared, (accounts_set_iff covers_lookupTx prepared).mpr ⟨?_, ?_⟩⟩
  · intro lookup inside _ _ _
    rcases List.mem_singleton.mp inside
    exact Or.inl (by decide)
  · have ordinary : ∀ key ∈ [payerKey, mintKey, tableKey], sysvarAt key = none := by
      decide
    intro key account loadable _ _
    have named : key ∈ [payerKey, mintKey, tableKey] := by
      rcases loadable with collected | ⟨lookup, inside, rfl⟩
      · rw [collect_lookupTx] at collected
        exact List.mem_append_left [tableKey] collected
      · rcases List.mem_singleton.mp inside
        decide
    rw [AccountsDb.accepts, ordinary key named]

/-- The node has the table, every fetch that is made succeeds, and the expansion finds no
account for the table. -/
theorem table_never_set :
    (∀ pk, (chainAccount pk).isOk) ∧ Covers lookupTables lookupTx ∧
      ∃ svm done, prepare bareRuntime bareSvm 12
          (lazyFetch (fun _ => "") chainAccount AccountCache.new
            (collectTxAccounts lookupTx lookupTables)) lookupTables
          (collectTxAccounts lookupTx lookupTables) = some (svm, done) ∧
        ¬ EveryAccountSet lookupTx lookupTables (AccountCache.new.known chainAccount) svm done ∧
        svm.simulateTransaction bareRuntime lookupTx = some (.error {
          err := .addressLookupTableNotFound
          computeUnitsConsumed := 0
          logs := [] }) := by
  refine ⟨fun pk => rfl, covers_lookupTx, ?_⟩
  rw [collect_lookupTx]
  have ran : (prepare bareRuntime bareSvm 12
      (lazyFetch (fun _ => "") chainAccount AccountCache.new [payerKey, mintKey]) lookupTables
      [payerKey, mintKey]).map (fun out => (out.1.inner tableKey, out.2.map Prod.fst)) =
        some (none, [payerKey, mintKey]) := by decide
  rcases Option.map_eq_some_iff.mp ran with ⟨⟨svm, done⟩, prepared, shows⟩
  rcases Prod.mk.inj shows with ⟨absent, set⟩
  refine ⟨svm, done, prepared, ?_, ?_⟩
  · intro every
    have member := every.set tableKey _ (Or.inr ⟨_, List.mem_cons_self .., rfl⟩) rfl rfl
    have listed : tableKey ∈ done.map Prod.fst := List.mem_map_of_mem member
    rw [set] at listed
    revert listed
    decide
  · exact simulateTransaction_of_absent rfl rfl absent

end ArbBot
