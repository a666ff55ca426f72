import ArbBot.Simulator.Processing

/-!
# What a simulation predicts

`simulate_transaction` runs a transaction on the SVM without a change to it. `Sends` says what
`send_transaction` does, given what the simulation returned: the same result and metadata, the
post accounts stored if it succeeded, and the fee paid if it failed after it was loaded.

`withdraw` takes the fee of a failed transaction outside of its execution, and replaces the
error by its own if it fails. It never does: the payer was validated on the same account.
-/

namespace ArbBot

open Foundation Sdk

variable {Program Table Signature Hash Limits Trace : Type}
  {rt : Runtime Program Table} {engine : Engine Program Signature Hash Limits Trace}
  {db : AccountsDb Program} {stx : SanitizedTransaction} {rent : Rent} {fee : UInt64}

/-! ## The fee -/

/-- A payer that is validated can pay, down to its minimum. -/
theorem of_validateFeePayer {key : Pubkey} {account charged : Account} {i : Nat}
    (valid : validateFeePayer engine key account i rent fee = .ok charged) :
    account.lamports ≠ 0 ∧ charged = { account with lamports := account.lamports - fee } ∧
      checkRentStateWithAccount
        (getAccountRentState rent account.lamports account.data.length)
        (getAccountRentState rent charged.lamports charged.data.length) key i = .ok () ∧
      ∃ kind, engine.systemAccountKind account = some kind ∧
        fee.toNat + (kind.minBalance engine rent).toNat ≤ account.lamports.toNat := by
  unfold validateFeePayer at valid
  split at valid
  · cases valid
  rename_i funded
  split at valid
  · cases valid
  rename_i kind known
  dsimp only at valid
  split at valid
  · cases valid
  rename_i enough
  split at valid
  · cases valid
  rename_i allowed
  cases valid
  refine ⟨funded, rfl, allowed, kind, known, ?_⟩
  rw [not_or, UInt64.not_lt, UInt64.not_lt, UInt64.le_iff_toNat_le, UInt64.le_iff_toNat_le]
    at enough
  rw [UInt64.toNat_sub_of_le _ _ (UInt64.le_iff_toNat_le.mpr enough.1)] at enough
  omega

theorem loadAccounts_cons {key : Pubkey} {keys : List Pubkey} {i : Nat}
    {payer payer' : Option Pubkey} {accounts : List (Pubkey × Account)}
    (loaded : loadAccounts engine db stx rent fee (key :: keys) i payer =
      some (.ok (accounts, payer'))) :
    ∃ account rest, loadAccount engine db stx i key = some account ∧
      ((key ≠ instructionsSysvar ∧ payer = none ∧
          ∃ charged, validateFeePayer engine key account i rent fee = .ok charged ∧
            loadAccounts engine db stx rent fee keys (i + 1) (some key) =
              some (.ok (rest, payer')) ∧ accounts = (key, charged) :: rest) ∨
        loadAccounts engine db stx rent fee keys (i + 1) payer = some (.ok (rest, payer')) ∧
          accounts = (key, account) :: rest) := by
  have later : ∀ {rest : Option (Except TransactionError (List (Pubkey × Account) × Option Pubkey))}
      {first : Pubkey × Account},
      (rest.map fun rest => rest.map fun later => (first :: later.1, later.2)) =
        some (.ok (accounts, payer')) →
      ∃ others, rest = some (.ok (others, payer')) ∧ accounts = first :: others := by
    intro rest first same
    rcases Option.map_eq_some_iff.mp same with ⟨_ | ⟨others, last⟩, rfl, same⟩
    · cases same
    · cases same
      exact ⟨others, rfl, rfl⟩
  unfold loadAccounts at loaded
  split at loaded
  · cases loaded
  rename_i account found
  split at loaded
  · rename_i first
    split at loaded
    · cases loaded
    · rename_i charged valid
      rcases later loaded with ⟨rest, others, rfl⟩
      exact ⟨account, rest, found, Or.inl ⟨first.1, first.2.1, charged, valid, others, rfl⟩⟩
  · rcases later loaded with ⟨rest, others, rfl⟩
    exact ⟨account, rest, found, Or.inr ⟨others, rfl⟩⟩

/-- An account with lamports is one of the database. -/
theorem inner_of_loadAccount {key : Pubkey} {i : Nat} {account : Account}
    (found : loadAccount engine db stx i key = some account) (other : key ≠ instructionsSysvar)
    (funded : account.lamports ≠ 0) : db.inner key = some account := by
  unfold loadAccount at found
  rw [if_neg other] at found
  split at found
  · exact found
  · cases held : db.inner key with
    | none =>
        rw [held] at found
        cases found
        exact (funded rfl).elim
    | some account' =>
        rw [held] at found
        exact found

/-- There is one payer. -/
theorem loadAccounts_some {keys : List Pubkey} {i : Nat} {payer : Option Pubkey} {key : Pubkey}
    {accounts : List (Pubkey × Account)}
    (loaded : loadAccounts engine db stx rent fee keys i (some key) =
      some (.ok (accounts, payer))) : payer = some key := by
  induction keys generalizing i accounts with
  | nil =>
      cases loaded
      rfl
  | cons key' keys ih =>
      rcases loadAccounts_cons loaded with
        ⟨account, rest, -, ⟨-, none, -⟩ | ⟨others, -⟩⟩
      · cases none
      · exact ih others

theorem payer_mem {keys : List Pubkey} {i : Nat} {key : Pubkey}
    {accounts : List (Pubkey × Account)}
    (loaded : loadAccounts engine db stx rent fee keys i none = some (.ok (accounts, some key))) :
    key ∈ keys := by
  induction keys generalizing i accounts with
  | nil => cases loaded
  | cons key' keys ih =>
      rcases loadAccounts_cons loaded with
        ⟨account, rest, -, ⟨-, -, charged, -, others, -⟩ | ⟨others, -⟩⟩
      · cases loadAccounts_some others
        exact List.mem_cons_self
      · exact List.mem_cons_of_mem _ (ih others)

/-- The fee payer is an account of the database, validated as such. -/
theorem payer_of_loadAccounts {keys : List Pubkey} {i : Nat} {payer payer' : Option Pubkey}
    {accounts : List (Pubkey × Account)}
    (loaded : loadAccounts engine db stx rent fee keys i payer = some (.ok (accounts, payer'))) :
    payer' = payer ∨ ∃ key account charged j, payer' = some key ∧ db.inner key = some account ∧
      validateFeePayer engine key account j rent fee = .ok charged := by
  induction keys generalizing i payer accounts with
  | nil =>
      cases loaded
      exact Or.inl rfl
  | cons key keys ih =>
      rcases loadAccounts_cons loaded with
        ⟨account, rest, found, ⟨other, rfl, charged, valid, others, rfl⟩ | ⟨others, rfl⟩⟩
      · have held := inner_of_loadAccount found other (of_validateFeePayer valid).1
        rcases ih others with rfl | later
        · exact Or.inr ⟨key, account, charged, i, rfl, held, valid⟩
        · exact Or.inr later
      · exact ih others

/-- **The fee of a failed transaction is there.** -/
theorem withdraw_of_valid {key : Pubkey} {account charged : Account} {i : Nat}
    {bytes : List UInt8} (cached : db.sysvarCache .rent = some bytes)
    (held : db.inner key = some account)
    (valid : validateFeePayer engine key account i (engine.rent bytes) fee = .ok charged) :
    db.withdraw engine key fee =
      some (.ok (), { db with inner := Function.update db.inner key (some charged) }) := by
  rcases of_validateFeePayer valid with ⟨-, rfl, -, kind, known, enough⟩
  have small := account.lamports.toNat_lt
  have pays : ∀ minBalance : UInt64, fee.toNat + minBalance.toNat ≤ account.lamports.toNat →
      (fee.toNat + minBalance.toNat < 2 ^ 64 ∧ fee + minBalance ≤ account.lamports) ∧
        ¬ account.lamports < fee := by
    intro minBalance enough
    have sum : (fee + minBalance).toNat = fee.toNat + minBalance.toNat := by
      rw [UInt64.toNat_add, Nat.mod_eq_of_lt]
      omega
    rw [UInt64.le_iff_toNat_le, sum, UInt64.lt_iff_toNat_lt]
    omega
  unfold AccountsDb.withdraw
  rw [held]
  cases kind with
  | system =>
      obtain ⟨fits, funded⟩ := pays 0 enough
      simp only [known, if_pos fits, if_neg funded]
  | nonce =>
      obtain ⟨fits, funded⟩ := pays ((engine.rent bytes).minimumBalance engine.nonceSize) enough
      simp only [known, cached, Option.map_some, if_pos fits, if_neg funded]

/-- What `process_transaction` gives: no context and a refusal, or a context and a payer of the
database that can pay. -/
theorem processTransaction_cases {limits : Limits} {processed : Processed Trace}
    (ran : processTransaction rt engine db stx limits = some processed) :
    (processed.context = none ∧ ∃ err, processed.result = .error err) ∨
      ∃ bytes loaded payer accounts indices, db.sysvarCache .rent = some bytes ∧
        loadAccounts engine db stx (engine.rent bytes) (engine.fee stx limits) stx.accountKeys 0
          none = some (.ok (loaded, some payer)) ∧
        programIndices db loaded.length stx.instructions loaded =
          some (.ok (accounts, indices)) ∧
        processed = processLoaded engine db stx limits (engine.rent bytes)
          (engine.fee stx limits) payer accounts indices := by
  unfold processTransaction at ran
  split at ran
  · cases ran
  rename_i bytes cached
  dsimp only at ran
  split at ran
  · cases ran
  · cases ran
    exact Or.inl ⟨rfl, _, rfl⟩
  · cases ran
    exact Or.inl ⟨rfl, _, rfl⟩
  rename_i loaded payer readied
  split at ran
  · cases ran
  · cases ran
    exact Or.inl ⟨rfl, _, rfl⟩
  rename_i accounts indices resolved
  split at ran
  · exact Or.inr ⟨bytes, loaded, payer, accounts, indices, cached, readied, resolved,
      (Option.some.inj ran).symm⟩
  · cases ran

/-! ## Sending -/

section Sends

variable [DecidableEq Signature] [DecidableEq Hash]
  {svm : LiteSvm Program Signature Hash Trace} {tx : VersionedTransaction}

/-- The account pays the fee of a transaction that failed. -/
def LiteSvm.paid (svm : LiteSvm Program Signature Hash Trace) (payer : Pubkey) (account : Account)
    (failed : FailedTransaction Signature Trace) : LiteSvm Program Signature Hash Trace where
  accounts := { svm.accounts with
    inner := Function.update svm.accounts.inner payer
      (some { account with lamports := account.lamports - failed.metadata.fee }) }
  latestBlockhash := svm.latestBlockhash
  history := svm.history.addNewTransaction failed.metadata.signature (.error failed)
  sigverify := svm.sigverify
  blockhashCheck := svm.blockhashCheck

/-- The accounts of a transaction that succeeded are stored. -/
def LiteSvm.stored (svm : LiteSvm Program Signature Hash Trace) (db : AccountsDb Program)
    (info : SimulatedTransaction Signature Trace) : LiteSvm Program Signature Hash Trace where
  accounts := db
  latestBlockhash := svm.latestBlockhash
  history := svm.history.addNewTransaction info.metadata.signature (.ok info.metadata)
  sigverify := svm.sigverify
  blockhashCheck := svm.blockhashCheck

/-- What sending does, given what the simulation returned. -/
inductive Sends (rt : Runtime Program Table) (svm : LiteSvm Program Signature Hash Trace) :
    Option (Except (FailedTransaction Signature Trace) (SimulatedTransaction Signature Trace)) →
      Option (TransactionResult Signature Trace × LiteSvm Program Signature Hash Trace) → Prop
  | panics : Sends rt svm none none
  | refused (failed) : Sends rt svm (some (.error failed)) (some (.error failed, svm))
  | paid (failed) (payer account) : svm.accounts.inner payer = some account →
      failed.metadata.fee ≤ account.lamports →
      Sends rt svm (some (.error failed)) (some (.error failed, svm.paid payer account failed))
  | stored (info) (db) : svm.accounts.syncAccounts rt info.postAccounts = some (.ok (), db) →
      Sends rt svm (some (.ok info)) (some (.ok info.metadata, svm.stored db info))
  /-- An account is refused by the database: the call panics. -/
  | clashes (info) : (∀ db, svm.accounts.syncAccounts rt info.postAccounts ≠ some (.ok (), db)) →
      Sends rt svm (some (.ok info)) none

theorem processTransaction_of_checked {svm : LiteSvm Program Signature Hash Trace}
    {stx : SanitizedTransaction} {processed : Processed Trace}
    (checked : svm.checkAndProcess rt engine stx = some (.ok processed)) :
    ∃ limits, processTransaction rt engine svm.accounts stx limits = some processed := by
  unfold LiteSvm.checkAndProcess at checked
  split at checked
  · cases checked
  · rename_i limits _
    rcases Option.map_eq_some_iff.mp checked with ⟨_, ran, same⟩
    cases same
    exact ⟨limits, ran⟩

/-- **The execution of a transaction.** It is refused, or it has a context; then it succeeds, or
its payer, which was validated, pays. -/
theorem execute_cases (svm : LiteSvm Program Signature Hash Trace) (stx : SanitizedTransaction) :
    (svm.checkAndProcess rt engine stx = none ∧ svm.execute rt engine stx = none) ∨
      (∃ e, svm.checkAndProcess rt engine stx = some (.error e) ∧
        svm.execute rt engine stx = some (refusedWith engine e, svm.accounts)) ∨
      ∃ processed, svm.checkAndProcess rt engine stx = some (.ok processed) ∧
        ((processed.context = none ∧ (∃ err, processed.result = .error err) ∧
            svm.execute rt engine stx = some (unexecuted engine processed, svm.accounts)) ∨
          ∃ context, processed.context = some context ∧
            ((processed.result = .ok () ∧ svm.execute rt engine stx =
                some (executionResult engine stx context processed, svm.accounts)) ∨
              ∃ err payer account i bytes, processed.result = .error err ∧
                payer ∈ stx.accountKeys ∧ svm.accounts.inner payer = some account ∧
                svm.accounts.sysvarCache .rent = some bytes ∧
                validateFeePayer engine payer account i (engine.rent bytes) processed.fee =
                  .ok { account with lamports := account.lamports - processed.fee } ∧
                svm.execute rt engine stx =
                  some (executionResult engine stx context processed, { svm.accounts with
                    inner := Function.update svm.accounts.inner payer
                      (some {
                        account with lamports := account.lamports - processed.fee }) }))) := by
  unfold LiteSvm.execute
  cases checked : svm.checkAndProcess rt engine stx with
  | none => exact Or.inl ⟨rfl, rfl⟩
  | some answer =>
      refine Or.inr ?_
      cases answer with
      | error e => exact Or.inl ⟨e, rfl, rfl⟩
      | ok processed =>
          refine Or.inr ⟨processed, rfl, ?_⟩
          rcases processTransaction_of_checked checked with ⟨limits, ran⟩
          rcases processTransaction_cases ran with ⟨none, failed⟩ |
            ⟨bytes, loaded, payer, accounts, indices, cached, readied, -, same⟩
          · exact Or.inl ⟨none, failed, by simp only [none]⟩
          -- the payer was validated on the account that the fee is taken from
          rcases payer_of_loadAccounts readied with absent |
            ⟨key, account, charged, i, found, held, valid⟩
          · cases absent
          obtain rfl := Option.some.inj found
          obtain rfl := (of_validateFeePayer valid).2.1
          have parts : ∃ context, processed.context = some context ∧
              processed.payerKey = some payer ∧ processed.fee = engine.fee stx limits := by
            rw [same]
            exact ⟨_, rfl, rfl, rfl⟩
          rcases parts with ⟨context, executed, payerKey, fee⟩
          rw [← fee] at valid
          refine Or.inr ⟨context, executed, ?_⟩
          simp only [executed, payerKey]
          cases failed : processed.result with
          | ok _ =>
              refine Or.inl ⟨rfl, ?_⟩
              simp only [executionResult, failed]
          | error err =>
              refine Or.inr ⟨err, payer, account, i, bytes, rfl, payer_mem readied, held, cached,
                valid, ?_⟩
              simp only [executionResult, failed, withdraw_of_valid cached held valid,
                Option.map_some]

theorem sends_aux (svm : LiteSvm Program Signature Hash Trace) (tx : VersionedTransaction) :
    Sends rt svm (svm.simulateTransaction rt engine tx) (svm.sendTransaction rt engine tx) := by
  unfold LiteSvm.simulateTransaction LiteSvm.sendTransaction
  cases sanitized : svm.sanitize rt engine tx with
  | none => exact .panics
  | some answer =>
      cases answer with
      | error e => exact .refused _
      | ok stx =>
          simp only [LiteSvm.executeReadonly]
          rcases execute_cases svm stx with ⟨checked, executed⟩ | ⟨e, checked, executed⟩ |
            ⟨processed, checked, ⟨none, ⟨err, failed⟩, executed⟩ |
              ⟨context, readied, ⟨ok, executed⟩ |
                ⟨err, payer, account, i, bytes, failed, -, held, -, valid, executed⟩⟩⟩
          · rw [checked, executed]
            exact .panics
          · rw [checked, executed]
            exact .refused _
          · simp only [checked, executed, Option.map_some, none, ExecutionResult.outcome,
              unexecuted, failed]
            exact .refused _
          · simp only [checked, executed, Option.map_some, readied, ExecutionResult.outcome,
              executionResult, ok]
            split
            · rename_i db stored
              exact .stored {
                metadata := (executionResult engine stx context processed).metadata
                postAccounts := (executionResult engine stx context processed).postAccounts }
                db stored
            · rename_i clash
              exact .clashes {
                metadata := (executionResult engine stx context processed).metadata
                postAccounts := (executionResult engine stx context processed).postAccounts } clash
          · rcases of_validateFeePayer valid with ⟨-, -, -, kind, -, enough⟩
            have funded : processed.fee ≤ account.lamports := by
              rw [UInt64.le_iff_toNat_le]
              omega
            simp only [checked, executed, Option.map_some, readied, ExecutionResult.outcome,
              executionResult, failed]
            exact .paid {
              err := err
              metadata := (executionResult engine stx context processed).metadata }
              payer account held funded

/-! ## The gate -/

/-- The SVM of `Simulator::new`, which checks neither signatures nor blockhashes. -/
def LiteSvm.unchecked (db : AccountsDb Program) (latestBlockhash : Hash)
    (history : TransactionHistory Signature Trace) : LiteSvm Program Signature Hash Trace where
  accounts := db
  latestBlockhash := latestBlockhash
  history := history
  sigverify := false
  blockhashCheck := false

/-- What the bot reads of the outcome. -/
def verdict :
    Except (FailedTransaction Signature Trace) (SimulatedTransaction Signature Trace) →
      Except FailedTransactionMetadata SimulatedTransactionInfo
  | .error failed => .error {
      err := failed.err
      computeUnitsConsumed := failed.metadata.computeUnitsConsumed
      logs := failed.metadata.logs }
  | .ok info => .ok {
      computeUnitsConsumed := info.metadata.computeUnitsConsumed
      postAccounts := info.postAccounts }

/-- The gate's runtime, with the execution of the SVM. -/
def Engine.runtime (rt : Runtime Program Table)
    (engine : Engine Program Signature Hash Limits Trace) (latestBlockhash : Hash)
    (history : TransactionHistory Signature Trace) : Runtime Program Table :=
  { rt with
    execute := fun db tx loaded =>
      (LiteSvm.executeReadonly rt engine (.unchecked db latestBlockhash history)
        { tx := tx, loaded := loaded }).map fun result => verdict result.outcome }

theorem loadAddresses_runtime (latestBlockhash : Hash)
    (history : TransactionHistory Signature Trace) (lookups : List MessageAddressTableLookup) :
    db.loadAddresses (engine.runtime rt latestBlockhash history) lookups =
      db.loadAddresses rt lookups := by
  induction lookups with
  | nil => rfl
  | cons lookup lookups ih =>
      unfold AccountsDb.loadAddresses
      rw [ih]
      rfl

/-- The simulation of the gate is that of the SVM. -/
theorem simulateTransaction_runtime (latestBlockhash : Hash)
    (history : TransactionHistory Signature Trace) (tx : VersionedTransaction) :
    db.simulateTransaction (engine.runtime rt latestBlockhash history) tx =
      ((LiteSvm.unchecked db latestBlockhash history).simulateTransaction rt engine tx).map
        verdict := by
  unfold AccountsDb.simulateTransaction LiteSvm.simulateTransaction LiteSvm.sanitize
    LiteSvm.sanitizeTransactionNoVerify
  rw [loadAddresses_runtime, Option.map_map]
  have same : (engine.runtime rt latestBlockhash history).sanitize tx = rt.sanitize tx := rfl
  rw [same]
  simp only [LiteSvm.unchecked]
  cases rt.sanitize tx with
  | error e => rfl
  | ok _ =>
      cases db.loadAddresses rt tx.message.addressTableLookups with
      | none => rfl
      | some answer =>
          cases answer with
          | error e => rfl
          | ok loaded => rfl

/-- **A simulation predicts the sending.** For every SVM and transaction, sending panics if
simulating does, and gives the same result and metadata otherwise, unless the database refuses
an account: a transaction that succeeded stores its accounts, one that failed changes nothing
but its payer's lamports, by the fee, which are always there. And what the gate of the bot reads
of a simulation is that of an SVM without checks, whatever its blockhash and its history. -/
theorem simulation_predicts_sending (rt : Runtime Program Table)
    (engine : Engine Program Signature Hash Limits Trace)
    (svm : LiteSvm Program Signature Hash Trace) (tx : VersionedTransaction) :
    Sends rt svm (svm.simulateTransaction rt engine tx) (svm.sendTransaction rt engine tx) ∧
      svm.accounts.simulateTransaction (engine.runtime rt svm.latestBlockhash svm.history) tx =
        ((LiteSvm.unchecked svm.accounts svm.latestBlockhash svm.history).simulateTransaction rt
          engine tx).map verdict :=
  ⟨sends_aux svm tx, simulateTransaction_runtime svm.latestBlockhash svm.history tx⟩

end Sends

end ArbBot
