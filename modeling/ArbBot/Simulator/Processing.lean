import ArbBot.Pipeline.Quotes
import ArbBot.Simulator.Svm

/-!
# Transactions in LiteSVM

What LiteSVM does with a transaction whose addresses are loaded: the checks, the fee payer, the
accounts, the instructions and the rent. `simulate_transaction` and `send_transaction` share all
of it but the end: the one forgets the accounts, the other one stores them and keeps a history.

What other crates decide is a parameter (`Engine`), with the features, the compute budget and
the fees that the SVM is configured with.
-/

namespace ArbBot

open Foundation Sdk

/-! ## Errors -/

namespace TransactionError

def accountNotFound : TransactionError := .other "AccountNotFound"

def invalidAccountForFee : TransactionError := .other "InvalidAccountForFee"

def insufficientFundsForFee : TransactionError := .other "InsufficientFundsForFee"

def insufficientFundsForRent (accountIndex : UInt8) : TransactionError :=
  .other ("InsufficientFundsForRent \x7b account_index: " ++ toString accountIndex ++ " \x7d")

def invalidProgramForExecution : TransactionError := .other "InvalidProgramForExecution"

def alreadyProcessed : TransactionError := .other "AlreadyProcessed"

def blockhashNotFound : TransactionError := .other "BlockhashNotFound"

def instructionError (index : UInt8) (err : String) : TransactionError :=
  .other ("InstructionError(" ++ toString index ++ ", " ++ err ++ ")")

end TransactionError

/-! ## Rent -/

/-- `Rent` of the SDK. -/
structure Rent where
  minimumBalance : Nat → UInt64

def Rent.isExempt (rent : Rent) (balance : UInt64) (dataLen : Nat) : Bool :=
  rent.minimumBalance dataLen ≤ balance

inductive RentState where
  | uninitialized
  | rentPaying (lamports : UInt64) (dataSize : Nat)
  | rentExempt
  deriving DecidableEq, Repr

def getAccountRentState (rent : Rent) (lamports : UInt64) (size : Nat) : RentState :=
  if lamports = 0 then .uninitialized
  else if rent.isExempt lamports size then .rentExempt
  else .rentPaying lamports size

/-- An account keeps paying rent only if it is neither resized nor credited. -/
def transitionAllowed (pre post : RentState) : Bool :=
  match post, pre with
  | .uninitialized, _ | .rentExempt, _ => true
  | .rentPaying _ _, .uninitialized | .rentPaying _ _, .rentExempt => false
  | .rentPaying postLamports postSize, .rentPaying preLamports preSize =>
      postSize = preSize ∧ postLamports ≤ preLamports

/-- `1nc1nerator11111111111111111111111111111111` -/
def incinerator : Pubkey where
  bytes := [0, 51, 144, 114, 141, 52, 17, 96, 121, 189, 201, 17, 191, 255, 0, 219, 212, 77, 46,
    205, 204, 247, 156, 166, 225, 0, 56, 225, 0, 0, 0, 0]
  length_bytes := rfl

def checkRentStateWithAccount (pre post : RentState) (address : Pubkey) (accountIndex : Nat) :
    Except TransactionError Unit :=
  if address ≠ incinerator ∧ !transitionAllowed pre post then
    .error (.insufficientFundsForRent (UInt8.ofNat accountIndex))
  else .ok ()

/-! ## Other crates -/

/-- `Sysvar1nstructions1111111111111111111111111` -/
def instructionsSysvar : Pubkey where
  bytes := [6, 167, 213, 23, 24, 123, 209, 102, 53, 218, 212, 4, 85, 253, 194, 192, 193, 36, 198,
    143, 33, 86, 117, 165, 219, 186, 203, 95, 8, 0, 0, 0]
  length_bytes := rfl

/-- A transaction with the addresses that its lookups load. -/
structure SanitizedTransaction where
  tx : VersionedTransaction
  loaded : LoadedAddresses
  deriving DecidableEq, Repr

namespace SanitizedTransaction

def accountKeys (stx : SanitizedTransaction) : List Pubkey :=
  stx.tx.message.staticAccountKeys ++ stx.loaded.writable ++ stx.loaded.readonly

def instructions (stx : SanitizedTransaction) : List CompiledInstruction :=
  match stx.tx.message with
  | .legacy _ instructions => instructions
  | .v0 message => message.instructions

def isInvoked (stx : SanitizedTransaction) (i : Nat) : Bool :=
  stx.instructions.any (·.programIdIndex.toNat = i)

def isInstructionAccount (stx : SanitizedTransaction) (i : Nat) : Bool :=
  stx.instructions.any (·.accounts.any (·.toNat = i))

end SanitizedTransaction

inductive SystemAccountKind where
  | system
  | nonce
  deriving DecidableEq, Repr

/-- `TransactionContext`, with what the log collector has collected. `Trace` stands for the
inner instructions and the return data. -/
structure Context (Trace : Type) where
  accounts : List (Pubkey × Account)
  trace : Trace
  logs : List String

/-- What other crates decide, and the configuration of the SVM. -/
structure Engine (Program Signature Hash Limits Trace : Type) where
  /-- The `Rent` that the bytes of the sysvar hold. -/
  rent : List UInt8 → Rent
  /-- `SanitizedMessage::is_writable` with the reserved keys -/
  isWritable : SanitizedTransaction → Nat → Bool
  /-- `construct_instructions_data` -/
  instructionsData : SanitizedTransaction → List UInt8
  /-- `get_system_account_kind` -/
  systemAccountKind : Account → Option SystemAccountKind
  /-- `nonce::state::State::size` -/
  nonceSize : Nat
  /-- `SanitizedTransaction::verify` -/
  verify : SanitizedTransaction → Except TransactionError Unit
  /-- `SanitizedTransaction::validate_account_locks` -/
  validateAccountLocks : SanitizedTransaction → Except TransactionError Unit
  signature : SanitizedTransaction → Signature
  recentBlockhash : SanitizedTransaction → Hash
  /-- `get_durable_nonce` -/
  durableNonce : SanitizedTransaction → Option Pubkey
  /-- `DurableNonce::from_blockhash` -/
  nonceFromBlockhash : Hash → Hash
  /-- `verify_nonce_account`: the authority of the nonce -/
  verifyNonceAccount : Account → Hash → Option Pubkey
  /-- `get_ix_signers` of the first instruction -/
  nonceSigners : SanitizedTransaction → List Pubkey
  /-- `process_compute_budget_instructions` -/
  computeBudgetLimits : SanitizedTransaction → Except TransactionError Limits
  /-- `calculate_fee` -/
  fee : SanitizedTransaction → Limits → UInt64
  /-- One top-level instruction: `prepare_next_top_level_instruction`, then
  `process_precompile` or `process_instruction`. -/
  instruction : AccountsDb Program → SanitizedTransaction → Limits → Nat → CompiledInstruction →
    Nat → Context Trace → Except String Unit × UInt64 × Context Trace
  defaultSignature : Signature
  defaultTrace : Trace

variable {Program Table Signature Hash Limits Trace : Type}

/-! ## The fee payer and the accounts -/

/-- What a payer has to keep. -/
def SystemAccountKind.minBalance (engine : Engine Program Signature Hash Limits Trace)
    (rent : Rent) : SystemAccountKind → UInt64
  | .system => 0
  | .nonce => rent.minimumBalance engine.nonceSize

/-- `validate_fee_payer`: the account without the fee. -/
def validateFeePayer (engine : Engine Program Signature Hash Limits Trace) (payerAddress : Pubkey)
    (payerAccount : Account) (payerIndex : Nat) (rent : Rent) (fee : UInt64) :
    Except TransactionError Account :=
  if payerAccount.lamports = 0 then .error .accountNotFound
  else
    match engine.systemAccountKind payerAccount with
    | none => .error .invalidAccountForFee
    | some kind =>
        let minBalance := kind.minBalance engine rent
        if payerAccount.lamports < minBalance ∨ payerAccount.lamports - minBalance < fee then
          .error .insufficientFundsForFee
        else
          let charged := { payerAccount with lamports := payerAccount.lamports - fee }
          let preRentState :=
            getAccountRentState rent payerAccount.lamports payerAccount.data.length
          let postRentState := getAccountRentState rent charged.lamports charged.data.length
          match checkRentStateWithAccount preRentState postRentState payerAddress payerIndex with
          | .error e => .error e
          | .ok () => .ok charged

/-- An account that the database does not hold. -/
def emptyAccount : Account where
  lamports := 0
  data := []
  owner := noOwner
  executable := false
  rentEpoch := 0

/-- `construct_instructions_account`. -/
def instructionsAccount (engine : Engine Program Signature Hash Limits Trace)
    (stx : SanitizedTransaction) : Account :=
  { emptyAccount with data := engine.instructionsData stx, owner := sysvarProgram }

def loadAccount (engine : Engine Program Signature Hash Limits Trace) (db : AccountsDb Program)
    (stx : SanitizedTransaction) (i : Nat) (key : Pubkey) : Option Account :=
  if key = instructionsSysvar then some (instructionsAccount engine stx)
  else if !stx.isInstructionAccount i ∧ !engine.isWritable stx i ∧
      (db.programsCache key).isSome then
    db.inner key
  else some ((db.inner key).getD emptyAccount)

/-- The accounts of the keys from number `i` on, and the fee payer: the first account that is
not a program only. -/
def loadAccounts (engine : Engine Program Signature Hash Limits Trace) (db : AccountsDb Program)
    (stx : SanitizedTransaction) (rent : Rent) (fee : UInt64) :
    List Pubkey → Nat → Option Pubkey →
      Option (Except TransactionError (List (Pubkey × Account) × Option Pubkey))
  | [], _, payer => some (.ok ([], payer))
  | key :: keys, i, payer =>
      match loadAccount engine db stx i key with
      | none => none
      | some account =>
          if key ≠ instructionsSysvar ∧ payer = none ∧
              (!stx.isInvoked i ∨ stx.isInstructionAccount i) then
            match validateFeePayer engine key account i rent fee with
            | .error e => some (.error e)
            | .ok account =>
                (loadAccounts engine db stx rent fee keys (i + 1) (some key)).map fun rest =>
                  rest.map fun later => ((key, account) :: later.1, later.2)
          else
            (loadAccounts engine db stx rent fee keys (i + 1) payer).map fun rest =>
              rest.map fun later => ((key, account) :: later.1, later.2)

/-- The numbers of the programs, and the accounts with the owners of the programs behind the
first `start` ones. -/
def programIndices (db : AccountsDb Program) (start : Nat) :
    List CompiledInstruction → List (Pubkey × Account) →
      Option (Except TransactionError (List (Pubkey × Account) × List Nat))
  | [], accounts => some (.ok (accounts, []))
  | c :: instructions, accounts =>
      let programIndex := c.programIdIndex.toNat
      let next := fun accounts : List (Pubkey × Account) =>
        (programIndices db start instructions accounts).map fun rest =>
          rest.map fun later => (later.1, programIndex :: later.2)
      match accounts[programIndex]? with
      | none => none
      | some (programId, programAccount) =>
          if programId = nativeLoader then next accounts
          else if programAccount.executable = false then
            some (.error .invalidProgramForExecution)
          else
            let ownerId := programAccount.owner
            if ownerId = nativeLoader then next accounts
            else if (accounts.drop start).any (·.1 = ownerId) then next accounts
            else
              match db.inner ownerId with
              | none => none
              | some ownerAccount =>
                  if ownerAccount.owner ≠ nativeLoader then
                    some (.error .invalidProgramForExecution)
                  else if ownerAccount.executable = false then
                    some (.error .invalidProgramForExecution)
                  else next (accounts ++ [(ownerId, ownerAccount)])

/-! ## The instructions -/

/-- `process_message`, from instruction `index` on. -/
def processMessage (engine : Engine Program Signature Hash Limits Trace) (db : AccountsDb Program)
    (stx : SanitizedTransaction) (limits : Limits) :
    Nat → List (CompiledInstruction × Nat) → UInt64 → Context Trace →
      Except TransactionError Unit × UInt64 × Context Trace
  | _, [], accumulatedConsumedUnits, context => (.ok (), accumulatedConsumedUnits, context)
  | index, (instruction, programIndex) :: rest, accumulatedConsumedUnits, context =>
      let (result, computeUnitsConsumed, context) :=
        engine.instruction db stx limits index instruction programIndex context
      let accumulatedConsumedUnits := saturatingAdd accumulatedConsumedUnits computeUnitsConsumed
      match result with
      | .error err =>
          (.error (.instructionError (UInt8.ofNat index) err), accumulatedConsumedUnits, context)
      | .ok () => processMessage engine db stx limits (index + 1) rest accumulatedConsumedUnits
          context

namespace AccountsDb

def rentState (rent : Rent) (db : AccountsDb Program) (key : Pubkey) : RentState :=
  match db.inner key with
  | none => .uninitialized
  | some acc => getAccountRentState rent acc.lamports acc.data.length

end AccountsDb

/-- `check_accounts_rent`, from account `index` on. -/
def checkAccountsRent (engine : Engine Program Signature Hash Limits Trace)
    (db : AccountsDb Program) (stx : SanitizedTransaction) (rent : Rent) :
    Nat → List (Pubkey × Account) → Except TransactionError Unit
  | _, [] => .ok ()
  | index, (pubkey, account) :: rest =>
      let checked :=
        if engine.isWritable stx index then
          checkRentStateWithAccount (db.rentState rent pubkey)
            (getAccountRentState rent account.lamports account.data.length) pubkey index
        else .ok ()
      match checked with
      | .error e => .error e
      | .ok () => checkAccountsRent engine db stx rent (index + 1) rest

/-- What `process_transaction` returns. -/
structure Processed (Trace : Type) where
  result : Except TransactionError Unit
  computeUnitsConsumed : UInt64
  context : Option (Context Trace)
  fee : UInt64
  payerKey : Option Pubkey

/-- The part with a context. -/
def processLoaded (engine : Engine Program Signature Hash Limits Trace) (db : AccountsDb Program)
    (stx : SanitizedTransaction) (limits : Limits) (rent : Rent) (fee : UInt64) (payer : Pubkey)
    (accounts : List (Pubkey × Account)) (indices : List Nat) : Processed Trace :=
  let (result, units, context) := processMessage engine db stx limits 0
    (stx.instructions.zip indices) 0
    { accounts := accounts, trace := engine.defaultTrace, logs := [] }
  let rentCheck := checkAccountsRent engine db stx rent 0
    (context.accounts.take stx.accountKeys.length)
  let result := match rentCheck with
    | .error err => .error err
    | .ok () => result
  { result := result
    computeUnitsConsumed := units
    context := some context
    fee := fee
    payerKey := some payer }

def processTransaction (rt : Runtime Program Table)
    (engine : Engine Program Signature Hash Limits Trace) (db : AccountsDb Program)
    (stx : SanitizedTransaction) (limits : Limits) : Option (Processed Trace) :=
  match db.sysvarCache .rent with
  | none => none
  | some bytes =>
      let rent := engine.rent bytes
      let fee := engine.fee stx limits
      let refused := fun (err : TransactionError) (payerKey : Option Pubkey) => some {
        result := .error err
        computeUnitsConsumed := 0
        context := none
        fee := fee
        payerKey := payerKey }
      match loadAccounts engine db stx rent fee stx.accountKeys 0 none with
      | none => none
      | some (.error e) => refused e none
      | some (.ok (_, none)) => refused .accountNotFound none
      | some (.ok (loaded, some payer)) =>
          match programIndices db loaded.length stx.instructions loaded with
          | none => none
          | some (.error e) => refused e (some payer)
          | some (.ok (accounts, indices)) =>
              -- `create_transaction_context` reads the account of the sysvar
              if (db.inner Sysvar.rent.id).any fun acc => rt.decodesSysvar .rent acc.data then
                some (processLoaded engine db stx limits rent fee payer accounts indices)
              else none

/-! ## The SVM -/

/-- `TransactionMetadata`. -/
structure TransactionMetadata (Signature Trace : Type) where
  signature : Signature
  logs : List String
  trace : Trace
  computeUnitsConsumed : UInt64
  fee : UInt64

/-- `FailedTransactionMetadata`. -/
structure FailedTransaction (Signature Trace : Type) where
  err : TransactionError
  metadata : TransactionMetadata Signature Trace

/-- `SimulatedTransactionInfo`. -/
structure SimulatedTransaction (Signature Trace : Type) where
  metadata : TransactionMetadata Signature Trace
  postAccounts : List (Pubkey × Account)

abbrev TransactionResult (Signature Trace : Type) :=
  Except (FailedTransaction Signature Trace) (TransactionMetadata Signature Trace)

/-- The entries of the map in the order of their insertion, oldest first. -/
structure TransactionHistory (Signature Trace : Type) where
  entries : List (Signature × TransactionResult Signature Trace)
  capacity : Nat

namespace TransactionHistory

variable [DecidableEq Signature]

def checkTransaction (history : TransactionHistory Signature Trace) (signature : Signature) :
    Bool :=
  history.entries.any (·.1 = signature)

/-- A known signature keeps its place. -/
def addNewTransaction (history : TransactionHistory Signature Trace) (signature : Signature)
    (result : TransactionResult Signature Trace) : TransactionHistory Signature Trace :=
  if history.capacity = 0 then history
  else
    let kept := if history.entries.length = history.capacity then history.entries.drop 1
      else history.entries
    let entries :=
      if kept.any (·.1 = signature) then
        kept.map fun entry => if entry.1 = signature then (signature, result) else entry
      else kept ++ [(signature, result)]
    { history with entries := entries }

end TransactionHistory

/-- `LiteSVM`, without its configuration. -/
structure LiteSvm (Program Signature Hash Trace : Type) where
  accounts : AccountsDb Program
  latestBlockhash : Hash
  history : TransactionHistory Signature Trace
  sigverify : Bool
  blockhashCheck : Bool

/-- `ExecutionResult`, with the logs of the collector. -/
structure ExecutionResult (Signature Trace : Type) where
  postAccounts : List (Pubkey × Account)
  txResult : Except TransactionError Unit
  signature : Signature
  computeUnitsConsumed : UInt64
  trace : Trace
  included : Bool
  fee : UInt64
  logs : List String

def ExecutionResult.metadata (result : ExecutionResult Signature Trace) :
    TransactionMetadata Signature Trace where
  signature := result.signature
  logs := result.logs
  trace := result.trace
  computeUnitsConsumed := result.computeUnitsConsumed
  fee := result.fee

/-- What the callers make of it. -/
def ExecutionResult.outcome (result : ExecutionResult Signature Trace) :
    Except (FailedTransaction Signature Trace) (SimulatedTransaction Signature Trace) :=
  match result.txResult with
  | .error err => .error { err := err, metadata := result.metadata }
  | .ok () => .ok { metadata := result.metadata, postAccounts := result.postAccounts }

/-- `ExecutionResult::default` with an error. -/
def refusedWith (engine : Engine Program Signature Hash Limits Trace) (err : TransactionError) :
    ExecutionResult Signature Trace where
  postAccounts := []
  txResult := .error err
  signature := engine.defaultSignature
  computeUnitsConsumed := 0
  trace := engine.defaultTrace
  included := false
  fee := 0
  logs := []

/-- The accounts with a writable number, from number `i` on. -/
def writableOnly {α : Type} (isWritable : Nat → Bool) : Nat → List α → List α
  | _, [] => []
  | i, a :: rest =>
      if isWritable i then a :: writableOnly isWritable (i + 1) rest
      else writableOnly isWritable (i + 1) rest

/-- `execution_result_if_context`. -/
def executionResult (engine : Engine Program Signature Hash Limits Trace)
    (stx : SanitizedTransaction) (context : Context Trace) (processed : Processed Trace) :
    ExecutionResult Signature Trace where
  postAccounts := writableOnly (engine.isWritable stx) 0 context.accounts
  txResult := processed.result
  signature := engine.signature stx
  computeUnitsConsumed := processed.computeUnitsConsumed
  trace := context.trace
  included := true
  fee := processed.fee
  logs := context.logs

/-- The result of a transaction that has not got a context. -/
def unexecuted (engine : Engine Program Signature Hash Limits Trace)
    (processed : Processed Trace) : ExecutionResult Signature Trace where
  postAccounts := []
  txResult := processed.result
  signature := engine.defaultSignature
  computeUnitsConsumed := processed.computeUnitsConsumed
  trace := engine.defaultTrace
  included := false
  fee := processed.fee
  logs := []

namespace AccountsDb

variable (rt : Runtime Program Table) (engine : Engine Program Signature Hash Limits Trace)

/-- Takes the fee of a transaction that failed. -/
def withdraw (db : AccountsDb Program) (address : Pubkey) (lamports : UInt64) :
    Option (Except TransactionError Unit × AccountsDb Program) :=
  match db.inner address with
  | none => some (.error .accountNotFound, db)
  | some account =>
      let minBalance := match engine.systemAccountKind account with
        | some .nonce =>
            (db.sysvarCache .rent).map fun bytes =>
              (engine.rent bytes).minimumBalance engine.nonceSize
        | _ => some 0
      match minBalance with
      | none => none
      | some minBalance =>
          if lamports.toNat + minBalance.toNat < 2 ^ 64 ∧
              lamports + minBalance ≤ account.lamports then
            if account.lamports < lamports then some (.error .insufficientFundsForFee, db)
            else
              let charged := { account with lamports := account.lamports - lamports }
              some (.ok (), { db with inner := Function.update db.inner address (some charged) })
          else some (.error .insufficientFundsForFee, db)

/-- `BPFLoaderUpgradeab1e11111111111111111111111` -/
def bpfLoaderUpgradeable : Pubkey where
  bytes := [2, 168, 246, 145, 78, 136, 161, 176, 226, 16, 21, 62, 247, 99, 174, 43, 0, 194, 185,
    61, 22, 193, 36, 210, 192, 83, 122, 16, 4, 128, 0, 0]
  length_bytes := rfl

/-- The data of an upgradeable program. -/
def isProgramData (account : Account) : Bool :=
  account.owner = bpfLoaderUpgradeable ∧ account.data.head? = some 3

/-- The last element with the property, and what stands before and behind it. -/
def rfind {α : Type} (pred : α → Bool) : List α → Option (List α × α × List α)
  | [] => none
  | a :: rest =>
      match rfind pred rest with
      | some (between, back, behind) => some (a :: between, back, behind)
      | none => if pred a then some ([], a, rest) else none

/-- `itertools::partition`, with fuel for each element: swaps from both ends. -/
def partition {α : Type} (pred : α → Bool) : Nat → List α → List α
  | 0, l => l
  | _, [] => []
  | fuel + 1, front :: rest =>
      if pred front then front :: partition pred fuel rest
      else
        match rfind pred rest with
        | none => front :: rest
        | some (between, back, behind) =>
            back :: (partition pred fuel between ++ front :: behind)

/-- Adds the accounts one after the other, up to the first failure. -/
def addAccounts (db : AccountsDb Program) :
    List (Pubkey × Account) → Option (Except LiteSvmError Unit × AccountsDb Program)
  | [] => some (.ok (), db)
  | (address, acc) :: rest =>
      match addAccount rt db address acc with
      | none => none
      | some (.error e, db) => some (.error e, db)
      | some (.ok (), db) => addAccounts db rest

/-- The program data first. -/
def syncAccounts (db : AccountsDb Program) (accounts : List (Pubkey × Account)) :
    Option (Except LiteSvmError Unit × AccountsDb Program) :=
  addAccounts rt db (partition (isProgramData ·.2) accounts.length accounts)

end AccountsDb

namespace LiteSvm

variable [DecidableEq Signature] [DecidableEq Hash] (rt : Runtime Program Table)
  (engine : Engine Program Signature Hash Limits Trace)

/-- `SanitizedTransaction::try_create`. -/
def sanitizeTransactionNoVerify (db : AccountsDb Program) (tx : VersionedTransaction) :
    Option (Except TransactionError SanitizedTransaction) :=
  match rt.sanitize tx with
  | .error e => some (.error e)
  | .ok () =>
      match db.loadAddresses rt tx.message.addressTableLookups with
      | none => none
      | some (.error e) => some (.error e.toTransactionError)
      | some (.ok loaded) => some (.ok { tx := tx, loaded := loaded })

def sanitizeTransaction (db : AccountsDb Program) (tx : VersionedTransaction) :
    Option (Except TransactionError SanitizedTransaction) :=
  (sanitizeTransactionNoVerify rt db tx).map fun sanitized => do
    let stx ← sanitized
    engine.verify stx
    engine.validateAccountLocks stx
    return stx

/-- What both calls do with the transaction first. -/
def sanitize (svm : LiteSvm Program Signature Hash Trace) (tx : VersionedTransaction) :
    Option (Except TransactionError SanitizedTransaction) :=
  if svm.sigverify then sanitizeTransaction rt engine svm.accounts tx
  else sanitizeTransactionNoVerify rt svm.accounts tx

def checkMessageForNonce (svm : LiteSvm Program Signature Hash Trace)
    (stx : SanitizedTransaction) : Bool :=
  (((engine.durableNonce stx).bind svm.accounts.inner).bind
    (engine.verifyNonceAccount · (engine.recentBlockhash stx))).any
      fun authority => (engine.nonceSigners stx).contains authority

/-- `check_transaction_age`. -/
def checkTransactionAge (svm : LiteSvm Program Signature Hash Trace)
    (stx : SanitizedTransaction) : Except TransactionError Unit :=
  let recentBlockhash := engine.recentBlockhash stx
  if recentBlockhash = svm.latestBlockhash ∨
      recentBlockhash ≠ engine.nonceFromBlockhash svm.latestBlockhash ∧
        checkMessageForNonce engine svm stx then .ok ()
  else .error .blockhashNotFound

/-- The checks before a transaction is processed. -/
def check (svm : LiteSvm Program Signature Hash Trace) (stx : SanitizedTransaction) :
    Except TransactionError Limits := do
  if svm.blockhashCheck then checkTransactionAge engine svm stx
  let limits ← engine.computeBudgetLimits stx
  if svm.sigverify ∧ svm.history.checkTransaction (engine.signature stx) then
    .error .alreadyProcessed
  return limits

/-- `check_and_process_transaction`. -/
def checkAndProcess (svm : LiteSvm Program Signature Hash Trace) (stx : SanitizedTransaction) :
    Option (Except TransactionError (Processed Trace)) :=
  match check engine svm stx with
  | .error e => some (.error e)
  | .ok limits => (processTransaction rt engine svm.accounts stx limits).map .ok

/-- `execute_sanitized_transaction_readonly`. -/
def executeReadonly (svm : LiteSvm Program Signature Hash Trace) (stx : SanitizedTransaction) :
    Option (ExecutionResult Signature Trace) :=
  (checkAndProcess rt engine svm stx).map fun checked =>
    match checked with
    | .error e => refusedWith engine e
    | .ok processed =>
        match processed.context with
        | some context => executionResult engine stx context processed
        | none => unexecuted engine processed

/-- `execute_sanitized_transaction`: a transaction that failed pays its fee. -/
def execute (svm : LiteSvm Program Signature Hash Trace) (stx : SanitizedTransaction) :
    Option (ExecutionResult Signature Trace × AccountsDb Program) :=
  match checkAndProcess rt engine svm stx with
  | none => none
  | some (.error e) => some (refusedWith engine e, svm.accounts)
  | some (.ok processed) =>
      match processed.context with
      | none => some (unexecuted engine processed, svm.accounts)
      | some context =>
          let result := executionResult engine stx context processed
          match processed.payerKey, result.txResult with
          | some payer, .error err =>
              (svm.accounts.withdraw engine payer processed.fee).map fun (withdrawn, db) =>
                match withdrawn with
                | .error e => ({ result with txResult := .error e }, db)
                | .ok () => ({ result with txResult := .error err }, db)
          | _, _ => some (result, svm.accounts)

/-- `simulate_transaction`. -/
def simulateTransaction (svm : LiteSvm Program Signature Hash Trace) (tx : VersionedTransaction) :
    Option (Except (FailedTransaction Signature Trace) (SimulatedTransaction Signature Trace)) :=
  let executed := match sanitize rt engine svm tx with
    | none => none
    | some (.error e) => some (refusedWith engine e)
    | some (.ok stx) => executeReadonly rt engine svm stx
  executed.map ExecutionResult.outcome

/-- `send_transaction`. -/
def sendTransaction (svm : LiteSvm Program Signature Hash Trace) (tx : VersionedTransaction) :
    Option (TransactionResult Signature Trace × LiteSvm Program Signature Hash Trace) :=
  let executed := match sanitize rt engine svm tx with
    | none => none
    | some (.error e) => some (refusedWith engine e, svm.accounts)
    | some (.ok stx) => execute rt engine svm stx
  match executed with
  | none => none
  | some (result, db) =>
      match result.txResult with
      | .error err =>
          let failed := .error { err := err, metadata := result.metadata }
          let history := if result.included then
            svm.history.addNewTransaction result.signature failed else svm.history
          some (failed, { svm with accounts := db, history := history })
      | .ok () =>
          let history := svm.history.addNewTransaction result.signature (.ok result.metadata)
          match db.syncAccounts rt result.postAccounts with
          | some (.ok (), db) =>
              some (.ok result.metadata, { svm with accounts := db, history := history })
          | _ => none

end LiteSvm

end ArbBot
