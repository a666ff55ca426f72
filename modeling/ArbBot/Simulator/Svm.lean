import ArbBot.Simulator.AccountCache
import ArbBot.Transaction

/-!
# LiteSVM

The account database of the vendored LiteSVM: `set_account`, the sysvars that follow it,
`warp_to_slot`, and the address tables that a v0 message loads. What other crates decide is a
parameter (`Runtime`): the formats of the sysvars but the clock, the program loader, the
format of a lookup table, and the execution of a transaction whose addresses are loaded.

A panic aborts the process: it has no value.
-/

namespace ArbBot

open Foundation Sdk

/-! ## Sysvars -/

/-- `NativeLoader1111111111111111111111111111111` -/
def nativeLoader : Pubkey where
  bytes := [5, 135, 132, 191, 20, 139, 164, 40, 47, 176, 18, 87, 72, 136, 169, 241, 83, 160,
    125, 173, 247, 101, 192, 69, 92, 154, 151, 3, 128, 0, 0, 0]
  length_bytes := rfl

/-- `AddressLookupTab1e1111111111111111111111111` -/
def addressLookupTableProgram : Pubkey where
  bytes := [2, 119, 166, 175, 151, 51, 155, 122, 200, 141, 24, 146, 201, 4, 70, 245, 0, 2, 48,
    146, 102, 246, 46, 83, 193, 24, 36, 73, 130, 0, 0, 0]
  length_bytes := rfl

/-- The owner of the sysvars, `Sysvar1111111111111111111111111111111111111`. -/
def sysvarProgram : Pubkey where
  bytes := [6, 167, 213, 23, 24, 117, 247, 41, 199, 61, 147, 64, 143, 33, 97, 32, 6, 126, 216,
    140, 118, 224, 140, 40, 127, 193, 148, 96, 0, 0, 0, 0]
  length_bytes := rfl

inductive Sysvar where
  | clock | epochRewards | epochSchedule | fees | lastRestartSlot | recentBlockhashes | rent
  | slotHashes | stakeHistory
  deriving DecidableEq, Repr

/-- The address as the SDK declares it. -/
def Sysvar.text : Sysvar → String
  | .clock => "SysvarC1ock11111111111111111111111111111111"
  | .epochRewards => "SysvarEpochRewards1111111111111111111111111"
  | .epochSchedule => "SysvarEpochSchedu1e111111111111111111111111"
  | .fees => "SysvarFees111111111111111111111111111111111"
  | .lastRestartSlot => "SysvarLastRestartS1ot1111111111111111111111"
  | .recentBlockhashes => "SysvarRecentB1ockHashes11111111111111111111"
  | .rent => "SysvarRent111111111111111111111111111111111"
  | .slotHashes => "SysvarS1otHashes111111111111111111111111111"
  | .stakeHistory => "SysvarStakeHistory1111111111111111111111111"

def Sysvar.id : Sysvar → Pubkey
  | .clock => ⟨[
      6, 167, 213, 23, 24, 199, 116, 201, 40, 86, 99, 152, 105, 29, 94, 182, 139, 94, 184, 163,
      155, 75, 109, 92, 115, 85, 91, 33, 0, 0, 0, 0], rfl⟩
  | .epochRewards => ⟨[
      6, 167, 213, 23, 24, 220, 63, 238, 2, 165, 88, 191, 131, 206, 102, 225, 68, 66, 42, 28,
      52, 149, 11, 39, 193, 134, 155, 90, 156, 0, 0, 0], rfl⟩
  | .epochSchedule => ⟨[
      6, 167, 213, 23, 24, 220, 63, 238, 2, 211, 228, 127, 1, 0, 248, 176, 84, 247, 148, 46, 96,
      89, 30, 63, 80, 135, 25, 168, 5, 0, 0, 0], rfl⟩
  | .fees => ⟨[
      6, 167, 213, 23, 24, 226, 90, 141, 131, 80, 60, 37, 26, 122, 240, 113, 38, 253, 114, 0,
      223, 111, 196, 237, 82, 106, 156, 144, 0, 0, 0, 0], rfl⟩
  | .lastRestartSlot => ⟨[
      6, 167, 213, 23, 25, 6, 221, 225, 205, 63, 148, 125, 202, 180, 200, 244, 244, 245, 27,
      173, 15, 152, 19, 184, 0, 210, 137, 71, 31, 192, 0, 0], rfl⟩
  | .recentBlockhashes => ⟨[
      6, 167, 213, 23, 25, 44, 86, 142, 224, 138, 132, 95, 115, 210, 151, 136, 207, 3, 92, 49,
      69, 178, 26, 179, 68, 216, 6, 46, 169, 64, 0, 0], rfl⟩
  | .rent => ⟨[
      6, 167, 213, 23, 25, 44, 92, 81, 33, 140, 201, 76, 61, 74, 241, 127, 88, 218, 238, 8, 155,
      161, 253, 68, 227, 219, 217, 138, 0, 0, 0, 0], rfl⟩
  | .slotHashes => ⟨[
      6, 167, 213, 23, 25, 47, 10, 175, 198, 242, 101, 227, 251, 119, 204, 122, 218, 130, 197,
      41, 208, 190, 59, 19, 110, 45, 0, 85, 32, 0, 0, 0], rfl⟩
  | .stakeHistory => ⟨[
      6, 167, 213, 23, 25, 53, 132, 208, 254, 237, 155, 179, 67, 29, 19, 32, 107, 229, 68, 40,
      27, 87, 184, 86, 108, 197, 55, 95, 244, 0, 0, 0], rfl⟩

example (sysvar : Sysvar) : (parseBase58 sysvar.text).toOption = some sysvar.id := by
  cases sysvar <;> decide +kernel

/-- In the order of the match of `maybe_handle_sysvar_account`. -/
def Sysvar.all : List Sysvar := [
  .clock, .epochRewards, .epochSchedule, .fees, .lastRestartSlot, .recentBlockhashes, .rent,
  .slotHashes, .stakeHistory]

def sysvarAt (pubkey : Pubkey) : Option Sysvar := Sysvar.all.find? (·.id = pubkey)

structure Clock where
  slot : UInt64
  epochStartTimestamp : Int64
  epoch : UInt64
  leaderScheduleEpoch : UInt64
  unixTimestamp : Int64
  deriving DecidableEq, Repr

/-- `bincode::serialize`. -/
def Clock.bytes (clock : Clock) : List UInt8 :=
  le64 clock.slot ++ le64 clock.epochStartTimestamp.toUInt64 ++ le64 clock.epoch ++
    le64 clock.leaderScheduleEpoch ++ le64 clock.unixTimestamp.toUInt64

/-- `bincode::deserialize`, which allows trailing bytes. -/
def Clock.parse (data : List UInt8) : Option Clock :=
  if data.length < 40 then none
  else some {
    slot := fromLe64 (window data 0 8)
    epochStartTimestamp := (fromLe64 (window data 8 8)).toInt64
    epoch := fromLe64 (window data 16 8)
    leaderScheduleEpoch := fromLe64 (window data 24 8)
    unixTimestamp := (fromLe64 (window data 32 8)).toInt64 }

/-! ## The account database -/

inductive AddressLookupError where
  | lookupTableAccountNotFound
  | invalidAccountOwner
  | invalidAccountData
  | invalidLookupIndex
  deriving DecidableEq, Repr

inductive TransactionError where
  | addressLookupTableNotFound
  | invalidAddressLookupTableOwner
  | invalidAddressLookupTableData
  | invalidAddressLookupTableIndex
  | other (text : String)
  deriving DecidableEq, Repr

/-- `into_address_loader_error`, and the conversion of the SDK. -/
def AddressLookupError.toTransactionError : AddressLookupError → TransactionError
  | .lookupTableAccountNotFound => .addressLookupTableNotFound
  | .invalidAccountOwner => .invalidAddressLookupTableOwner
  | .invalidAccountData => .invalidAddressLookupTableData
  | .invalidLookupIndex => .invalidAddressLookupTableIndex

inductive LiteSvmError where
  | invalidSysvarData (sysvar : Sysvar)
  | instruction (text : String)
  deriving DecidableEq, Repr

structure LoadedAddresses where
  writable : List Pubkey
  readonly : List Pubkey
  deriving DecidableEq, Repr

/-- `SimulatedTransactionInfo`, of which the bot reads the units and the accounts. -/
structure SimulatedTransactionInfo where
  computeUnitsConsumed : UInt64
  postAccounts : List (Pubkey × Account)

/-- `FailedTransactionMetadata`. -/
structure FailedTransactionMetadata where
  err : TransactionError
  computeUnitsConsumed : UInt64
  logs : List String

/-- A legacy message has no lookups. -/
inductive VersionedMessage where
  | legacy (accountKeys : List Pubkey) (instructions : List CompiledInstruction)
  | v0 (message : Message)
  deriving DecidableEq, Repr

/-- `VersionedTransaction`, without its signatures. -/
structure VersionedTransaction where
  message : VersionedMessage
  deriving DecidableEq, Repr

def VersionedMessage.staticAccountKeys : VersionedMessage → List Pubkey
  | .legacy accountKeys _ => accountKeys
  | .v0 message => message.accountKeys

def VersionedMessage.addressTableLookups : VersionedMessage → List MessageAddressTableLookup
  | .legacy _ _ => []
  | .v0 message => message.addressTableLookups

/-- `AccountsDb`, without the program environments. The entries of the sysvar cache are the
bytes that decode. -/
structure AccountsDb (Program : Type) where
  inner : Pubkey → Option Account
  programsCache : Pubkey → Option Program
  programsSlot : UInt64
  sysvarCache : Sysvar → Option (List UInt8)

/-- What other crates decide. -/
structure Runtime (Program Table : Type) where
  /-- `bincode::serialize` -/
  serialize : VersionedTransaction → Except String (List UInt8)
  /-- `bincode::deserialize` -/
  deserialize : List UInt8 → Except String VersionedTransaction
  /-- Whether the data of a sysvar other than the clock decode. -/
  decodesSysvar : Sysvar → List UInt8 → Bool
  /-- `load_program` in the slot of the clock. -/
  loadProgram : AccountsDb Program → UInt64 → Account → Except String Program
  /-- `AddressLookupTable::deserialize` -/
  deserializeTable : List UInt8 → Option Table
  /-- `AddressLookupTable::lookup` for the slot, the slot hashes and the indexes -/
  lookup : Table → UInt64 → List UInt8 → List UInt8 → Except AddressLookupError (List Pubkey)
  /-- The checks of `SanitizedTransaction::try_create` before the tables are loaded. -/
  sanitize : VersionedTransaction → Except TransactionError Unit
  /-- The rest of `simulate_transaction`. -/
  execute : AccountsDb Program → VersionedTransaction → LoadedAddresses →
    Option (Except FailedTransactionMetadata SimulatedTransactionInfo)

variable {Program Table : Type}

def Runtime.decodes (rt : Runtime Program Table) : Sysvar → List UInt8 → Bool
  | .clock, data => (Clock.parse data).isSome
  | sysvar, data => rt.decodesSysvar sysvar data

namespace AccountsDb

/-- `get_clock`. -/
def clock? (db : AccountsDb Program) : Option Clock := (db.sysvarCache .clock).bind Clock.parse

/-- `reset` and `fill_missing_entries`. -/
def refill (rt : Runtime Program Table) (accounts : Pubkey → Option Account) (sysvar : Sysvar) :
    Option (List UInt8) :=
  ((accounts sysvar.id).map Account.data).filter (rt.decodes sysvar)

def maybeHandleSysvarAccount (rt : Runtime Program Table) (db : AccountsDb Program)
    (pubkey : Pubkey) (account : Account) : Except LiteSvmError Unit × AccountsDb Program :=
  let filled := refill rt (Function.update db.inner pubkey (some account))
  match sysvarAt pubkey with
  | none => (.ok (), db)
  | some .clock =>
      match Clock.parse account.data with
      | none => (.error (.invalidSysvarData .clock), db)
      | some parsed => (.ok (), { db with programsSlot := parsed.slot, sysvarCache := filled })
  | some sysvar =>
      let db := { db with sysvarCache := filled }
      if rt.decodesSysvar sysvar account.data then (.ok (), db)
      else (.error (.invalidSysvarData sysvar), db)

/-- What the database shows of an account that is added: one without lamports is removed. -/
def shown (account : Account) : Option Account :=
  if account.lamports = 0 then none else some account

/-- What `add_account` does before it stores the account. -/
def checkAccount (rt : Runtime Program Table) (db : AccountsDb Program) (pubkey : Pubkey)
    (account : Account) : Option (Except LiteSvmError Unit × AccountsDb Program) :=
  if account.executable ∧ pubkey ≠ noOwner ∧ account.owner ≠ nativeLoader then
    match db.clock? with
    | none => none
    | some clock =>
        match rt.loadProgram db clock.slot account with
        | .error e => some (.error (.instruction e), db)
        | .ok program =>
            some (.ok (),
              { db with programsCache := Function.update db.programsCache pubkey (some program) })
  else some (maybeHandleSysvarAccount rt db pubkey account)

def addAccount (rt : Runtime Program Table) (db : AccountsDb Program) (pubkey : Pubkey)
    (account : Account) : Option (Except LiteSvmError Unit × AccountsDb Program) :=
  match checkAccount rt db pubkey account with
  | none => none
  | some (.error e, db) => some (.error e, db)
  | some (.ok (), db) =>
      some (.ok (), { db with inner := Function.update db.inner pubkey (shown account) })

/-- `LiteSVM::set_account`. -/
def setAccount (rt : Runtime Program Table) (db : AccountsDb Program) (address : Pubkey)
    (data : Account) : Option (Except LiteSvmError Unit × AccountsDb Program) :=
  addAccount rt db address data

/-- The account of `set_sysvar` for the clock. -/
def clockAccount (clock : Clock) : Account where
  lamports := 1
  data := clock.bytes
  owner := sysvarProgram
  executable := false
  rentEpoch := 0

/-- `LiteSVM::warp_to_slot`: `get_sysvar` and `set_sysvar` of the clock. -/
def warpToSlot (rt : Runtime Program Table) (db : AccountsDb Program) (slot : UInt64) :
    Option (AccountsDb Program) :=
  match (db.inner Sysvar.clock.id).bind fun account => Clock.parse account.data with
  | none => none
  | some clock =>
      match addAccount rt db Sysvar.clock.id (clockAccount { clock with slot := slot }) with
      | some (.ok (), db) => some db
      | _ => none

/-! ## Address tables -/

def loadLookupTableAddresses (rt : Runtime Program Table) (db : AccountsDb Program)
    (lookup : MessageAddressTableLookup) : Option (Except AddressLookupError LoadedAddresses) :=
  match db.inner lookup.accountKey with
  | none => some (.error .lookupTableAccountNotFound)
  | some tableAccount =>
      if tableAccount.owner = addressLookupTableProgram then
        match db.sysvarCache .slotHashes, db.clock? with
        | some slotHashes, some clock =>
            match rt.deserializeTable tableAccount.data with
            | none => some (.error .invalidAccountData)
            | some table => some do
                let writable ← rt.lookup table clock.slot slotHashes lookup.writableIndexes
                let readonly ← rt.lookup table clock.slot slotHashes lookup.readonlyIndexes
                return { writable := writable, readonly := readonly }
        | _, _ => none
      else some (.error .invalidAccountOwner)

/-- `load_addresses`: the first error ends it. -/
def loadAddresses (rt : Runtime Program Table) (db : AccountsDb Program) :
    List MessageAddressTableLookup → Option (Except AddressLookupError LoadedAddresses)
  | [] => some (.ok { writable := [], readonly := [] })
  | lookup :: lookups =>
      match loadLookupTableAddresses rt db lookup with
      | none => none
      | some (.error e) => some (.error e)
      | some (.ok loaded) =>
          (loadAddresses rt db lookups).map fun rest => rest.map fun later => {
            writable := loaded.writable ++ later.writable
            readonly := loaded.readonly ++ later.readonly }

/-- `LiteSVM::simulate_transaction`. -/
def simulateTransaction (rt : Runtime Program Table) (db : AccountsDb Program)
    (tx : VersionedTransaction) :
    Option (Except FailedTransactionMetadata SimulatedTransactionInfo) :=
  let failed := fun err : TransactionError => some <| .error {
    err := err, computeUnitsConsumed := 0, logs := [] }
  match rt.sanitize tx with
  | .error e => failed e
  | .ok () =>
      match loadAddresses rt db tx.message.addressTableLookups with
      | none => none
      | some (.error e) => failed e.toTransactionError
      | some (.ok loaded) => rt.execute db tx loaded

end AccountsDb

/-! ## What an account that is set changes -/

theorem sysvarAt_clock : sysvarAt Sysvar.clock.id = some .clock :=
  List.find?_cons_of_pos (decide_eq_true rfl)

theorem fromLe64_window (before after : List UInt8) {data : List UInt8} {p : Nat} {x : UInt64}
    (shape : data = before ++ (le64 x ++ after)) (start : before.length = p) :
    fromLe64 (window data p 8) = x := by
  have read : window (before ++ (le64 x ++ after)) before.length (le64 x).length = le64 x :=
    window_append_mid
  rw [length_le64, ← shape, start] at read
  rw [read, fromLe64_le64]

/-- A clock is read back from its bytes. -/
theorem Clock.parse_bytes (clock : Clock) : Clock.parse clock.bytes = some clock := by
  rcases clock with ⟨slot, start, epoch, leader, unix⟩
  have long : ¬ (Clock.bytes ⟨slot, start, epoch, leader, unix⟩).length < 40 := by
    simp [Clock.bytes]
  have first : fromLe64 (window (Clock.bytes ⟨slot, start, epoch, leader, unix⟩) 0 8) = slot :=
    fromLe64_window [] (le64 start.toUInt64 ++ (le64 epoch ++ (le64 leader ++
      le64 unix.toUInt64))) (by simp [Clock.bytes]) rfl
  have second : fromLe64 (window (Clock.bytes ⟨slot, start, epoch, leader, unix⟩) 8 8) =
      start.toUInt64 :=
    fromLe64_window (le64 slot) (le64 epoch ++ (le64 leader ++ le64 unix.toUInt64))
      (by simp [Clock.bytes]) (by simp)
  have third : fromLe64 (window (Clock.bytes ⟨slot, start, epoch, leader, unix⟩) 16 8) =
      epoch :=
    fromLe64_window (le64 slot ++ le64 start.toUInt64) (le64 leader ++ le64 unix.toUInt64)
      (by simp [Clock.bytes]) (by simp)
  have fourth : fromLe64 (window (Clock.bytes ⟨slot, start, epoch, leader, unix⟩) 24 8) =
      leader :=
    fromLe64_window (le64 slot ++ le64 start.toUInt64 ++ le64 epoch) (le64 unix.toUInt64)
      (by simp [Clock.bytes]) (by simp)
  have fifth : fromLe64 (window (Clock.bytes ⟨slot, start, epoch, leader, unix⟩) 32 8) =
      unix.toUInt64 :=
    fromLe64_window (le64 slot ++ le64 start.toUInt64 ++ le64 epoch ++ le64 leader) []
      (by simp [Clock.bytes]) (by simp)
  rw [Clock.parse, if_neg long, first, second, third, fourth, fifth, Int64.toInt64_toUInt64,
    Int64.toInt64_toUInt64]

namespace AccountsDb

variable {rt : Runtime Program Table} {db db' : AccountsDb Program} {pubkey : Pubkey}
  {account : Account} {result : Except LiteSvmError Unit}

/-- Whether LiteSVM takes an account that is not executable: at the address of a sysvar its
data must decode. -/
def accepts (rt : Runtime Program Table) (pubkey : Pubkey) (account : Account) : Bool :=
  match sysvarAt pubkey with
  | none => true
  | some sysvar => rt.decodes sysvar account.data

theorem inner_of_checkAccount (checked : checkAccount rt db pubkey account = some (result, db')) :
    db'.inner = db.inner := by
  unfold checkAccount at checked
  split at checked
  · split at checked
    · cases checked
    · split at checked <;> cases checked <;> rfl
  · unfold maybeHandleSysvarAccount at checked
    dsimp only at checked
    split at checked
    · cases checked
      rfl
    · split at checked <;> cases checked <;> rfl
    · split at checked <;> cases checked <;> rfl

/-- **The frame of `add_account`.** It changes the account that is added, or none. -/
theorem inner_of_addAccount (added : addAccount rt db pubkey account = some (result, db')) :
    (result = .ok () ∧ db'.inner = Function.update db.inner pubkey (shown account)) ∨
      (∃ e, result = .error e) ∧ db'.inner = db.inner := by
  unfold addAccount at added
  split at added
  · cases added
  · rename_i e mid checked
    cases added
    exact Or.inr ⟨⟨e, rfl⟩, inner_of_checkAccount checked⟩
  · rename_i mid checked
    cases added
    refine Or.inl ⟨rfl, ?_⟩
    rw [inner_of_checkAccount checked]

/-- What a sysvar account leaves in the cache, if LiteSVM takes it. A clock that does not
decode changes nothing. -/
theorem maybeHandleSysvarAccount_cases (rt : Runtime Program Table) (db : AccountsDb Program)
    (pubkey : Pubkey) (account : Account) :
    ((maybeHandleSysvarAccount rt db pubkey account).1 = .ok () ↔ accepts rt pubkey account) ∧
      ((maybeHandleSysvarAccount rt db pubkey account).2.sysvarCache =
          refill rt (Function.update db.inner pubkey (some account)) ∧
          (sysvarAt pubkey = some .clock → accepts rt pubkey account) ∨
        (maybeHandleSysvarAccount rt db pubkey account).2.sysvarCache = db.sysvarCache ∧
          (sysvarAt pubkey = none ∨ accepts rt pubkey account = false)) := by
  unfold maybeHandleSysvarAccount accepts
  cases found : sysvarAt pubkey with
  | none => simp
  | some sysvar =>
      cases sysvar with
      | clock =>
          cases parsed : Clock.parse account.data with
          | none => simp [Runtime.decodes, parsed]
          | some clock => simp [Runtime.decodes, parsed]
      | _ =>
          dsimp only [Runtime.decodes]
          split <;> simp [*]

theorem checkAccount_of_plain (db : AccountsDb Program) (pubkey : Pubkey)
    (plain : account.executable = false) :
    checkAccount rt db pubkey account = some (maybeHandleSysvarAccount rt db pubkey account) := by
  rw [checkAccount, if_neg]
  intro program
  rw [plain] at program
  exact Bool.false_ne_true program.1

/-- An account that is not executable is taken exactly when it is accepted. -/
theorem ok_iff_of_plain (plain : account.executable = false)
    (added : addAccount rt db pubkey account = some (result, db')) :
    result = .ok () ↔ accepts rt pubkey account := by
  have handled := (maybeHandleSysvarAccount_cases rt db pubkey account).1
  unfold addAccount at added
  rw [checkAccount_of_plain db pubkey plain] at added
  generalize maybeHandleSysvarAccount rt db pubkey account = handling at handled added
  rcases handling with ⟨e | none, mid⟩ <;> cases added <;> exact handled

/-- The sysvar cache is refilled from the accounts with the one that is added, or kept. -/
theorem sysvarCache_of_addAccount
    (added : addAccount rt db pubkey account = some (result, db')) :
    db'.sysvarCache = refill rt (Function.update db.inner pubkey (some account)) ∧
        (sysvarAt pubkey = some .clock → accepts rt pubkey account) ∨
      db'.sysvarCache = db.sysvarCache ∧ (account.executable = true ∨
        sysvarAt pubkey = none ∨ accepts rt pubkey account = false) := by
  have kept : ∀ {result : Except LiteSvmError Unit} {mid : AccountsDb Program},
      checkAccount rt db pubkey account = some (result, mid) →
        mid.sysvarCache = refill rt (Function.update db.inner pubkey (some account)) ∧
            (sysvarAt pubkey = some .clock → accepts rt pubkey account) ∨
          mid.sysvarCache = db.sysvarCache ∧ (account.executable = true ∨
            sysvarAt pubkey = none ∨ accepts rt pubkey account = false) := by
    intro result mid checked
    unfold checkAccount at checked
    split at checked
    · rename_i program
      split at checked
      · cases checked
      · split at checked <;> cases checked <;> exact Or.inr ⟨rfl, Or.inl program.1⟩
    · have handled := (maybeHandleSysvarAccount_cases rt db pubkey account).2
      rw [Option.some.inj checked] at handled
      exact handled.imp_right fun same => ⟨same.1, Or.inr same.2⟩
  unfold addAccount at added
  split at added
  · cases added
  · rename_i e mid checked
    cases added
    exact kept checked
  · rename_i mid checked
    cases added
    exact (kept checked :)

end AccountsDb

end ArbBot
