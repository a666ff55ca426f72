import ArbBot.Foundation.Positions
import ArbBot.Rust

/-!
# The Solana SDK

The records of `solana-sdk` that the transaction builder handles, and the SDK itself as a
parameter: `SolanaSdk` lists the calls the bot makes, `SolanaSdk.Lawful` what it relies on.

A v0 message numbers its accounts: first the static keys, then the accounts its lookups
draw from the tables, all writable ones before the read-only ones. `CompilesV0` says what
`v0::Message::try_compile` documents about these numbers, relative to the tables that it
was given.
-/

namespace ArbBot

open Foundation

/-- Why a call gives no value: an error, outermost context first, or a panic. -/
inductive Failure where
  | error (chain : List String)
  | panic (cause : Panic)
  deriving DecidableEq, Repr

/-- The `?` operator on a result, under a context. -/
def orFail {ε α : Type} [ToString ε] (context : List String) : Except ε α → Except Failure α
  | .ok value => .ok value
  | .error e => .error (.error (context ++ [toString e]))

theorem orFail_eq_ok {ε α : Type} [ToString ε] {context : List String} {result : Except ε α}
    {value : α} : orFail context result = .ok value ↔ result = .ok value := by
  cases result <;> simp [orFail]

theorem exists_of_bind_eq_ok {ε α β : Type} {result : Except ε α} {next : α → Except ε β}
    {value : β} (ok : (result >>= next) = .ok value) :
    ∃ mid, result = .ok mid ∧ next mid = .ok value := by
  cases result with
  | error e => cases ok
  | ok mid => exact ⟨mid, rfl, ok⟩

@[ext] structure Pubkey where
  bytes : List UInt8
  length_bytes : bytes.length = 32
  deriving DecidableEq, Repr

instance : Hashable Pubkey where
  hash key := hash key.bytes

inductive ParsePubkeyError where
  | wrongSize
  | invalid
  deriving DecidableEq, Repr

instance : ToString ParsePubkeyError where
  toString
    | .wrongSize => "String is the wrong size"
    | .invalid => "Invalid Base58 string"

/-- The `Debug` form, which a failed `expect` prints. -/
def ParsePubkeyError.debug : ParsePubkeyError → String
  | .wrongSize => "WrongSize"
  | .invalid => "Invalid"

namespace Sdk

structure AccountMeta where
  pubkey : Pubkey
  isSigner : Bool
  isWritable : Bool
  deriving DecidableEq, Repr

structure Instruction where
  programId : Pubkey
  accounts : List AccountMeta
  data : List UInt8
  deriving DecidableEq, Repr

structure AddressLookupTableAccount where
  key : Pubkey
  addresses : List Pubkey
  deriving DecidableEq, Repr

structure CompiledInstruction where
  programIdIndex : UInt8
  accounts : List UInt8
  data : List UInt8
  deriving DecidableEq, Repr

structure MessageAddressTableLookup where
  accountKey : Pubkey
  writableIndexes : List UInt8
  readonlyIndexes : List UInt8
  deriving DecidableEq, Repr

/-- `v0::Message`. -/
structure Message where
  accountKeys : List Pubkey
  instructions : List CompiledInstruction
  addressTableLookups : List MessageAddressTableLookup
  deriving DecidableEq, Repr

/-- `VersionedTransaction` of a v0 message, without its signatures. -/
structure Transaction where
  message : Message
  deriving DecidableEq, Repr

/-- The looked-up accounts in the order of their numbers: table and index. -/
def Message.slots (message : Message) : List (Pubkey × Nat) :=
  message.addressTableLookups.flatMap (fun lookup =>
      lookup.writableIndexes.map fun index => (lookup.accountKey, index.toNat)) ++
    message.addressTableLookups.flatMap fun lookup =>
      lookup.readonlyIndexes.map fun index => (lookup.accountKey, index.toNat)

/-- The entry of the table with the given key. -/
def entryOf (tables : List AddressLookupTableAccount) (slot : Pubkey × Nat) : Option Pubkey :=
  (tables.find? (·.key == slot.1)).bind (·.addresses[slot.2]?)

/-- The account with the given number. -/
def Message.accountAt (message : Message) (tables : List AddressLookupTableAccount)
    (index : UInt8) : Option Pubkey :=
  if index.toNat < message.accountKeys.length then message.accountKeys[index.toNat]?
  else (message.slots[index.toNat - message.accountKeys.length]?).bind (entryOf tables)

/-- A key that may come from a table: an account that neither pays nor signs, and is no
program. -/
structure Drawable (payer : Pubkey) (instructions : List Instruction) (key : Pubkey) :
    Prop where
  account : ∃ ix ∈ instructions, ∃ account ∈ ix.accounts, account.pubkey = key
  notPayer : key ≠ payer
  notProgram : ∀ ix ∈ instructions, ix.programId ≠ key
  notSigner : ∀ ix ∈ instructions, ∀ account ∈ ix.accounts, account.pubkey = key →
    account.isSigner = false

/-- The first of the tables that holds the key. -/
def firstHolding (tables : List AddressLookupTableAccount) (key : Pubkey) :
    Option AddressLookupTableAccount :=
  tables.find? (·.addresses.contains key)

theorem mem_of_firstHolding {tables : List AddressLookupTableAccount} {key : Pubkey}
    {table : AddressLookupTableAccount} (first : firstHolding tables key = some table) :
    table ∈ tables ∧ key ∈ table.addresses := by
  unfold firstHolding at first
  have holds := List.find?_some first
  exact ⟨List.mem_of_find?_eq_some first, List.contains_iff_mem.mp holds⟩

/-- The message numbers the accounts of the instructions, relative to the tables. -/
structure CompilesV0 (payer : Pubkey) (instructions : List Instruction)
    (tables : List AddressLookupTableAccount) (message : Message) : Prop where
  /-- The numbers of an instruction are those of its program and its accounts. -/
  resolved : List.Forall₂ (fun ix compiled =>
    message.accountAt tables compiled.programIdIndex = some ix.programId ∧
      List.Forall₂ (fun account index =>
        message.accountAt tables index = some account.pubkey) ix.accounts compiled.accounts)
    instructions message.instructions
  /-- A lookup draws a key from the first table that holds it, by its first position. -/
  drawn : ∀ slot ∈ message.slots, ∃ key table, Drawable payer instructions key ∧
    firstHolding tables key = some table ∧ slot = (table.key, table.addresses.idxOf key)
  /-- A key that a table holds is not kept as a static one. -/
  kept : ∀ key ∈ message.accountKeys, Drawable payer instructions key →
    firstHolding tables key = none

end Sdk

open Sdk

/-- The calls of the SDK. -/
structure SolanaSdk (Hash Keypair : Type) where
  /-- `Pubkey::from_str` -/
  parsePubkey : String → Except ParsePubkeyError Pubkey
  /-- `Pubkey` as text -/
  showPubkey : Pubkey → String
  /-- `Signer::pubkey` -/
  pubkey : Keypair → Pubkey
  /-- `system_instruction::transfer` -/
  transfer : Pubkey → Pubkey → UInt64 → Instruction
  /-- `v0::Message::try_compile` -/
  tryCompile : Pubkey → List Instruction → List AddressLookupTableAccount → Hash →
    Except String Message
  /-- `VersionedTransaction::try_new` with one signer -/
  tryNew : Message → Keypair → Except String Transaction

/-- What the bot relies on. -/
structure SolanaSdk.Lawful {Hash Keypair : Type} (sdk : SolanaSdk Hash Keypair) : Prop where
  compiles : ∀ {payer instructions tables blockhash message},
    (tables.map AddressLookupTableAccount.key).Nodup →
      sdk.tryCompile payer instructions tables blockhash = .ok message →
        CompilesV0 payer instructions tables message
  signs : ∀ {message payer tx}, sdk.tryNew message payer = .ok tx → tx.message = message

end ArbBot
