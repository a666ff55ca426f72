import ArbBot.Foundation.Register
import ArbBot.Solana
import Mathlib.Data.Prod.Lex

/-!
# The account cache

`AccountCache` holds the accounts that the Yellowstone stream delivers and those that
`get_or_fetch` reads over RPC. `runStream` handles the messages of one connection and
`subscription` those of all connections, one after the other.

The stream task keeps the last message, not the latest: the slot of the stream is the slot
of the last account message, and a cached account comes from the last message that was
accepted for its pubkey (`subscription_lastWrite`). The two agree where the messages come in order
(`stream_fold`).
-/

namespace ArbBot

open Foundation

/-! ## Data -/

structure Account where
  lamports : UInt64
  data : List UInt8
  owner : Pubkey
  executable : Bool
  rentEpoch : UInt64
  deriving DecidableEq, Repr

/-- `SubscribeUpdateAccountInfo`. -/
structure AccountInfo where
  pubkey : List UInt8
  lamports : UInt64
  owner : List UInt8
  executable : Bool
  rentEpoch : UInt64
  data : List UInt8
  writeVersion : UInt64
  deriving DecidableEq, Repr

/-- `SubscribeUpdateAccount`. -/
structure AccountUpdate where
  slot : UInt64
  account : Option AccountInfo
  deriving DecidableEq, Repr

/-- What the stream yields. -/
inductive UpdateOneof where
  | account (update : AccountUpdate)
  | ping
  | other
  deriving DecidableEq, Repr

/-- The shared map and the slot of the stream. -/
structure AccountCache where
  inner : Pubkey → Option Account
  streamSlot : UInt64

/-! ## The stream task -/

/-- `Pubkey::try_from`. -/
def pubkeyOf (bytes : List UInt8) : Option Pubkey :=
  if full : bytes.length = 32 then some ⟨bytes, full⟩ else none

/-- `[0u8; 32]`, the owner of an account whose owner is malformed. -/
def noOwner : Pubkey where
  bytes := [0, 0, 0, 0, 0, 0, 0, 0, 0, 0, 0, 0, 0, 0, 0, 0,
    0, 0, 0, 0, 0, 0, 0, 0, 0, 0, 0, 0, 0, 0, 0, 0]
  length_bytes := rfl

def AccountInfo.toAccount (info : AccountInfo) : Account where
  lamports := info.lamports
  data := info.data
  owner := (pubkeyOf info.owner).getD noOwner
  executable := info.executable
  rentEpoch := info.rentEpoch

namespace AccountCache

def new : AccountCache where
  inner := fun _ => none
  streamSlot := 0

def seedSlot (cache : AccountCache) (slot : UInt64) : AccountCache :=
  { cache with streamSlot := slot }

def get (cache : AccountCache) (pubkey : Pubkey) : Option Account := cache.inner pubkey

def insert (cache : AccountCache) (pubkey : Pubkey) (account : Account) : AccountCache :=
  { cache with inner := Function.update cache.inner pubkey (some account) }

/-- `get_or_fetch` with the answer of the RPC node. -/
def getOrFetch (showPubkey : Pubkey → String) (cache : AccountCache) (pubkey : Pubkey)
    (getAccount : Pubkey → Except String Account) : Except Failure Account × AccountCache :=
  match cache.get pubkey with
  | some a => (.ok a, cache)
  | none =>
      match getAccount pubkey with
      | .error e => (.error (.error ["RPC fetch of " ++ showPubkey pubkey ++ " failed", e]), cache)
      | .ok account => (.ok account, cache.insert pubkey account)

/-- `prefetch`; errors are logged. -/
def prefetch (showPubkey : Pubkey → String) (cache : AccountCache) (pubkeys : List Pubkey)
    (getAccount : Pubkey → Except String Account) : AccountCache :=
  pubkeys.foldl (fun cache pk => (cache.getOrFetch showPubkey pk getAccount).2) cache

/-- One turn of the loop of `run_stream`. -/
def handle (cache : AccountCache) : UpdateOneof → AccountCache
  | .account a =>
      let cache := { cache with streamSlot := a.slot }
      match a.account with
      | none => cache
      | some info =>
          match pubkeyOf info.pubkey with
          | none => cache
          | some pk => cache.insert pk info.toAccount
  | .ping => cache
  | .other => cache

/-- The messages of one connection. -/
def runStream (cache : AccountCache) (updates : List UpdateOneof) : AccountCache :=
  updates.foldl handle cache

/-- One connection after the other: a reconnect keeps the map and the slot. -/
def subscription (cache : AccountCache) (connections : List (List UpdateOneof)) :
    AccountCache :=
  connections.foldl runStream cache

theorem subscription_eq (cache : AccountCache) (connections : List (List UpdateOneof)) :
    cache.subscription connections = cache.runStream connections.flatten :=
  List.foldl_flatten.symm

end AccountCache

/-! ## What a message writes -/

/-- The slot an update stores. -/
def UpdateOneof.slot? : UpdateOneof → Option UInt64
  | .account a => some a.slot
  | _ => none

/-- An account as a message delivers it. -/
structure Delivery where
  slot : UInt64
  info : AccountInfo
  deriving DecidableEq, Repr

/-- What an update delivers for the pubkey, if it is accepted. -/
def UpdateOneof.delivery? (pubkey : Pubkey) : UpdateOneof → Option Delivery
  | .account { slot := slot, account := some info } =>
      if pubkeyOf info.pubkey = some pubkey then some { slot := slot, info := info } else none
  | _ => none

/-- The order of the writes of an account on the chain. -/
def Delivery.rank (d : Delivery) : Nat ×ₗ Nat :=
  toLex (d.slot.toNat, d.info.writeVersion.toNat)

namespace AccountCache

variable {cache : AccountCache} {updates : List UpdateOneof} {pubkey : Pubkey}

theorem streamSlot_handle (cache : AccountCache) (update : UpdateOneof) :
    (cache.handle update).streamSlot = update.slot?.getD cache.streamSlot := by
  cases update with
  | account a =>
      rcases a with ⟨slot, _ | info⟩
      · rfl
      · dsimp only [handle]
        cases pubkeyOf info.pubkey with
        | none => rfl
        | some pk => rfl
  | ping => rfl
  | other => rfl

theorem inner_handle (cache : AccountCache) (update : UpdateOneof) (pubkey : Pubkey) :
    (cache.handle update).inner pubkey =
      ((update.delivery? pubkey).map fun d => some d.info.toAccount).getD
        (cache.inner pubkey) := by
  cases update with
  | account a =>
      rcases a with ⟨slot, _ | info⟩
      · rfl
      · dsimp only [handle, UpdateOneof.delivery?]
        cases pubkeyOf info.pubkey with
        | none => rfl
        | some pk =>
            by_cases same : pk = pubkey
            · subst same
              simp [insert]
            · have other : ¬ some pk = some pubkey := fun equal => same (Option.some.inj equal)
              simp only [insert, if_neg other, Function.update_of_ne (Ne.symm same), Option.map_none,
                Option.getD_none]
  | ping => rfl
  | other => rfl

/-- **The fold.** Every register holds the last write to it, over all connections. -/
theorem subscription_lastWrite (cache : AccountCache) (connections : List (List UpdateOneof)) :
    (cache.subscription connections).streamSlot =
        (lastWrite UpdateOneof.slot? connections.flatten).getD cache.streamSlot ∧
      ∀ pubkey, (cache.subscription connections).inner pubkey =
        ((lastWrite (UpdateOneof.delivery? pubkey) connections.flatten).map
          fun d => d.info.toAccount).or (cache.inner pubkey) := by
  rw [subscription_eq, runStream]
  refine ⟨read_foldl streamSlot streamSlot_handle cache _, fun pubkey => ?_⟩
  have held := read_foldl (fun cache => cache.inner pubkey)
    (fun cache update => inner_handle cache update pubkey) cache connections.flatten
  rw [lastWrite_map] at held
  rw [held]
  cases lastWrite (UpdateOneof.delivery? pubkey) connections.flatten with
  | none => rfl
  | some d => rfl

end AccountCache

/-! ## The latest state -/

/-- The slot is the greatest of the seeded one and those of the messages. -/
def LatestSlot (seed : UInt64) (updates : List UpdateOneof) (slot : UInt64) : Prop :=
  slot ∈ seed :: updates.filterMap UpdateOneof.slot? ∧
    ∀ slot' ∈ seed :: updates.filterMap UpdateOneof.slot?, slot' ≤ slot

/-- The account comes from a delivery of greatest rank, if there is a delivery. -/
def LatestAccount (pubkey : Pubkey) (updates : List UpdateOneof) (account : Option Account) :
    Prop :=
  updates.filterMap (UpdateOneof.delivery? pubkey) ≠ [] →
    ∃ d ∈ updates.filterMap (UpdateOneof.delivery? pubkey), account = some d.info.toAccount ∧
      ∀ d' ∈ updates.filterMap (UpdateOneof.delivery? pubkey), d'.rank ≤ d.rank

/-- The slots never go back, from the seeded one on. -/
def SlotsInOrder (seed : UInt64) (updates : List UpdateOneof) : Prop :=
  (seed :: updates.filterMap UpdateOneof.slot?).Pairwise (· ≤ ·)

/-- The deliveries for the pubkey never go back. -/
def DeliveriesInOrder (pubkey : Pubkey) (updates : List UpdateOneof) : Prop :=
  (updates.filterMap (UpdateOneof.delivery? pubkey)).Pairwise fun d d' => d.rank ≤ d'.rank

theorem latestSlot_of_inOrder {seed : UInt64} {updates : List UpdateOneof}
    (ordered : SlotsInOrder seed updates) :
    LatestSlot seed updates ((lastWrite UpdateOneof.slot? updates).getD seed) := by
  rcases List.pairwise_cons.mp ordered with ⟨fromSeed, later⟩
  cases last : lastWrite UpdateOneof.slot? updates with
  | none =>
      have nothing : updates.filterMap UpdateOneof.slot? = [] := List.getLast?_eq_none_iff.mp last
      simp [LatestSlot, nothing]
  | some slot =>
      have member := lastWrite_mem last
      have greatest : ∀ slot' ∈ updates.filterMap UpdateOneof.slot?, slot'.toNat ≤ slot.toNat :=
        lastWrite_greatest later last
      refine ⟨List.mem_cons_of_mem _ member, ?_⟩
      intro slot' member'
      rcases List.mem_cons.mp member' with rfl | inside
      · exact fromSeed slot member
      · exact UInt64.le_iff_toNat_le.mpr (greatest slot' inside)

theorem latestAccount_of_inOrder {pubkey : Pubkey} {updates : List UpdateOneof}
    (ordered : DeliveriesInOrder pubkey updates) (before : Option Account) :
    LatestAccount pubkey updates (((lastWrite (UpdateOneof.delivery? pubkey) updates).map
      fun d => d.info.toAccount).or before) := by
  intro delivered
  cases last : lastWrite (UpdateOneof.delivery? pubkey) updates with
  | none => exact absurd (List.getLast?_eq_none_iff.mp last) delivered
  | some d => exact ⟨d, lastWrite_mem last, rfl, lastWrite_greatest ordered last⟩

/-- **The last message wins.** After any messages over any connections the slot is that of
the last account message, whether or not its account was accepted, and each cached account
is from the last message that was accepted for its pubkey. These are the greatest slot and
the latest account where the messages come in order. -/
theorem stream_fold (cache : AccountCache) (connections : List (List UpdateOneof)) :
    let updates := connections.flatten
    let after := cache.subscription connections
    after.streamSlot = (lastWrite UpdateOneof.slot? updates).getD cache.streamSlot ∧
      (∀ pubkey, after.get pubkey = ((lastWrite (UpdateOneof.delivery? pubkey) updates).map
        fun d => d.info.toAccount).or (cache.get pubkey)) ∧
      (SlotsInOrder cache.streamSlot updates →
        LatestSlot cache.streamSlot updates after.streamSlot) ∧
      ∀ pubkey, DeliveriesInOrder pubkey updates →
        LatestAccount pubkey updates (after.get pubkey) := by
  intro updates after
  obtain ⟨slot, accounts⟩ := cache.subscription_lastWrite connections
  refine ⟨slot, accounts, ?_, ?_⟩
  · intro ordered
    rw [slot]
    exact latestSlot_of_inOrder ordered
  · intro pubkey ordered
    rw [AccountCache.get, accounts pubkey]
    exact latestAccount_of_inOrder ordered _

/-! ### A reconnect that replays -/

def pool : AccountInfo where
  pubkey := List.replicate 32 7
  lamports := 2039280
  owner := List.replicate 32 9
  executable := false
  rentEpoch := 0
  data := [1]
  writeVersion := 40

/-- The stream breaks after slot 12, and the next connection begins with slot 11. -/
def replay : List (List UpdateOneof) := [
  [.account { slot := 12, account := some { pool with data := [2], writeVersion := 41 } }],
  [.account { slot := 11, account := some pool }]]

/-- The slot moves back, and the older account replaces the newer one. -/
theorem stream_fold_replay :
    let cache := AccountCache.new.seedSlot 10
    let after := cache.subscription replay
    ¬ LatestSlot cache.streamSlot replay.flatten after.streamSlot ∧
      ¬ LatestAccount ⟨pool.pubkey, rfl⟩ replay.flatten (after.get ⟨pool.pubkey, rfl⟩) := by
  refine ⟨fun latest => ?_, fun latest => ?_⟩
  · exact absurd (latest.2 12 (by decide)) (by decide)
  · rcases latest (by decide) with ⟨d, member, same, greatest⟩
    have deliveries : replay.flatten.filterMap (UpdateOneof.delivery? ⟨pool.pubkey, rfl⟩) = [
        { slot := 12, info := { pool with data := [2], writeVersion := 41 } },
        { slot := 11, info := pool }] := by decide
    rw [deliveries] at member greatest
    rcases List.mem_cons.mp member with rfl | member
    · exact absurd same (by decide)
    · obtain rfl := List.mem_singleton.mp member
      exact absurd (greatest _ (List.mem_cons_self ..)) (by decide)

end ArbBot
