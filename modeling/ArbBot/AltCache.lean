import ArbBot.Foundation.Runs
import ArbBot.Solana
import Std.Data.HashMap.Lemmas

/-!
# The lookup-table cache

`get_or_fetch` decodes the data of a lookup table, drops the tip accounts from it and
keeps the rest under the key of the table. `altMachine` runs the calls of the cache over
tables with fixed raw data; `reach_filtered` says what every reachable cache holds.
-/

namespace ArbBot

open Foundation Sdk

/-! ## Raw tables -/

def headerSize : Nat := 56

/-- Entry `i` of the raw data of a table: the 32 bytes at `56 + 32 * i`. -/
def rawEntry (data : List UInt8) (i : Nat) : Option Pubkey :=
  let bytes := window data (headerSize + 32 * i) 32
  if full : bytes.length = 32 then some ⟨bytes, full⟩ else none

def deserializeAltAddresses (data : List UInt8) : Except Failure (List Pubkey) :=
  if data.length < headerSize then
    .error (.error ["ALT account data too short: " ++ toString data.length ++ " bytes"])
  else
    let addressesData := data.drop headerSize
    if addressesData.length % 32 ≠ 0 then
      .error (.error ["ALT addresses data has invalid length: " ++
        toString addressesData.length ++ " (not a multiple of 32)"])
    else
      -- a chunk has 32 bytes, so `try_into().unwrap()` does not panic
      .ok ((chunksExact 32 addressesData).pmap Pubkey.mk
        fun _ member => length_of_mem_chunksExact member)

/-- The addresses of a table, if its data is accepted. -/
def rawAddresses (data : List UInt8) : List Pubkey :=
  match deserializeAltAddresses data with
  | .ok addresses => addresses
  | .error _ => []

/-- The data is that of a lookup table. -/
def Accepted (data : List UInt8) : Prop :=
  deserializeAltAddresses data = .ok (rawAddresses data)

theorem accepted_of_deserialize {data : List UInt8} {addresses : List Pubkey}
    (decoded : deserializeAltAddresses data = .ok addresses) :
    Accepted data ∧ rawAddresses data = addresses := by
  rw [Accepted, rawAddresses, decoded]
  exact ⟨rfl, rfl⟩

theorem window_drop (data : List UInt8) (p q n : Nat) :
    window (data.drop p) q n = window data (p + q) n := by
  rw [window, List.drop_drop, window]

/-- What is decoded are the raw entries. -/
theorem getElem?_rawAddresses {data : List UInt8} (accepted : Accepted data) (i : Nat) :
    (rawAddresses data)[i]? = rawEntry data i := by
  unfold Accepted deserializeAltAddresses at accepted
  split at accepted
  · cases accepted
  rename_i long
  dsimp only at accepted
  split at accepted
  · cases accepted
  rename_i whole
  rw [← Except.ok.inj accepted, List.getElem?_pmap, rawEntry]
  simp only [List.length_drop, ne_eq, not_not] at whole
  by_cases inside : i < (data.drop headerSize).length / 32
  · have block := getElem?_chunksExact inside
    have full : (window data (headerSize + 32 * i) 32).length = 32 := by
      rw [← window_drop]
      exact length_of_mem_chunksExact (List.mem_of_getElem? block)
    simp only [block, window_drop, Option.pmap_some, dif_pos full]
  · have none : (chunksExact 32 (data.drop headerSize))[i]? = none := by
      rw [List.getElem?_eq_none_iff, length_chunksExact]
      exact Nat.not_lt.mp inside
    have short : ¬ (window data (headerSize + 32 * i) 32).length = 32 := by
      rw [List.length_drop] at inside
      rw [window, List.length_take, List.length_drop]
      omega
    simp only [none, Option.pmap_none, dif_neg short]

/-! ## The cache -/

structure AltCache where
  inner : Std.HashMap Pubkey AddressLookupTableAccount
  tipPubkeys : List Pubkey

namespace AltCache

def new (tipPubkeys : List Pubkey) : AltCache where
  inner := ∅
  tipPubkeys := tipPubkeys

/-- `get_or_fetch` with the answer of the RPC node for the table. -/
def getOrFetch (showPubkey : Pubkey → String) (cache : AltCache) (pubkey : Pubkey)
    (getAccount : Pubkey → Except String (List UInt8)) :
    Except Failure AddressLookupTableAccount × AltCache :=
  match cache.inner[pubkey]? with
  | some alt => (.ok alt, cache)
  | none =>
      match getAccount pubkey with
      | .error e =>
          (.error (.error ["failed to fetch ALT " ++ showPubkey pubkey ++ ": " ++ e]), cache)
      | .ok data =>
          match deserializeAltAddresses data with
          | .error e => (.error e, cache)
          | .ok addresses =>
              let alt : AddressLookupTableAccount := {
                key := pubkey
                addresses := addresses.filter fun addr => !cache.tipPubkeys.contains addr }
              (.ok alt, { cache with inner := cache.inner.insert pubkey alt })

def clear (cache : AltCache) : AltCache :=
  { cache with inner := ∅ }

end AltCache

/-! ## Runs -/

/-- What the cache keeps of a raw table. -/
def filteredTable (tips : List Pubkey) (raw : Pubkey → List UInt8) (key : Pubkey) :
    AddressLookupTableAccount where
  key := key
  addresses := (rawAddresses (raw key)).filter fun addr => !tips.contains addr

/-- The RPC node answers with the raw data of the accounts, if it answers. -/
def Answers (raw : Pubkey → List UInt8) (getAccount : Pubkey → Except String (List UInt8)) :
    Prop :=
  ∀ key data, getAccount key = .ok data → data = raw key

/-- Every cached table is a raw one without the tips. -/
structure Filtered (tips : List Pubkey) (raw : Pubkey → List UInt8) (cache : AltCache) :
    Prop where
  tips_eq : cache.tipPubkeys = tips
  table : ∀ key alt, cache.inner[key]? = some alt →
    Accepted (raw key) ∧ alt = filteredTable tips raw key

inductive AltCall where
  | getOrFetch (pubkey : Pubkey) (getAccount : Pubkey → Except String (List UInt8))
  | clear

/-- Any calls, on a new cache. -/
def altMachine (showPubkey : Pubkey → String) (tips : List Pubkey)
    (raw : Pubkey → List UInt8) : Machine AltCache AltCall where
  start cache := cache = .new tips
  step cache call cache' :=
    match call with
    | .getOrFetch pubkey getAccount =>
        Answers raw getAccount ∧ cache' = (cache.getOrFetch showPubkey pubkey getAccount).2
    | .clear => cache' = cache.clear

section Runs

variable {showPubkey : Pubkey → String} {tips : List Pubkey} {raw : Pubkey → List UInt8}
  {cache cache' : AltCache} {pubkey : Pubkey}
  {getAccount : Pubkey → Except String (List UInt8)}

theorem filtered_new : Filtered tips raw (.new tips) where
  tips_eq := rfl
  table key alt found := by simp [AltCache.new] at found

theorem Filtered.clear (filtered : Filtered tips raw cache) : Filtered tips raw cache.clear where
  tips_eq := filtered.tips_eq
  table key alt found := by simp [AltCache.clear] at found

theorem Filtered.insert (filtered : Filtered tips raw cache) (accepted : Accepted (raw pubkey)) :
    Filtered tips raw
      { cache with inner := cache.inner.insert pubkey (filteredTable tips raw pubkey) } where
  tips_eq := filtered.tips_eq
  table key alt found := by
    rw [Std.HashMap.getElem?_insert] at found
    split at found
    · rename_i same
      obtain rfl := eq_of_beq same
      exact ⟨accepted, (Option.some.inj found).symm⟩
    · exact filtered.table key alt found

/-- **One fetch.** The cache stays filtered, and a table that is returned is the filtered
one. -/
theorem Filtered.getOrFetch (filtered : Filtered tips raw cache)
    (answers : Answers raw getAccount) :
    Filtered tips raw (cache.getOrFetch showPubkey pubkey getAccount).2 ∧
      ∀ alt, (cache.getOrFetch showPubkey pubkey getAccount).1 = .ok alt →
        Accepted (raw pubkey) ∧ alt = filteredTable tips raw pubkey := by
  unfold AltCache.getOrFetch
  cases cached : cache.inner[pubkey]? with
  | some alt =>
      refine ⟨filtered, ?_⟩
      intro alt' same
      obtain rfl := Except.ok.inj same
      exact filtered.table pubkey alt cached
  | none =>
      cases answer : getAccount pubkey with
      | error e => exact ⟨filtered, fun alt absent => by cases absent⟩
      | ok data =>
          obtain rfl := answers pubkey data answer
          dsimp only
          cases decoded : deserializeAltAddresses (raw pubkey) with
          | error e => exact ⟨filtered, fun alt absent => by cases absent⟩
          | ok addresses =>
              obtain ⟨accepted, rfl⟩ := accepted_of_deserialize decoded
              have inserted := filtered.insert accepted
              rw [filteredTable, ← filtered.tips_eq] at inserted
              refine ⟨filtered.tips_eq ▸ inserted, ?_⟩
              intro alt same
              rw [← Except.ok.inj same, filteredTable, filtered.tips_eq]
              exact ⟨accepted, rfl⟩

theorem reach_filtered
    (reached : (altMachine showPubkey tips raw).Reach Machine.anyStep cache) :
    Filtered tips raw cache := by
  refine reached.invariant (Filtered tips raw) ?_ ?_
  · intro cache started
    obtain rfl := started
    exact filtered_new
  · intro cache call cache' before _ taken
    cases call with
    | getOrFetch pubkey getAccount =>
        obtain ⟨answers, rfl⟩ := taken
        exact (before.getOrFetch answers).1
    | clear =>
        obtain rfl := taken
        exact before.clear

end Runs

end ArbBot
