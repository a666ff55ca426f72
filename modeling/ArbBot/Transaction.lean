import ArbBot.AltCache
import ArbBot.Foundation.Base64
import ArbBot.Metis

/-!
# The arbitrage transaction

`build_arb_transaction` compiles three instructions against the tables of the cache. The
cache has dropped the tip accounts from them, so a compiled index is a position in the
filtered table, while the chain reads the raw one. `rightAccounts_iff` says when the two
agree: when no tip stands before a drawable key in its raw table.
-/

namespace ArbBot

open Foundation Sdk

/-! ## Building -/

/-- `JITO_TIP_ACCOUNTS`. -/
def jitoTipAccounts : List String := [
  "96gYZGLnJYVFmbjzopPSU6QiEV5fGqZNyN9nmNhvrZU5",
  "HFqU5x63VTqvQss8hp11i4wVV8bD44PvwucfZ2bU7gRe",
  "Cw8CFyM9FkoMi7K7Crf6HNQqf4uEMzpKw6QNghXLvLkY",
  "ADaUMid9yfUytqMBgopwjb2DTLSokTSzL1zt6iGPaS49",
  "DfXygSm4jCyNCybVYYK6DwvWqjKee8pbDmJGcLWNDXjh",
  "ADuUkR4vqLUMWXxW9gh6D6L8pMSawimctcNZ5pGwDcEt",
  "DttWaMuVvTiduZRnguLF7jNxTgiMBZ1hyAumKUiL2KRL",
  "3AVi9Tg9Uo68tJfuvoKvqKNWKkC5wPdSSdeBnizKZ6jT"]

section Build

variable {Hash Keypair : Type} (sdk : SolanaSdk Hash Keypair) (codec : TextCodec)

def toAccountMeta (account : AccountMeta) : Except Failure Sdk.AccountMeta :=
  match sdk.parsePubkey account.pubkey with
  | .error e => .error (.panic (.expect ("invalid pubkey in instruction: " ++ e.debug)))
  | .ok pubkey => .ok {
      pubkey := pubkey
      isSigner := account.isSigner
      isWritable := account.isWritable }

def toSdkInstruction (ix : InstructionData) : Except Failure Instruction := do
  let programId ← orFail [] (sdk.parsePubkey ix.programId)
  let accounts ← ix.accounts.mapM (toAccountMeta sdk)
  match codec.decode ix.data with
  | none => .error (.error ["failed to decode instruction data", codec.fault ix.data])
  | some data => return { programId := programId, accounts := accounts, data := data }

/-- The three instructions, with the tip account that was chosen at random. -/
def arbInstructions (swapIxs : SwapInstructionsResponse) (payer : Pubkey)
    (tipLamports : UInt64) (cuLimit : UInt32) (choice : Fin jitoTipAccounts.length) :
    Except Failure (List Instruction) := do
  let computeBudget ← orFail [] (sdk.parsePubkey "ComputeBudget111111111111111111111111111111")
  let cuLimitIx : Instruction := {
    programId := computeBudget
    accounts := []
    data := 0x02 :: leBytes 4 cuLimit.toNat }
  let swapIx ← toSdkInstruction sdk codec swapIxs.swapInstruction
  let tipAccount ← orFail [] (sdk.parsePubkey (jitoTipAccounts.get choice))
  return [cuLimitIx, swapIx, sdk.transfer payer tipAccount tipLamports]

/-- The tables of the swap, each once. -/
def altAddresses (addresses : List String) : Except Failure (List Pubkey) :=
  addresses.foldlM (fun known addr => do
    let pubkey ← orFail [] (sdk.parsePubkey addr)
    return if known.contains pubkey then known else known ++ [pubkey]) []

/-- `get_or_fetch` for one table after the other, up to the first failure. -/
def fetchAll (getAccount : Pubkey → Except String (List UInt8)) :
    List Pubkey → AltCache → Except Failure (List AddressLookupTableAccount) × AltCache
  | [], cache => (.ok [], cache)
  | pubkey :: rest, cache =>
      match cache.getOrFetch sdk.showPubkey pubkey getAccount with
      | (.error e, cache) => (.error e, cache)
      | (.ok alt, cache) =>
          match fetchAll getAccount rest cache with
          | (.error e, cache) => (.error e, cache)
          | (.ok alts, cache) => (.ok (alt :: alts), cache)

/-- Compile and sign. -/
def signedTransaction (payer : Keypair) (instructions : List Instruction)
    (tables : List AddressLookupTableAccount) (recentBlockhash : Hash) :
    Except Failure Transaction := do
  let message ← orFail ["failed to compile v0 message"]
    (sdk.tryCompile (sdk.pubkey payer) instructions tables recentBlockhash)
  orFail ["failed to sign versioned transaction"] (sdk.tryNew message payer)

def buildArbTransaction (swapIxs : SwapInstructionsResponse) (payer : Keypair)
    (tipLamports : UInt64) (cuLimit : UInt32) (recentBlockhash : Hash) (cache : AltCache)
    (getAccount : Pubkey → Except String (List UInt8))
    (choice : Fin jitoTipAccounts.length) : Except Failure Transaction × AltCache :=
  match arbInstructions sdk codec swapIxs (sdk.pubkey payer) tipLamports cuLimit choice with
  | .error e => (.error e, cache)
  | .ok instructions =>
      match altAddresses sdk swapIxs.addressLookupTableAddresses with
      | .error e => (.error e, cache)
      | .ok alts =>
          match fetchAll sdk getAccount alts cache with
          | (.error e, cache) => (.error e, cache)
          | (.ok tables, cache) =>
              (signedTransaction sdk payer instructions tables recentBlockhash, cache)

end Build

/-- Number of distinct accounts the transaction locks. -/
def accountLockCount (tx : Transaction) : Nat :=
  let fromAlt := (tx.message.addressTableLookups.map fun l =>
    l.writableIndexes.length + l.readonlyIndexes.length).sum
  tx.message.accountKeys.length + fromAlt

/-! ## What the message refers to -/

/-- The key is an account of an instruction and has the number of the lookup at
position `p`. -/
def StandsFor (instructions : List Instruction) (message : Message) (p : Nat)
    (key : Pubkey) : Prop :=
  ∃ ix compiled, (ix, compiled) ∈ instructions.zip message.instructions ∧
    ∃ account index, (account, index) ∈ ix.accounts.zip compiled.accounts ∧
      account.pubkey = key ∧ index.toNat = message.accountKeys.length + p

/-- Every lookup finds, in the raw table, the account it stands for. -/
def RightAccounts (raw : Pubkey → List UInt8) (instructions : List Instruction)
    (message : Message) : Prop :=
  ∀ p slot, message.slots[p]? = some slot → ∀ key, StandsFor instructions message p key →
    rawEntry (raw slot.1) slot.2 = some key

/-- No tip stands before a drawable key in the first raw table that holds it. -/
def TipsBehind (tips : List Pubkey) (raw : Pubkey → List UInt8) (alts : List Pubkey)
    (payer : Pubkey) (instructions : List Instruction) : Prop :=
  ∀ key, Drawable payer instructions key → key ∉ tips →
    ∀ table, alts.find? (fun alt => (rawAddresses (raw alt)).contains key) = some table →
      ∀ addr ∈ (rawAddresses (raw table)).takeWhile (· != key), addr ∉ tips

section Lookups

variable {tips : List Pubkey} {raw : Pubkey → List UInt8} {alts : List Pubkey}
  {payer : Pubkey} {instructions : List Instruction} {message : Message}

theorem contains_filteredTable {alt key : Pubkey} (other : key ∉ tips) :
    (filteredTable tips raw alt).addresses.contains key =
      (rawAddresses (raw alt)).contains key := by
  rw [Bool.eq_iff_iff, List.contains_iff_mem, List.contains_iff_mem, filteredTable,
    List.mem_filter]
  simp [other]

theorem notMem_tips {alt key : Pubkey} (held : key ∈ (filteredTable tips raw alt).addresses) :
    key ∉ tips := by
  intro tip
  have kept := (List.mem_filter.mp held).2
  simp [tip] at kept

/-- The first of the filtered tables with a key comes from the first raw one. -/
theorem firstHolding_filteredTables {key : Pubkey} (other : key ∉ tips) :
    firstHolding (alts.map (filteredTable tips raw)) key =
      (alts.find? fun alt => (rawAddresses (raw alt)).contains key).map
        (filteredTable tips raw) := by
  have same : ((fun table => table.addresses.contains key) ∘ filteredTable tips raw) =
      fun alt => (rawAddresses (raw alt)).contains key :=
    funext fun alt => contains_filteredTable other
  rw [firstHolding, List.find?_map, same]

/-- The entry of a slot whose table is one of the filtered tables. -/
theorem entryOf_filteredTables {alt : Pubkey} (member : alt ∈ alts) (i : Nat) :
    entryOf (alts.map (filteredTable tips raw)) (alt, i) =
      (filteredTable tips raw alt).addresses[i]? := by
  have found : (alts.map (filteredTable tips raw)).find? (·.key == alt) =
      some (filteredTable tips raw alt) := by
    have same : ((fun table => table.key == alt) ∘ filteredTable tips raw) = (· == alt) := rfl
    rw [List.find?_map, same]
    cases first : alts.find? (· == alt) with
    | none => exact absurd BEq.rfl (List.find?_eq_none.mp first alt member)
    | some alt' =>
        have equal : (alt' == alt) = true := List.find?_some (p := (· == alt)) first
        rw [eq_of_beq equal]
        rfl
  rw [entryOf, found, Option.bind_some]

/-- What a lookup draws: a key that is no tip, from the first raw table that holds it. -/
theorem drawn_filteredTables {slot : Pubkey × Nat}
    (compiles : CompilesV0 payer instructions (alts.map (filteredTable tips raw)) message)
    (member : slot ∈ message.slots) :
    ∃ key alt, Drawable payer instructions key ∧ key ∉ tips ∧
      alts.find? (fun alt => (rawAddresses (raw alt)).contains key) = some alt ∧
        slot = (alt, (filteredTable tips raw alt).addresses.idxOf key) ∧
          entryOf (alts.map (filteredTable tips raw)) slot = some key := by
  rcases compiles.drawn slot member with ⟨key, table, drawable, first, rfl⟩
  rcases mem_of_firstHolding first with ⟨inTables, holds⟩
  rcases List.mem_map.mp inTables with ⟨alt, inAlts, rfl⟩
  have other := notMem_tips holds
  rw [firstHolding_filteredTables other] at first
  rcases Option.map_eq_some_iff.mp first with ⟨alt', found, same⟩
  obtain rfl : alt' = alt := congrArg AddressLookupTableAccount.key same
  refine ⟨key, alt', drawable, other, found, rfl, ?_⟩
  exact (entryOf_filteredTables inAlts _).trans (List.getElem?_idxOf holds)

/-- A number past the static keys resolves to the entry of its lookup. -/
theorem entryOf_of_standsFor {tables : List AddressLookupTableAccount} {p : Nat}
    {slot : Pubkey × Nat} {key : Pubkey}
    (compiles : CompilesV0 payer instructions tables message)
    (position : message.slots[p]? = some slot)
    (stands : StandsFor instructions message p key) : entryOf tables slot = some key := by
  rcases stands with ⟨ix, compiled, pair, account, index, used, rfl, number⟩
  have resolved := (List.forall₂_iff_zip.mp compiles.resolved).2 pair
  have points := (List.forall₂_iff_zip.mp resolved.2).2 used
  rw [Message.accountAt, number, if_neg (by omega), Nat.add_sub_cancel_left, position,
    Option.bind_some] at points
  exact points

/-- A key that a table holds has the number of a lookup. -/
theorem exists_standsFor {tables : List AddressLookupTableAccount} {key : Pubkey}
    (compiles : CompilesV0 payer instructions tables message)
    (drawable : Drawable payer instructions key) (held : firstHolding tables key ≠ none) :
    ∃ p slot, message.slots[p]? = some slot ∧ StandsFor instructions message p key := by
  rcases drawable.account with ⟨ix, inInstructions, account, inAccounts, rfl⟩
  have whole := List.forall₂_iff_zip.mp compiles.resolved
  rw [← List.map_fst_zip (Nat.le_of_eq whole.1)] at inInstructions
  rcases List.mem_map.mp inInstructions with ⟨⟨ix, compiled⟩, pair, rfl⟩
  have accounts := List.forall₂_iff_zip.mp (whole.2 pair).2
  rw [← List.map_fst_zip (Nat.le_of_eq accounts.1)] at inAccounts
  rcases List.mem_map.mp inAccounts with ⟨⟨account, index⟩, used, rfl⟩
  have points := accounts.2 used
  unfold Message.accountAt at points
  split at points
  · exact (held (compiles.kept _ (List.mem_of_getElem? points) drawable)).elim
  · rcases Option.bind_eq_some_iff.mp points with ⟨slot, position, -⟩
    exact ⟨_, slot, position, ix, compiled, pair, account, index, used, rfl, by omega⟩

theorem mem_rawAddresses_of_first {alt key : Pubkey}
    (first : alts.find? (fun alt => (rawAddresses (raw alt)).contains key) = some alt) :
    key ∈ rawAddresses (raw alt) :=
  List.contains_iff_mem.mp
    (List.find?_some (p := fun alt => (rawAddresses (raw alt)).contains key) first)

/-- The filtered position of a key is right for the raw table just when no tip stands
before the key. -/
theorem rawEntry_idxOf_iff {alt key : Pubkey} (accepted : Accepted (raw alt))
    (other : key ∉ tips) (held : key ∈ rawAddresses (raw alt)) :
    rawEntry (raw alt) ((filteredTable tips raw alt).addresses.idxOf key) = some key ↔
      ∀ addr ∈ (rawAddresses (raw alt)).takeWhile (· != key), addr ∉ tips := by
  have kept : (fun addr => !tips.contains addr) key = true := by simp [other]
  have early := @getElem?_idxOf_filter_iff _ _ _ (fun addr => !tips.contains addr) _ _ kept held
  rw [← getElem?_rawAddresses accepted, filteredTable, early]
  simp only [Bool.not_eq_true', ← Bool.not_eq_true, List.contains_iff_mem]

/-- The lookups of a message compiled against the filtered tables are right for the raw
ones just when the tips stand behind. -/
theorem rightAccounts_iff_of_compiles (accepted : ∀ alt ∈ alts, Accepted (raw alt))
    (compiles : CompilesV0 payer instructions (alts.map (filteredTable tips raw)) message) :
    RightAccounts raw instructions message ↔ TipsBehind tips raw alts payer instructions := by
  constructor
  · intro right key drawable other alt first
    have held : firstHolding (alts.map (filteredTable tips raw)) key ≠ none := by
      rw [firstHolding_filteredTables other, first]
      exact Option.some_ne_none _
    rcases exists_standsFor compiles drawable held with ⟨p, slot, position, stands⟩
    have read := right p slot position key stands
    rcases drawn_filteredTables compiles (List.mem_of_getElem? position) with
      ⟨key', alt', -, -, first', rfl, entry⟩
    obtain rfl := Option.some.inj ((entryOf_of_standsFor compiles position stands).symm.trans entry)
    obtain rfl := Option.some.inj (first.symm.trans first')
    exact (rawEntry_idxOf_iff (accepted _ (List.mem_of_find?_eq_some first)) other
      (mem_rawAddresses_of_first first)).mp read
  · intro behind p slot position key stands
    rcases drawn_filteredTables compiles (List.mem_of_getElem? position) with
      ⟨key', alt, drawable, other, first, rfl, entry⟩
    obtain rfl := Option.some.inj ((entryOf_of_standsFor compiles position stands).symm.trans entry)
    exact (rawEntry_idxOf_iff (accepted _ (List.mem_of_find?_eq_some first)) other
      (mem_rawAddresses_of_first first)).mpr (behind _ drawable other alt first)

end Lookups

/-! ## Runs -/

section Runs

variable {Hash Keypair : Type} {sdk : SolanaSdk Hash Keypair} {codec : TextCodec}
  {tips : List Pubkey} {raw : Pubkey → List UInt8} {cache : AltCache}
  {getAccount : Pubkey → Except String (List UInt8)}

/-- The tables are fetched once each. -/
theorem nodup_altAddresses {addresses : List String} {alts : List Pubkey}
    (parsed : altAddresses sdk addresses = .ok alts) : alts.Nodup := by
  have step : ∀ known : List Pubkey, known.Nodup → addresses.foldlM (fun known addr => do
      let pubkey ← orFail [] (sdk.parsePubkey addr)
      return if known.contains pubkey then known else known ++ [pubkey]) known = .ok alts →
        alts.Nodup := by
    clear parsed
    induction addresses with
    | nil =>
        intro known distinct parsed
        rw [← Except.ok.inj parsed]
        exact distinct
    | cons addr rest ih =>
        intro known distinct parsed
        rw [List.foldlM_cons] at parsed
        rcases exists_of_bind_eq_ok parsed with ⟨known', read, parsed⟩
        rcases exists_of_bind_eq_ok read with ⟨pubkey, -, added⟩
        refine ih known' ?_ parsed
        rw [← Except.ok.inj added]
        split
        · exact distinct
        · rename_i absent
          rw [List.contains_iff_mem] at absent
          rw [← List.concat_eq_append]
          exact distinct.concat absent
  exact step [] List.nodup_nil parsed

/-- The tables that are fetched are the filtered raw ones. -/
theorem Filtered.fetchAll (answers : Answers raw getAccount) (alts : List Pubkey)
    (filtered : Filtered tips raw cache) :
    ∀ tables, (fetchAll sdk getAccount alts cache).1 = .ok tables →
      tables = alts.map (filteredTable tips raw) ∧ ∀ alt ∈ alts, Accepted (raw alt) := by
  induction alts generalizing cache with
  | nil =>
      intro tables fetched
      rw [← Except.ok.inj fetched]
      exact ⟨rfl, fun alt absent => by cases absent⟩
  | cons pubkey rest ih =>
      intro tables fetched
      have one := @Filtered.getOrFetch sdk.showPubkey _ _ _ pubkey _ filtered answers
      unfold ArbBot.fetchAll at fetched
      generalize cache.getOrFetch sdk.showPubkey pubkey getAccount = answer at one fetched
      rcases answer with ⟨_ | alt, cache'⟩
      · cases fetched
      dsimp only at one fetched
      have later := ih one.1
      generalize ArbBot.fetchAll sdk getAccount rest cache' = answers' at later fetched
      rcases answers' with ⟨_ | alts, cache''⟩
      · cases fetched
      obtain ⟨accepted, rfl⟩ := one.2 alt rfl
      obtain ⟨rfl, accepted'⟩ := later alts rfl
      rw [← Except.ok.inj fetched]
      exact ⟨rfl, List.forall_mem_cons.mpr ⟨accepted, accepted'⟩⟩

/-- What is signed was compiled. -/
theorem compiles_of_signed {payer : Keypair} {instructions : List Instruction}
    {tables : List AddressLookupTableAccount} {recentBlockhash : Hash} {tx : Transaction}
    (lawful : sdk.Lawful) (distinct : (tables.map AddressLookupTableAccount.key).Nodup)
    (signed : signedTransaction sdk payer instructions tables recentBlockhash = .ok tx) :
    CompilesV0 (sdk.pubkey payer) instructions tables tx.message := by
  rcases exists_of_bind_eq_ok signed with ⟨message, compiled, signed⟩
  rw [lawful.signs (orFail_eq_ok.mp signed)]
  exact lawful.compiles distinct (orFail_eq_ok.mp compiled)

/-- The stages of a build that gives a transaction. -/
theorem of_buildArbTransaction {swapIxs : SwapInstructionsResponse} {payer : Keypair}
    {tipLamports : UInt64} {cuLimit : UInt32} {recentBlockhash : Hash}
    {choice : Fin jitoTipAccounts.length} {tx : Transaction}
    (built : (buildArbTransaction sdk codec swapIxs payer tipLamports cuLimit recentBlockhash
      cache getAccount choice).1 = .ok tx) :
    ∃ instructions alts tables,
      arbInstructions sdk codec swapIxs (sdk.pubkey payer) tipLamports cuLimit choice =
          .ok instructions ∧
        altAddresses sdk swapIxs.addressLookupTableAddresses = .ok alts ∧
          (fetchAll sdk getAccount alts cache).1 = .ok tables ∧
            signedTransaction sdk payer instructions tables recentBlockhash = .ok tx := by
  unfold buildArbTransaction at built
  cases prepared : arbInstructions sdk codec swapIxs (sdk.pubkey payer) tipLamports cuLimit
      choice with
  | error e =>
      rw [prepared] at built
      cases built
  | ok instructions =>
      cases parsed : altAddresses sdk swapIxs.addressLookupTableAddresses with
      | error e =>
          rw [prepared, parsed] at built
          cases built
      | ok alts =>
          rw [prepared, parsed] at built
          dsimp only at built
          cases fetch : fetchAll sdk getAccount alts cache with
          | mk fetched cache' =>
              rw [fetch] at built
              cases fetched with
              | error e => cases built
              | ok tables =>
                  exact ⟨instructions, alts, tables, rfl, rfl, congrArg Prod.fst fetch, built⟩

/-- **The accounts of a transaction.** On a cache after any calls, the transaction that is
built refers to the right accounts just when no tip stands before a drawable key in the
first raw table that holds it. -/
theorem rightAccounts_iff {swapIxs : SwapInstructionsResponse} {payer : Keypair}
    {tipLamports : UInt64} {cuLimit : UInt32} {recentBlockhash : Hash}
    {choice : Fin jitoTipAccounts.length} {tx : Transaction} (lawful : sdk.Lawful)
    (reached : (altMachine sdk.showPubkey tips raw).Reach Machine.anyStep cache)
    (answers : Answers raw getAccount)
    (built : (buildArbTransaction sdk codec swapIxs payer tipLamports cuLimit recentBlockhash
      cache getAccount choice).1 = .ok tx) :
    ∃ instructions alts,
      arbInstructions sdk codec swapIxs (sdk.pubkey payer) tipLamports cuLimit choice =
          .ok instructions ∧
        altAddresses sdk swapIxs.addressLookupTableAddresses = .ok alts ∧
          (RightAccounts raw instructions tx.message ↔
            TipsBehind tips raw alts (sdk.pubkey payer) instructions) := by
  rcases of_buildArbTransaction built with
    ⟨instructions, alts, tables, prepared, parsed, fetched, signed⟩
  rcases (reach_filtered reached).fetchAll answers alts tables fetched with ⟨rfl, accepted⟩
  refine ⟨instructions, alts, prepared, parsed, rightAccounts_iff_of_compiles accepted ?_⟩
  refine compiles_of_signed lawful ?_ signed
  rw [List.map_map, show AddressLookupTableAccount.key ∘ filteredTable tips raw = id from rfl,
    List.map_id]
  exact nodup_altAddresses parsed

end Runs

/-! ## A table with a tip -/

def base58Digit (char : Char) : Option Nat :=
  let code := char.toNat
  if '1' ≤ char ∧ char ≤ '9' then some (code - 49)
  else if 'A' ≤ char ∧ char ≤ 'H' then some (code - 56)
  else if 'J' ≤ char ∧ char ≤ 'N' then some (code - 57)
  else if 'P' ≤ char ∧ char ≤ 'Z' then some (code - 58)
  else if 'a' ≤ char ∧ char ≤ 'k' then some (code - 64)
  else if 'm' ≤ char ∧ char ≤ 'z' then some (code - 65)
  else none

/-- `Pubkey::from_str`: base58 of 32 bytes, where a leading `1` is a leading zero byte. -/
def parseBase58 (text : String) : Except ParsePubkeyError Pubkey :=
  if text.utf8ByteSize > 44 then .error .wrongSize
  else
    match text.toList.mapM base58Digit with
    | none => .error .invalid
    | some digits =>
        let value := digits.foldl (fun value digit => value * 58 + digit) 0
        let significant := if value = 0 then 0 else value.log2 / 8 + 1
        if (digits.takeWhile (· == 0)).length + significant = 32 then
          .ok { bytes := (leBytes 32 value).reverse, length_bytes := by simp }
        else .error .wrongSize

def systemProgram : Pubkey where
  bytes := List.replicate 32 0
  length_bytes := rfl

def computeBudgetKey : Pubkey where
  bytes := [3, 6, 70, 111, 229, 33, 23, 50, 255, 236, 173, 186, 114, 195, 155, 231,
    188, 140, 229, 187, 197, 247, 18, 107, 44, 67, 155, 58, 64, 0, 0, 0]
  length_bytes := rfl

def jupiterKey : Pubkey where
  bytes := [4, 121, 213, 91, 242, 49, 192, 110, 238, 116, 197, 110, 206, 104, 21, 7,
    253, 177, 178, 222, 163, 244, 142, 81, 2, 177, 205, 162, 86, 188, 19, 143]
  length_bytes := rfl

def wrappedSol : Pubkey where
  bytes := [6, 155, 136, 87, 254, 171, 129, 132, 251, 104, 127, 99, 70, 24, 192, 53,
    218, 196, 57, 220, 26, 235, 59, 85, 152, 160, 240, 0, 0, 0, 0, 1]
  length_bytes := rfl

def jupiterTable : Pubkey where
  bytes := [231, 174, 140, 62, 136, 7, 71, 116, 27, 217, 130, 238, 183, 216, 75, 253,
    150, 147, 227, 160, 211, 121, 24, 192, 24, 215, 178, 72, 170, 203, 62, 198]
  length_bytes := rfl

def tableTip : Pubkey where
  bytes := [120, 82, 28, 177, 121, 206, 187, 133, 137, 181, 86, 162, 213, 236, 148, 210,
    73, 134, 130, 253, 249, 187, 42, 245, 173, 100, 228, 145, 204, 65, 83, 218]
  length_bytes := rfl

def tablePayer : Pubkey where
  bytes := List.replicate 32 7
  length_bytes := rfl

/-- A swap with one account that its table holds. -/
def tableSwap : SwapInstructionsResponse where
  computeBudgetInstructions := []
  setupInstructions := []
  swapInstruction := {
    programId := "JUP6LkbZbjS1jKKwapdHNy74zcZ3tLUZoi5QNyVTaV4"
    accounts := [{
      pubkey := "So11111111111111111111111111111111111111112"
      isSigner := false
      isWritable := false }]
    data := "" }
  cleanupInstruction := none
  addressLookupTableAddresses := ["GbPYrQEDYV9Bn4Kp9oT3h5sQSYFpwLyhpD7PJE8xgRHX"]

def tableTransfer (payer tip : Pubkey) (lamports : UInt64) : Instruction where
  programId := systemProgram
  accounts := [
    { pubkey := payer, isSigner := true, isWritable := true },
    { pubkey := tip, isSigner := false, isWritable := true }]
  data := [2, 0, 0, 0] ++ le64 lamports

def tableInstructions : List Instruction := [
  { programId := computeBudgetKey
    accounts := []
    data := 2 :: leBytes 4 400000 },
  { programId := jupiterKey
    accounts := [{ pubkey := wrappedSol, isSigner := false, isWritable := false }]
    data := [] },
  tableTransfer tablePayer tableTip 1600]

/-- The table as it is given to the compiler. -/
def tableGiven : List AddressLookupTableAccount :=
  [{ key := jupiterTable, addresses := [wrappedSol] }]

/-- The payer, the tip account and the three programs are static, the swap account is
number 5. -/
def tableMessage : Message where
  accountKeys := [tablePayer, tableTip, systemProgram,
    computeBudgetKey,
    jupiterKey]
  instructions := [
    { programIdIndex := 3, accounts := [], data := 2 :: leBytes 4 400000 },
    { programIdIndex := 4, accounts := [5], data := [] },
    { programIdIndex := 2, accounts := [0, 1], data := [2, 0, 0, 0] ++ le64 1600 }]
  addressTableLookups :=
    [{ accountKey := jupiterTable, writableIndexes := [], readonlyIndexes := [0] }]

/-- The SDK on the input of this section. -/
def tableSdk : SolanaSdk Unit Pubkey where
  parsePubkey := parseBase58
  showPubkey _ := "GbPYrQEDYV9Bn4Kp9oT3h5sQSYFpwLyhpD7PJE8xgRHX"
  pubkey payer := payer
  transfer := tableTransfer
  tryCompile payer instructions tables _ :=
    if payer = tablePayer ∧ instructions = tableInstructions ∧ tables = tableGiven then
      .ok tableMessage
    else .error "not compiled"
  tryNew message _ := .ok { message := message }

/-- The raw data of a table with the given entries. -/
def tableRaw (entries : List Pubkey) (_ : Pubkey) : List UInt8 :=
  List.replicate headerSize 0 ++ entries.flatMap Pubkey.bytes

theorem tableMessage_compiles :
    CompilesV0 tablePayer tableInstructions tableGiven tableMessage where
  resolved := by
    refine .cons ⟨by decide, .nil⟩ (.cons ⟨by decide, ?_⟩
      (.cons ⟨by decide, ?_⟩ .nil))
    · exact .cons (by decide) .nil
    · exact .cons (by decide) (.cons (by decide) .nil)
  drawn slot member := by
    have drawable : Drawable tablePayer tableInstructions wrappedSol :=
      ⟨by decide, by decide, by decide, by decide⟩
    rcases List.mem_singleton.mp member with rfl
    exact ⟨wrappedSol, ⟨jupiterTable, [wrappedSol]⟩, drawable,
      by decide, by decide⟩
  kept key member _ := by
    have unheld : ∀ key ∈ tableMessage.accountKeys, firstHolding tableGiven key = none := by
      decide
    exact unheld key member

theorem tableSdk_lawful : tableSdk.Lawful where
  compiles := by
    intro payer instructions tables blockhash message _ compiled
    simp only [tableSdk] at compiled
    split at compiled
    · rename_i same
      obtain ⟨rfl, rfl, rfl⟩ := same
      obtain rfl := Except.ok.inj compiled
      exact tableMessage_compiles
    · cases compiled
  signs := by
    intro message payer tx signed
    rw [← Except.ok.inj signed]

/-- A new cache. -/
def tableCache : AltCache := .new [tableTip]

theorem tableInstructions_prepared :
    arbInstructions tableSdk Base64.standard tableSwap tablePayer 1600 400000 ⟨0, by decide⟩ =
      .ok tableInstructions := by
  decide

theorem tableSwap_alts : altAddresses tableSdk tableSwap.addressLookupTableAddresses =
    .ok [jupiterTable] := by
  decide

/-- The transaction that is built, as long as only the swap account is kept. -/
theorem table_built (tips : List Pubkey) {entries : List Pubkey}
    (decoded : deserializeAltAddresses (tableRaw entries jupiterTable) = .ok entries)
    (kept : entries.filter (fun addr => !tips.contains addr) = [wrappedSol]) :
    (buildArbTransaction tableSdk Base64.standard tableSwap tablePayer 1600 400000 ()
      (.new tips) (fun key => .ok (tableRaw entries key)) ⟨0, by decide⟩).1 =
        .ok { message := tableMessage } := by
  have fetched : ((AltCache.new tips).getOrFetch tableSdk.showPubkey jupiterTable
      fun key => .ok (tableRaw entries key)).1 =
        .ok ⟨jupiterTable, [wrappedSol]⟩ := by
    simpa [AltCache.getOrFetch, AltCache.new, decoded] using kept
  have signed : signedTransaction tableSdk tablePayer tableInstructions tableGiven () =
      .ok { message := tableMessage } := by
    decide
  have payer : tableSdk.pubkey tablePayer = tablePayer := rfl
  rw [buildArbTransaction, payer, tableInstructions_prepared, tableSwap_alts]
  dsimp only
  unfold fetchAll
  generalize (AltCache.new tips).getOrFetch _ _ _ = answer at fetched ⊢
  rcases answer with ⟨answer, cache⟩
  obtain rfl : answer = _ := fetched
  exact signed

set_option maxRecDepth 20000 in
/-- With the tip at the end of the table, the lookup finds its account. -/
theorem rightAccounts_tip_last :
    RightAccounts (tableRaw [wrappedSol, tableTip]) tableInstructions tableMessage := by
  have decoded : deserializeAltAddresses (tableRaw [wrappedSol, tableTip]
      jupiterTable) = .ok [wrappedSol, tableTip] := by
    decide
  have built := table_built [tableTip] decoded (by decide)
  have reached : (altMachine tableSdk.showPubkey [tableTip]
      (tableRaw [wrappedSol, tableTip])).Reach Machine.anyStep tableCache :=
    Machine.Reach.ofStart rfl
  rcases rightAccounts_iff tableSdk_lawful reached (fun key data same => (Except.ok.inj same).symm)
    built with ⟨instructions, alts, prepared, parsed, right⟩
  obtain rfl := Except.ok.inj (tableInstructions_prepared.symm.trans prepared)
  obtain rfl := Except.ok.inj (tableSwap_alts.symm.trans parsed)
  apply right.mpr
  intro key drawable other table first addr early
  obtain rfl := List.mem_singleton.mp (List.mem_of_find?_eq_some first)
  have held := mem_rawAddresses_of_first first
  rw [(accepted_of_deserialize decoded).2] at held early
  rcases List.mem_cons.mp held with rfl | last
  · simp at early
  · rw [List.mem_singleton.mp last] at other
    exact absurd (by decide) other

set_option maxRecDepth 20000 in
/-- With the tip in front, the index of the filtered table is that of the tip in the raw
one. -/
theorem tip_shifts_account :
    let raw := tableRaw [tableTip, wrappedSol]
    (altMachine tableSdk.showPubkey [tableTip] raw).Reach Machine.anyStep
        tableCache ∧
      Answers raw (fun key => .ok (raw key)) ∧
      (buildArbTransaction tableSdk Base64.standard tableSwap tablePayer 1600 400000 ()
        tableCache (fun key => .ok (raw key)) ⟨0, by decide⟩).1 =
          .ok { message := tableMessage } ∧
      StandsFor tableInstructions tableMessage 0 wrappedSol ∧
      tableMessage.slots[0]? = some (jupiterTable, 0) ∧
      rawEntry (raw jupiterTable) 0 = some tableTip ∧
      ¬ RightAccounts raw tableInstructions tableMessage := by
  intro raw
  have decoded : deserializeAltAddresses (raw jupiterTable) =
      .ok [tableTip, wrappedSol] := by
    decide
  have entry : rawEntry (raw jupiterTable) 0 = some tableTip := by
    decide
  have stands : StandsFor tableInstructions tableMessage 0 wrappedSol :=
    ⟨_, _, List.mem_cons_of_mem _ List.mem_cons_self, _, _, List.mem_cons_self, rfl, rfl⟩
  refine ⟨Machine.Reach.ofStart rfl, fun key data same => (Except.ok.inj same).symm,
    table_built [tableTip] decoded (by decide), stands, rfl, entry, ?_⟩
  intro right
  have read := right 0 (jupiterTable, 0) rfl wrappedSol stands
  rw [entry] at read
  exact absurd (Option.some.inj read) (by decide)

end ArbBot
