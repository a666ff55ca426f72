import ArbBot.Transaction

/-!
# The tip transfer

The tip transfer is the last of three instructions, and its destination is a static key of
the message: the cache drops the tip accounts from every table it stores, and the compiler
draws from the tables it is given only. `TipFree` is what any calls keep of the cache,
whatever the tables hold on chain, and `tip_last` what a build makes of it.
-/

namespace ArbBot

open Foundation Sdk

/-! ## The cache -/

/-- No stored table holds a tip account, and each stands under its key. -/
structure TipFree (tips : List Pubkey) (cache : AltCache) : Prop where
  tips_eq : cache.tipPubkeys = tips
  table : ∀ (key : Pubkey) (alt : AddressLookupTableAccount), cache.inner[key]? = some alt →
    alt.key = key ∧ ∀ addr ∈ alt.addresses, addr ∉ tips

/-- Any calls on a new cache, with any answers of the RPC node. A fetch that missed stores its
table even if another one has stored a table for the key in the meantime. -/
def altHistory (showPubkey : Pubkey → String) (tips : List Pubkey) :
    Machine AltCache AltCall where
  start cache := cache = .new tips
  step cache call cache' :=
    match call with
    | .getOrFetch pubkey getAccount =>
        cache' = (cache.getOrFetch showPubkey pubkey getAccount).2 ∨
          ∃ alt, (cache.clear.getOrFetch showPubkey pubkey getAccount).1 = .ok alt ∧
            cache' = { cache with inner := cache.inner.insert pubkey alt }
    | .clear => cache' = cache.clear

section Cache

variable {showPubkey : Pubkey → String} {tips : List Pubkey} {cache : AltCache}
  {pubkey : Pubkey} {getAccount : Pubkey → Except String (List UInt8)}

theorem tipFree_new : TipFree tips (.new tips) where
  tips_eq := rfl
  table key alt found := by simp [AltCache.new] at found

theorem TipFree.clear (free : TipFree tips cache) : TipFree tips cache.clear where
  tips_eq := free.tips_eq
  table key alt found := by simp [AltCache.clear] at found

theorem TipFree.insert {alt : AddressLookupTableAccount} (free : TipFree tips cache)
    (key_eq : alt.key = pubkey) (others : ∀ addr ∈ alt.addresses, addr ∉ tips) :
    TipFree tips { cache with inner := cache.inner.insert pubkey alt } where
  tips_eq := free.tips_eq
  table key alt' found := by
    rw [Std.HashMap.getElem?_insert] at found
    split at found
    · rename_i same
      obtain rfl := eq_of_beq same
      obtain rfl := Option.some.inj found
      exact ⟨key_eq, others⟩
    · exact free.table key alt' found

/-- **One fetch.** The cache stays free of tips, and so is the table that is returned. -/
theorem TipFree.getOrFetch (free : TipFree tips cache) :
    TipFree tips (cache.getOrFetch showPubkey pubkey getAccount).2 ∧
      ∀ alt, (cache.getOrFetch showPubkey pubkey getAccount).1 = .ok alt →
        alt.key = pubkey ∧ ∀ addr ∈ alt.addresses, addr ∉ tips := by
  unfold AltCache.getOrFetch
  cases cached : cache.inner[pubkey]? with
  | some alt =>
      refine ⟨free, ?_⟩
      intro alt' same
      obtain rfl := Except.ok.inj same
      exact free.table pubkey alt cached
  | none =>
      cases getAccount pubkey with
      | error e => exact ⟨free, fun alt absent => by cases absent⟩
      | ok data =>
          dsimp only
          cases deserializeAltAddresses data with
          | error e => exact ⟨free, fun alt absent => by cases absent⟩
          | ok addresses =>
              -- what is stored went through the filter
              have others : ∀ addr ∈ addresses.filter fun addr => !cache.tipPubkeys.contains addr,
                  addr ∉ tips := by
                intro addr member tip
                have kept := (List.mem_filter.mp member).2
                rw [free.tips_eq, Bool.not_eq_true', ← Bool.not_eq_true, List.contains_iff_mem]
                  at kept
                exact kept tip
              refine ⟨free.insert rfl others, ?_⟩
              intro alt same
              rw [← Except.ok.inj same]
              exact ⟨rfl, others⟩

theorem reach_tipFree (reached : (altHistory showPubkey tips).Reach Machine.anyStep cache) :
    TipFree tips cache := by
  refine reached.invariant (TipFree tips) ?_ ?_
  · intro cache started
    obtain rfl := started
    exact tipFree_new
  · intro cache call cache' before _ taken
    cases call with
    | getOrFetch pubkey getAccount =>
        rcases taken with rfl | ⟨alt, missed, rfl⟩
        · exact before.getOrFetch.1
        · rcases before.clear.getOrFetch.2 alt missed with ⟨key_eq, others⟩
          exact before.insert key_eq others
    | clear =>
        obtain rfl := taken
        exact before.clear

/-- The tables of a build are those asked for, and free of tips. -/
theorem TipFree.fetchAll {Hash Keypair : Type} {sdk : SolanaSdk Hash Keypair}
    (alts : List Pubkey) (free : TipFree tips cache) :
    ∀ tables, (fetchAll sdk getAccount alts cache).1 = .ok tables →
      tables.map AddressLookupTableAccount.key = alts ∧
        ∀ table ∈ tables, ∀ addr ∈ table.addresses, addr ∉ tips := by
  induction alts generalizing cache with
  | nil =>
      intro tables fetched
      rw [← Except.ok.inj fetched]
      exact ⟨rfl, fun table absent => by cases absent⟩
  | cons pubkey rest ih =>
      intro tables fetched
      have one := @TipFree.getOrFetch sdk.showPubkey _ _ pubkey getAccount free
      unfold ArbBot.fetchAll at fetched
      generalize cache.getOrFetch sdk.showPubkey pubkey getAccount = answer at one fetched
      rcases answer with ⟨_ | alt, cache'⟩
      · cases fetched
      dsimp only at one fetched
      have later := ih one.1
      generalize ArbBot.fetchAll sdk getAccount rest cache' = answers at later fetched
      rcases answers with ⟨_ | alts, cache''⟩
      · cases fetched
      obtain ⟨rfl, others⟩ := one.2 alt rfl
      obtain ⟨keys, others'⟩ := later alts rfl
      rw [← Except.ok.inj fetched]
      exact ⟨by rw [List.map_cons, keys], List.forall_mem_cons.mpr ⟨others, others'⟩⟩

end Cache

/-! ## The message -/

/-- The compiled instruction is the instruction, with numbers for its keys: static keys first,
then what the lookups draw from the given tables. -/
def CompiledAs (tables : List AddressLookupTableAccount) (message : Message) (ix : Instruction)
    (compiled : CompiledInstruction) : Prop :=
  compiled.data = ix.data ∧
    message.accountAt tables compiled.programIdIndex = some ix.programId ∧
      List.Forall₂ (fun account index =>
        message.accountAt tables index = some account.pubkey) ix.accounts compiled.accounts

/-- What a build relies on: the compiler keeps the order of the instructions and draws keys
from the tables it is given only, a signed transaction holds the compiled message, and a
transfer names the payer and the destination. -/
structure SolanaSdk.KeepsOrder {Hash Keypair : Type} (sdk : SolanaSdk Hash Keypair) : Prop where
  compiles : ∀ {payer instructions tables blockhash message},
    (tables.map AddressLookupTableAccount.key).Nodup →
      sdk.tryCompile payer instructions tables blockhash = .ok message →
        List.Forall₂ (CompiledAs tables message) instructions message.instructions
  signs : ∀ {message payer tx}, sdk.tryNew message payer = .ok tx → tx.message = message
  transfers : ∀ payer tip lamports, (sdk.transfer payer tip lamports).accounts = [
    { pubkey := payer, isSigner := true, isWritable := true },
    { pubkey := tip, isSigner := false, isWritable := true }]

/-- `jito_tip_pubkeys`. -/
def jitoTipPubkeys {Hash Keypair : Type} (sdk : SolanaSdk Hash Keypair) : List Pubkey :=
  jitoTipAccounts.filterMap fun text => (sdk.parsePubkey text).toOption

theorem mem_of_entryOf {tables : List AddressLookupTableAccount} {slot : Pubkey × Nat}
    {key : Pubkey} (entry : entryOf tables slot = some key) :
    ∃ table ∈ tables, key ∈ table.addresses := by
  rcases Option.bind_eq_some_iff.mp entry with ⟨table, found, held⟩
  exact ⟨table, List.mem_of_find?_eq_some found, List.mem_of_getElem? held⟩

/-- The number of a key that no table holds is that of a static one. -/
theorem static_of_accountAt {tables : List AddressLookupTableAccount} {message : Message}
    {index : UInt8} {key : Pubkey} (number : message.accountAt tables index = some key)
    (unheld : ∀ table ∈ tables, key ∉ table.addresses) :
    index.toNat < message.accountKeys.length ∧ message.accountKeys[index.toNat]? = some key := by
  unfold Message.accountAt at number
  split at number
  · rename_i static
    exact ⟨static, number⟩
  · rcases Option.bind_eq_some_iff.mp number with ⟨slot, -, entry⟩
    rcases mem_of_entryOf entry with ⟨table, member, held⟩
    exact (unheld table member held).elim

section Build

variable {Hash Keypair : Type} {sdk : SolanaSdk Hash Keypair} {codec : TextCodec}
  {cache : AltCache} {getAccount : Pubkey → Except String (List UInt8)}
  {swapIxs : SwapInstructionsResponse} {payer : Keypair} {tipLamports : UInt64}
  {cuLimit : UInt32} {recentBlockhash : Hash} {choice : Fin jitoTipAccounts.length}
  {tx : Transaction}

/-- The instructions of a build, in their order. -/
theorem of_arbInstructions {owner : Pubkey} {instructions : List Instruction}
    (prepared : arbInstructions sdk codec swapIxs owner tipLamports cuLimit choice =
      .ok instructions) :
    ∃ budget swapIx tip,
      sdk.parsePubkey "ComputeBudget111111111111111111111111111111" = .ok budget ∧
        toSdkInstruction sdk codec swapIxs.swapInstruction = .ok swapIx ∧
          sdk.parsePubkey (jitoTipAccounts.get choice) = .ok tip ∧
            instructions = [
              { programId := budget, accounts := [], data := 0x02 :: leBytes 4 cuLimit.toNat },
              swapIx, sdk.transfer owner tip tipLamports] := by
  unfold arbInstructions at prepared
  rcases exists_of_bind_eq_ok prepared with ⟨budget, parsed, prepared⟩
  rcases exists_of_bind_eq_ok prepared with ⟨swapIx, converted, prepared⟩
  rcases exists_of_bind_eq_ok prepared with ⟨tip, chosen, prepared⟩
  exact ⟨budget, swapIx, tip, orFail_eq_ok.mp parsed, converted, orFail_eq_ok.mp chosen,
    (Except.ok.inj prepared).symm⟩

/-- Every tip account the builder may choose is one the cache filters. -/
theorem mem_jitoTipPubkeys {tip : Pubkey}
    (chosen : sdk.parsePubkey (jitoTipAccounts.get choice) = .ok tip) :
    tip ∈ jitoTipPubkeys sdk :=
  List.mem_filterMap.mpr ⟨_, List.get_mem _ _, by rw [chosen]; rfl⟩

/-- **The parts of a built transaction.** Its three instructions in their order, compiled with
the tables that were fetched, which are free of tips. -/
theorem parts_of_built (keeps : sdk.KeepsOrder)
    (reached : (altHistory sdk.showPubkey (jitoTipPubkeys sdk)).Reach Machine.anyStep cache)
    (built : (buildArbTransaction sdk codec swapIxs payer tipLamports cuLimit recentBlockhash
      cache getAccount choice).1 = .ok tx) :
    ∃ alts tables budget swapIx tip limit swap transfer,
      altAddresses sdk swapIxs.addressLookupTableAddresses = .ok alts ∧
      (fetchAll sdk getAccount alts cache).1 = .ok tables ∧
      (∀ table ∈ tables, ∀ addr ∈ table.addresses, addr ∉ jitoTipPubkeys sdk) ∧
      sdk.parsePubkey "ComputeBudget111111111111111111111111111111" = .ok budget ∧
      toSdkInstruction sdk codec swapIxs.swapInstruction = .ok swapIx ∧
      sdk.parsePubkey (jitoTipAccounts.get choice) = .ok tip ∧
      tx.message.instructions = [limit, swap, transfer] ∧
      CompiledAs tables tx.message
        { programId := budget, accounts := [], data := 0x02 :: leBytes 4 cuLimit.toNat } limit ∧
      CompiledAs tables tx.message swapIx swap ∧
      CompiledAs tables tx.message (sdk.transfer (sdk.pubkey payer) tip tipLamports)
        transfer := by
  rcases of_buildArbTransaction built with
    ⟨instructions, alts, tables, prepared, parsed, fetched, signed⟩
  rcases of_arbInstructions prepared with ⟨budget, swapIx, tip, limitParsed, converted, chosen, rfl⟩
  rcases (reach_tipFree reached).fetchAll alts tables fetched with ⟨keys, others⟩
  rcases exists_of_bind_eq_ok signed with ⟨message, compiled, signed⟩
  obtain rfl := keeps.signs (orFail_eq_ok.mp signed)
  have order := keeps.compiles (by rw [keys]; exact nodup_altAddresses parsed)
    (orFail_eq_ok.mp compiled)
  rcases List.forall₂_cons_left_iff.mp order with ⟨limit, afterLimit, asLimit, order₁, shape⟩
  rcases List.forall₂_cons_left_iff.mp order₁ with ⟨swap, afterSwap, asSwap, order₂, rfl⟩
  rcases List.forall₂_cons_left_iff.mp order₂ with
    ⟨transfer, afterTransfer, asTransfer, order₃, rfl⟩
  obtain rfl := List.forall₂_nil_left_iff.mp order₃
  exact ⟨alts, tables, budget, swapIx, tip, limit, swap, transfer, parsed, fetched, others,
    limitParsed, converted, chosen, shape, asLimit, asSwap, asTransfer⟩

/-- **The tip is last and static.** After any calls of the cache, a transaction that is built
has three instructions, the compute limit, the swap and the tip transfer, and the
destination of the transfer is a static key of its message. -/
theorem tip_last (keeps : sdk.KeepsOrder)
    (reached : (altHistory sdk.showPubkey (jitoTipPubkeys sdk)).Reach Machine.anyStep cache)
    (built : (buildArbTransaction sdk codec swapIxs payer tipLamports cuLimit recentBlockhash
      cache getAccount choice).1 = .ok tx) :
    ∃ tables budget swapIx tip limit swap transfer,
      sdk.parsePubkey "ComputeBudget111111111111111111111111111111" = .ok budget ∧
      toSdkInstruction sdk codec swapIxs.swapInstruction = .ok swapIx ∧
      sdk.parsePubkey (jitoTipAccounts.get choice) = .ok tip ∧
      tx.message.instructions = [limit, swap, transfer] ∧
      CompiledAs tables tx.message
        { programId := budget, accounts := [], data := 0x02 :: leBytes 4 cuLimit.toNat } limit ∧
      CompiledAs tables tx.message swapIx swap ∧
      CompiledAs tables tx.message (sdk.transfer (sdk.pubkey payer) tip tipLamports) transfer ∧
      ∃ index, transfer.accounts[1]? = some index ∧
        index.toNat < tx.message.accountKeys.length ∧
        tx.message.accountKeys[index.toNat]? = some tip := by
  rcases parts_of_built keeps reached built with
    ⟨alts, tables, budget, swapIx, tip, limit, swap, transfer, -, -, others, limitParsed, converted,
      chosen, shape, asLimit, asSwap, asTransfer⟩
  refine ⟨tables, budget, swapIx, tip, limit, swap, transfer, limitParsed, converted, chosen,
    shape, asLimit, asSwap, asTransfer, ?_⟩
  have accounts := asTransfer.2.2
  rw [keeps.transfers] at accounts
  rcases List.forall₂_cons_left_iff.mp accounts with ⟨first, later, -, accounts, numbers⟩
  rcases List.forall₂_cons_left_iff.mp accounts with ⟨index, last, number, -, rfl⟩
  refine ⟨index, by rw [numbers]; rfl, static_of_accountAt number fun table member held => ?_⟩
  exact others table member tip held (mem_jitoTipPubkeys chosen)

end Build

theorem tableSdk_keepsOrder : tableSdk.KeepsOrder where
  compiles := by
    intro payer instructions tables blockhash message _ compiled
    simp only [tableSdk] at compiled
    split at compiled
    · rename_i same
      obtain ⟨rfl, rfl, rfl⟩ := same
      obtain rfl := Except.ok.inj compiled
      have limit := List.forall₂_cons.mp tableMessage_compiles.resolved
      have swap := List.forall₂_cons.mp limit.2
      have transfer := List.forall₂_cons.mp swap.2
      exact .cons ⟨rfl, limit.1⟩ (.cons ⟨rfl, swap.1⟩ (.cons ⟨rfl, transfer.1⟩ .nil))
    · cases compiled
  signs := tableSdk_lawful.signs
  transfers _ _ _ := rfl

set_option maxRecDepth 20000 in
/-- A table with a tip account in front: the tip of the transaction is a static key. -/
theorem tip_last_table :
    ∃ transfer index, tableMessage.instructions[2]? = some transfer ∧
      transfer.accounts[1]? = some index ∧
        tableMessage.accountKeys[index.toNat]? = some tableTip := by
  have decoded : deserializeAltAddresses (tableRaw [tableTip, wrappedSol] jupiterTable) =
      .ok [tableTip, wrappedSol] := by
    decide
  have chosen : tableSdk.parsePubkey (jitoTipAccounts.get ⟨0, by decide⟩) = .ok tableTip := by
    decide
  have kept : [tableTip, wrappedSol].filter
      (fun addr => !(jitoTipPubkeys tableSdk).contains addr) = [wrappedSol] := by
    decide
  have reached : (altHistory tableSdk.showPubkey (jitoTipPubkeys tableSdk)).Reach
      Machine.anyStep (.new (jitoTipPubkeys tableSdk)) := Machine.Reach.ofStart rfl
  rcases tip_last tableSdk_keepsOrder reached (table_built _ decoded kept) with
    ⟨tables, budget, swapIx, tip, limit, swap, transfer, -, -, chosen', shape, -, -, -, index,
      destination, -, static⟩
  obtain rfl := Except.ok.inj (chosen.symm.trans chosen')
  exact ⟨transfer, index, by rw [shape]; rfl, destination, static⟩

end ArbBot
