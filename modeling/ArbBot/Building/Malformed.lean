import ArbBot.Transaction

/-!
# Malformed instructions

A response of Metis holds texts for keys and data. `to_sdk_instruction` turns a program id
that does not parse and data that does not decode into errors, and an account that does not
parse into a panic. `replyIsHandled_iff` says for which responses a build ends with a value
or an error.
-/

namespace ArbBot

open Foundation Sdk

/-! ## Results without a panic -/

section NoPanic

variable {α β : Type}

/-- The result is a value or an error. -/
def NoPanic (result : Except Failure α) : Prop :=
  ∀ cause, result ≠ .error (.panic cause)

theorem noPanic_ok (value : α) : NoPanic (.ok value) := by
  intro cause same
  cases same

theorem noPanic_error (chain : List String) :
    NoPanic (.error (.error chain) : Except Failure α) := by
  intro cause same
  cases same

theorem noPanic_orFail {ε : Type} [ToString ε] (context : List String) (result : Except ε α) :
    NoPanic (orFail context result) := by
  cases result with
  | ok value => exact noPanic_ok value
  | error e => exact noPanic_error _

/-- The rule of sequence: the later step is asked for the values of the first one. -/
theorem noPanic_bind {result : Except Failure α} {next : α → Except Failure β}
    (first : NoPanic result) (later : ∀ value, result = .ok value → NoPanic (next value)) :
    NoPanic (result >>= next) := by
  cases result with
  | ok value => exact later value rfl
  | error failure =>
      intro cause same
      obtain rfl : failure = .panic cause := Except.error.inj same
      exact first cause rfl

/-- A failure is handed on at another type. -/
theorem NoPanic.of_error {failure : Failure} (calm : NoPanic (.error failure : Except Failure α)) :
    NoPanic (.error failure : Except Failure β) := by
  intro cause same
  exact calm cause (congrArg Except.error (Except.error.inj same))

theorem noPanic_of_bind {result : Except Failure α} {next : α → Except Failure β}
    (whole : NoPanic (result >>= next)) : NoPanic result := by
  intro cause same
  subst same
  exact whole cause rfl

/-! ## Lists that are converted item by item -/

variable {f : α → Except Failure β} {items : List α}

theorem mapM_eq_ok_iff {converted : List β} :
    items.mapM f = .ok converted ↔ List.Forall₂ (fun a b => f a = .ok b) items converted := by
  induction items generalizing converted with
  | nil =>
      rw [List.mapM_nil, List.forall₂_nil_left_iff]
      exact ⟨fun same => (Except.ok.inj same).symm, fun same => congrArg Except.ok same.symm⟩
  | cons item rest ih =>
      rw [List.mapM_cons, List.forall₂_cons_left_iff]
      constructor
      · intro ok
        rcases exists_of_bind_eq_ok ok with ⟨first, head, ok⟩
        rcases exists_of_bind_eq_ok ok with ⟨later, tail, same⟩
        exact ⟨first, later, head, ih.mp tail, (Except.ok.inj same).symm⟩
      · intro given
        rcases given with ⟨first, later, head, tail, rfl⟩
        rw [head, ih.mpr tail]
        rfl

/-- A list converts just when all of its items do. -/
theorem exists_mapM_eq_ok_iff :
    (∃ converted, items.mapM f = .ok converted) ↔ ∀ item ∈ items, ∃ b, f item = .ok b := by
  simp only [mapM_eq_ok_iff]
  induction items with
  | nil => exact iff_of_true ⟨[], .nil⟩ (fun item member => by cases member)
  | cons item rest ih =>
      rw [List.forall_mem_cons, ← ih]
      constructor
      · intro given
        rcases given with ⟨converted, pairs⟩
        cases pairs with
        | cons head tail => exact ⟨⟨_, head⟩, _, tail⟩
      · intro given
        rcases given with ⟨⟨first, head⟩, later, tail⟩
        exact ⟨first :: later, .cons head tail⟩

/-- The failure of a list is that of one of its items. -/
theorem exists_of_mapM_eq_error {failure : Failure} (failed : items.mapM f = .error failure) :
    ∃ item ∈ items, f item = .error failure := by
  induction items with
  | nil => cases failed
  | cons item rest ih =>
      rw [List.mapM_cons] at failed
      cases head : f item with
      | error failure' =>
          rw [head] at failed
          obtain rfl := Except.error.inj failed
          exact ⟨item, List.mem_cons_self .., head⟩
      | ok first =>
          rw [head] at failed
          cases tail : rest.mapM f with
          | error failure' =>
              rw [tail] at failed
              obtain rfl := Except.error.inj failed
              obtain ⟨later, inside, same⟩ := ih tail
              exact ⟨later, List.mem_cons_of_mem _ inside, same⟩
          | ok later =>
              rw [tail] at failed
              cases failed

end NoPanic

/-! ## One instruction -/

section Instruction

variable {Hash Keypair : Type} {sdk : SolanaSdk Hash Keypair} {codec : TextCodec}

/-- The account has its key parsed and its flags kept. -/
def MetaOf (sdk : SolanaSdk Hash Keypair) (account : AccountMeta) (converted : Sdk.AccountMeta) :
    Prop :=
  sdk.parsePubkey account.pubkey = .ok converted.pubkey ∧
    converted.isSigner = account.isSigner ∧ converted.isWritable = account.isWritable

theorem toAccountMeta_eq_ok_iff {account : AccountMeta} {converted : Sdk.AccountMeta} :
    toAccountMeta sdk account = .ok converted ↔ MetaOf sdk account converted := by
  unfold toAccountMeta MetaOf
  cases sdk.parsePubkey account.pubkey with
  | error e => simp
  | ok pubkey =>
      rcases converted with ⟨key, signer, writable⟩
      simp only [Except.ok.injEq, Sdk.AccountMeta.mk.injEq]
      tauto

/-- The accounts are converted one by one, in their order. -/
theorem mapM_toAccountMeta_eq_ok_iff {accounts : List AccountMeta}
    {converted : List Sdk.AccountMeta} :
    accounts.mapM (toAccountMeta sdk) = .ok converted ↔
      List.Forall₂ (MetaOf sdk) accounts converted := by
  rw [mapM_eq_ok_iff]
  simp only [toAccountMeta_eq_ok_iff]

theorem exists_toAccountMeta_iff {account : AccountMeta} :
    (∃ converted, toAccountMeta sdk account = .ok converted) ↔
      ∃ key, sdk.parsePubkey account.pubkey = .ok key := by
  simp only [toAccountMeta_eq_ok_iff]
  constructor
  · exact fun ⟨converted, given⟩ => ⟨_, given.1⟩
  · exact fun ⟨key, parsed⟩ => ⟨⟨key, account.isSigner, account.isWritable⟩, parsed, rfl, rfl⟩

/-- A list that converts has only accounts that parse, and conversely. -/
theorem exists_mapM_toAccountMeta_iff {accounts : List AccountMeta} :
    (∃ converted, accounts.mapM (toAccountMeta sdk) = .ok converted) ↔
      ∀ account ∈ accounts, ∃ key, sdk.parsePubkey account.pubkey = .ok key := by
  rw [exists_mapM_eq_ok_iff]
  simp only [exists_toAccountMeta_iff]

/-- The conversion of the accounts panics just when one of them does not parse. -/
theorem noPanic_mapM_toAccountMeta_iff {accounts : List AccountMeta} :
    NoPanic (accounts.mapM (toAccountMeta sdk)) ↔
      ∀ account ∈ accounts, ∃ key, sdk.parsePubkey account.pubkey = .ok key := by
  rw [← exists_mapM_toAccountMeta_iff]
  cases converted : accounts.mapM (toAccountMeta sdk) with
  | ok metas => exact iff_of_true (noPanic_ok metas) ⟨metas, rfl⟩
  | error failure =>
      obtain ⟨account, -, failed⟩ := exists_of_mapM_eq_error converted
      have panics : ∃ cause, failure = .panic cause := by
        unfold toAccountMeta at failed
        split at failed
        · exact ⟨_, (Except.error.inj failed).symm⟩
        · cases failed
      rcases panics with ⟨cause, rfl⟩
      refine iff_of_false (fun calm => calm cause rfl) ?_
      intro given
      rcases given with ⟨metas, same⟩
      cases same

/-- What `to_sdk_instruction` returns, and when. -/
theorem toSdkInstruction_eq_ok_iff {ix : InstructionData} {converted : Instruction} :
    toSdkInstruction sdk codec ix = .ok converted ↔
      sdk.parsePubkey ix.programId = .ok converted.programId ∧
        List.Forall₂ (MetaOf sdk) ix.accounts converted.accounts ∧
          codec.decode ix.data = some converted.data := by
  unfold toSdkInstruction
  constructor
  · intro ok
    rcases exists_of_bind_eq_ok ok with ⟨programId, parsed, ok⟩
    rcases exists_of_bind_eq_ok ok with ⟨accounts, metas, ok⟩
    split at ok
    · cases ok
    · rename_i data decoded
      rw [← Except.ok.inj ok]
      exact ⟨orFail_eq_ok.mp parsed, mapM_toAccountMeta_eq_ok_iff.mp metas, decoded⟩
  · intro given
    rcases given with ⟨parsed, metas, decoded⟩
    rw [parsed, decoded, mapM_toAccountMeta_eq_ok_iff.mpr metas]
    rfl

theorem exists_toSdkInstruction_iff {ix : InstructionData} :
    (∃ converted, toSdkInstruction sdk codec ix = .ok converted) ↔
      (∃ key, sdk.parsePubkey ix.programId = .ok key) ∧
        (∀ account ∈ ix.accounts, ∃ key, sdk.parsePubkey account.pubkey = .ok key) ∧
          ∃ data, codec.decode ix.data = some data := by
  simp only [toSdkInstruction_eq_ok_iff, ← exists_mapM_toAccountMeta_iff,
    mapM_toAccountMeta_eq_ok_iff]
  constructor
  · intro given
    rcases given with ⟨converted, parsed, metas, decoded⟩
    exact ⟨⟨_, parsed⟩, ⟨_, metas⟩, _, decoded⟩
  · intro given
    rcases given with ⟨⟨programId, parsed⟩, ⟨accounts, metas⟩, data, decoded⟩
    exact ⟨⟨programId, accounts, data⟩, parsed, metas, decoded⟩

/-- A bad program id is an error before the accounts are looked at. -/
theorem noPanic_toSdkInstruction_iff {ix : InstructionData} :
    NoPanic (toSdkInstruction sdk codec ix) ↔
      ((∃ key, sdk.parsePubkey ix.programId = .ok key) →
        ∀ account ∈ ix.accounts, ∃ key, sdk.parsePubkey account.pubkey = .ok key) := by
  unfold toSdkInstruction
  rw [← noPanic_mapM_toAccountMeta_iff]
  cases sdk.parsePubkey ix.programId with
  | error e =>
      refine iff_of_true (noPanic_error _) (fun parsed => ?_)
      rcases parsed with ⟨key, same⟩
      cases same
  | ok programId =>
      constructor
      · exact fun calm _ => noPanic_of_bind calm
      · intro calm
        refine noPanic_bind (noPanic_orFail _ _) fun _ _ => ?_
        refine noPanic_bind (calm ⟨programId, rfl⟩) fun accounts _ => ?_
        split
        · exact noPanic_error _
        · exact noPanic_ok _

end Instruction

/-! ## The build -/

section Build

variable {Hash Keypair : Type} {sdk : SolanaSdk Hash Keypair} {codec : TextCodec}
  {getAccount : Pubkey → Except String (List UInt8)}

theorem noPanic_altAddresses (addresses : List String) : NoPanic (altAddresses sdk addresses) := by
  have step : ∀ known : List Pubkey, NoPanic (addresses.foldlM (fun known addr => do
      let pubkey ← orFail [] (sdk.parsePubkey addr)
      return if known.contains pubkey then known else known ++ [pubkey]) known) := by
    induction addresses with
    | nil => exact noPanic_ok
    | cons addr rest ih =>
        intro known
        rw [List.foldlM_cons]
        refine noPanic_bind ?_ fun known' _ => ih known'
        exact noPanic_bind (noPanic_orFail _ _) fun pubkey _ => noPanic_ok _
  exact step []

theorem noPanic_deserializeAltAddresses (data : List UInt8) :
    NoPanic (deserializeAltAddresses data) := by
  unfold deserializeAltAddresses
  split
  · exact noPanic_error _
  · dsimp only
    split
    · exact noPanic_error _
    · exact noPanic_ok _

theorem noPanic_getOrFetch (showPubkey : Pubkey → String) (cache : AltCache) (pubkey : Pubkey) :
    NoPanic (cache.getOrFetch showPubkey pubkey getAccount).1 := by
  unfold AltCache.getOrFetch
  split
  · exact noPanic_ok _
  · split
    · exact noPanic_error _
    · rename_i data _
      have calm := noPanic_deserializeAltAddresses data
      cases decoded : deserializeAltAddresses data with
      | error failure =>
          rw [decoded] at calm
          exact calm.of_error
      | ok addresses => exact noPanic_ok _

theorem noPanic_fetchAll (alts : List Pubkey) (cache : AltCache) :
    NoPanic (fetchAll sdk getAccount alts cache).1 := by
  induction alts generalizing cache with
  | nil => exact noPanic_ok _
  | cons pubkey rest ih =>
      have first : NoPanic (cache.getOrFetch sdk.showPubkey pubkey getAccount).1 :=
        noPanic_getOrFetch _ cache pubkey
      unfold fetchAll
      generalize cache.getOrFetch sdk.showPubkey pubkey getAccount = answer at first ⊢
      rcases answer with ⟨failure | alt, cache'⟩
      · exact first.of_error
      · have later := ih cache'
        dsimp only
        generalize fetchAll sdk getAccount rest cache' = answers at later ⊢
        rcases answers with ⟨failure | tables, cache''⟩
        · exact later
        · exact noPanic_ok _

variable {swapIxs : SwapInstructionsResponse} {payer : Keypair} {tipLamports : UInt64}
  {cuLimit : UInt32} {recentBlockhash : Hash} {cache : AltCache}
  {choice : Fin jitoTipAccounts.length} {budget : Pubkey}

/-- A build panics just when the conversion of the swap instruction does. -/
theorem noPanic_build_iff
    (parsed : sdk.parsePubkey "ComputeBudget111111111111111111111111111111" = .ok budget) :
    NoPanic (buildArbTransaction sdk codec swapIxs payer tipLamports cuLimit recentBlockhash
        cache getAccount choice).1 ↔
      NoPanic (toSdkInstruction sdk codec swapIxs.swapInstruction) := by
  have instructions : NoPanic (arbInstructions sdk codec swapIxs (sdk.pubkey payer) tipLamports
      cuLimit choice) ↔ NoPanic (toSdkInstruction sdk codec swapIxs.swapInstruction) := by
    unfold arbInstructions
    rw [parsed]
    constructor
    · exact fun calm => noPanic_of_bind calm
    · exact fun calm => noPanic_bind (noPanic_orFail _ _) fun _ _ => noPanic_bind calm
        fun swapIx _ => noPanic_bind (noPanic_orFail _ _) fun tipAccount _ => noPanic_ok _
  rw [← instructions]
  unfold buildArbTransaction
  cases arbInstructions sdk codec swapIxs (sdk.pubkey payer) tipLamports cuLimit choice with
  | error failure => exact ⟨NoPanic.of_error, NoPanic.of_error⟩
  | ok instructions =>
      refine iff_of_true ?_ (noPanic_ok _)
      have parses : NoPanic (altAddresses sdk swapIxs.addressLookupTableAddresses) :=
        noPanic_altAddresses _
      generalize altAddresses sdk swapIxs.addressLookupTableAddresses = parsedAlts at parses ⊢
      rcases parsedAlts with failure | alts
      · exact parses.of_error
      · have fetches : NoPanic (fetchAll sdk getAccount alts cache).1 := noPanic_fetchAll alts cache
        dsimp only
        generalize fetchAll sdk getAccount alts cache = fetch at fetches ⊢
        rcases fetch with ⟨failure | tables, cache'⟩
        · exact fetches.of_error
        · exact noPanic_bind (noPanic_orFail _ _) fun message _ => noPanic_orFail _ _

/-- The reply costs a value or an error, and its swap instruction converts just when all of
its parts do, in order and with the same flags. -/
structure ReplyIsHandled (sdk : SolanaSdk Hash Keypair) (codec : TextCodec) (ix : InstructionData)
    (outcome : Except Failure Transaction) : Prop where
  noPanic : NoPanic outcome
  converts : (∃ converted, toSdkInstruction sdk codec ix = .ok converted) ↔
    (∃ key, sdk.parsePubkey ix.programId = .ok key) ∧
      (∀ account ∈ ix.accounts, ∃ key, sdk.parsePubkey account.pubkey = .ok key) ∧
        ∃ data, codec.decode ix.data = some data
  converted : ∀ converted, toSdkInstruction sdk codec ix = .ok converted →
    sdk.parsePubkey ix.programId = .ok converted.programId ∧
      List.Forall₂ (MetaOf sdk) ix.accounts converted.accounts ∧
        codec.decode ix.data = some converted.data

/-- **Malformed replies.** A build ends without a panic just when the program id of the swap
instruction does not parse or all of its accounts do. -/
theorem replyIsHandled_iff
    (parsed : sdk.parsePubkey "ComputeBudget111111111111111111111111111111" = .ok budget) :
    ReplyIsHandled sdk codec swapIxs.swapInstruction
        (buildArbTransaction sdk codec swapIxs payer tipLamports cuLimit recentBlockhash
          cache getAccount choice).1 ↔
      ((∃ key, sdk.parsePubkey swapIxs.swapInstruction.programId = .ok key) →
        ∀ account ∈ swapIxs.swapInstruction.accounts,
          ∃ key, sdk.parsePubkey account.pubkey = .ok key) := by
  have conversion : NoPanic (toSdkInstruction sdk codec swapIxs.swapInstruction) ↔ _ :=
    noPanic_toSdkInstruction_iff
  rw [← conversion, ← noPanic_build_iff parsed]
  constructor
  · exact fun handled => handled.noPanic
  · intro calm
    exact ⟨calm, exists_toSdkInstruction_iff, fun converted ok => toSdkInstruction_eq_ok_iff.mp ok⟩

end Build

/-- A reply whose only account has the given text. -/
def replyWithAccount (text : String) : SwapInstructionsResponse :=
  { tableSwap with
    swapInstruction :=
      { tableSwap.swapInstruction with
        accounts := [{ pubkey := text, isSigner := false, isWritable := true }] } }

set_option maxRecDepth 20000 in
/-- The reply with a writable account that parses is handled. -/
theorem replyIsHandled_wsol :
    ReplyIsHandled tableSdk Base64.standard
      (replyWithAccount "So11111111111111111111111111111111111111112").swapInstruction
      (buildArbTransaction tableSdk Base64.standard
        (replyWithAccount "So11111111111111111111111111111111111111112") tablePayer 1600 400000 ()
        tableCache (fun _ => .error "no connection") ⟨0, by decide⟩).1 := by
  have budget : tableSdk.parsePubkey "ComputeBudget111111111111111111111111111111" =
      .ok computeBudgetKey := by
    decide
  refine (replyIsHandled_iff budget).mpr fun _ account member => ?_
  rw [List.mem_singleton.mp member]
  exact ⟨wrappedSol, by decide⟩

set_option maxRecDepth 20000 in
/-- An account that is no key aborts the process. -/
theorem build_panics :
    (buildArbTransaction tableSdk Base64.standard (replyWithAccount "not a key") tablePayer 1600
        400000 () tableCache (fun _ => .error "no connection") ⟨0, by decide⟩).1 =
      .error (.panic (.expect "invalid pubkey in instruction: Invalid")) ∧
    ¬ ReplyIsHandled tableSdk Base64.standard (replyWithAccount "not a key").swapInstruction
      (buildArbTransaction tableSdk Base64.standard (replyWithAccount "not a key") tablePayer 1600
        400000 () tableCache (fun _ => .error "no connection") ⟨0, by decide⟩).1 := by
  have prepared : arbInstructions tableSdk Base64.standard (replyWithAccount "not a key")
      tablePayer 1600 400000 ⟨0, by decide⟩ =
        .error (.panic (.expect "invalid pubkey in instruction: Invalid")) := by
    decide
  have payer : tableSdk.pubkey tablePayer = tablePayer := rfl
  have built : (buildArbTransaction tableSdk Base64.standard (replyWithAccount "not a key")
      tablePayer 1600 400000 () tableCache (fun _ => .error "no connection") ⟨0, by decide⟩).1 =
        .error (.panic (.expect "invalid pubkey in instruction: Invalid")) := by
    rw [buildArbTransaction, payer, prepared]
  exact ⟨built, fun handled => handled.noPanic _ built⟩

end ArbBot
