import ArbBot.Foundation.Agreement
import ArbBot.Simulator.Residue

/-!
# Two SVMs that look the same

`SameOn` relates two SVMs that show the same at some keys. A warp brings an SVM and what a
history has kept of it there, every account that is set adds its key, and a run that reads
nothing else ends alike in both.
-/

namespace ArbBot

open Foundation Sdk

variable {Program Table : Type}

/-- The same accounts and sysvars at the settled keys, and the same programs but at the
loaded ones. -/
structure SameOn (settled loaded : Set Pubkey) (db db' : AccountsDb Program) : Prop where
  inner : Set.EqOn db.inner db'.inner settled
  programs : Set.EqOn db.programsCache db'.programsCache loadedᶜ
  sysvars : ∀ sysvar : Sysvar, sysvar.id ∈ settled →
    db.sysvarCache sysvar = db'.sysvarCache sysvar
  programsSlot : db.programsSlot = db'.programsSlot

/-! ## What the SVM reads -/

/-- What `process_transaction` reads of the accounts: those of the message, those that own one
of them that is executable, and the rent. -/
def ReadsRun (db : AccountsDb Program) (tx : VersionedTransaction) (loaded : LoadedAddresses)
    (key : Pubkey) : Prop :=
  let named := tx.message.staticAccountKeys ++ loaded.writable ++ loaded.readonly
  key ∈ named ∨ key = Sysvar.rent.id ∨
    ∃ program ∈ named, ∃ account, db.inner program = some account ∧
      account.executable = true ∧ account.owner = key

/-- `load_program` and the execution read no more of the database than this. The code of some
programs is in another account. -/
structure Runtime.ReadsOnly (rt : Runtime Program Table) (programdata : Account → Option Pubkey) :
    Prop where
  loadProgram : ∀ (db db' : AccountsDb Program) slot account,
    (∀ key, programdata account = some key → db.inner key = db'.inner key) →
      rt.loadProgram db slot account = rt.loadProgram db' slot account
  execute : ∀ (db db' : AccountsDb Program) tx loaded,
    (∀ key, ReadsRun db tx loaded key →
      db.inner key = db'.inner key ∧ db.programsCache key = db'.programsCache key) →
    db.sysvarCache = db'.sysvarCache → db.programsSlot = db'.programsSlot →
      rt.execute db tx loaded = rt.execute db' tx loaded

/-- What the call reads of the accounts once they are set: the balance before the run, the
sysvars, the lookup tables, and what the execution reads. -/
def Reads (rt : Runtime Program Table) (wsolAta : Pubkey) (db : AccountsDb Program)
    (tx : VersionedTransaction) (key : Pubkey) : Prop :=
  ∃ litesvmTx, toLitesvmTx rt tx = .ok litesvmTx ∧ rt.sanitize litesvmTx = .ok () ∧
    (key = wsolAta ∨ (∃ sysvar : Sysvar, key = sysvar.id) ∨
      (∃ lookup ∈ litesvmTx.message.addressTableLookups, key = lookup.accountKey) ∨
      ∃ loaded, db.loadAddresses rt litesvmTx.message.addressTableLookups = some (.ok loaded) ∧
        ReadsRun db litesvmTx loaded key)

/-! ## Accounts that are set in both -/

theorem AccountsDb.refill_congr {rt : Runtime Program Table}
    {accounts accounts' : Pubkey → Option Account} {sysvar : Sysvar}
    (same : accounts sysvar.id = accounts' sysvar.id) :
    AccountsDb.refill rt accounts sysvar = AccountsDb.refill rt accounts' sysvar := by
  rw [refill, refill, same]

theorem sysvarAt_id (sysvar : Sysvar) : sysvarAt sysvar.id = some sysvar := by
  cases sysvar <;> rfl

/-- The keys of the accounts that an injection sets, whatever the SVM is. -/
def settledBy (rt : Runtime Program Table) (held : Pubkey → Option Account)
    (keys : List Pubkey) : Set Pubkey :=
  {key | key ∈ keys ∧ ∃ account, held key = some account ∧ ¬ IsProgram key account ∧
    AccountsDb.accepts rt key account}

namespace SameOn

variable {settled settled' loaded : Set Pubkey} {rt : Runtime Program Table}
  {db db' : AccountsDb Program} {key : Pubkey} {account : Account}

theorem mono (same : SameOn settled loaded db db') (fewer : settled' ⊆ settled) :
    SameOn settled' loaded db db' where
  inner := same.inner.mono fewer
  programs := same.programs
  sysvars sysvar inside := same.sysvars sysvar (fewer inside)
  programsSlot := same.programsSlot

theorem clock? (same : SameOn settled loaded db db') (inside : Sysvar.clock.id ∈ settled) :
    db.clock? = db'.clock? := by
  rw [AccountsDb.clock?, same.sysvars .clock inside, AccountsDb.clock?]

/-- After a refill the sysvars agree where the accounts do. -/
theorem refilled (same : SameOn settled loaded db db') (key : Pubkey) (account : Account)
    (slot slot' : UInt64) (slots : slot = slot') :
    SameOn settled loaded
      { db with
        programsSlot := slot
        sysvarCache := AccountsDb.refill rt (Function.update db.inner key (some account)) }
      { db' with
        programsSlot := slot'
        sysvarCache := AccountsDb.refill rt (Function.update db'.inner key (some account)) } where
  inner := same.inner
  programs := same.programs
  sysvars _ inside := AccountsDb.refill_congr
    (eqOn_update same.inner key (some account) (Set.mem_insert_of_mem key inside))
  programsSlot := slots

/-- An account that is stored in both may settle its key, if the sysvars agree. -/
theorem stored (same : SameOn settled loaded db db') (key : Pubkey) (shows : Option Account)
    (fewer : settled' ⊆ insert key settled)
    (sysvars : ∀ sysvar : Sysvar, sysvar.id ∈ settled' →
      db.sysvarCache sysvar = db'.sysvarCache sysvar) :
    SameOn settled' loaded
      { db with inner := Function.update db.inner key shows }
      { db' with inner := Function.update db'.inner key shows } where
  inner := (eqOn_update same.inner key shows).mono fewer
  programs := same.programs
  sysvars := sysvars
  programsSlot := same.programsSlot

theorem withProgram (same : SameOn settled loaded db db') (key : Pubkey) (program : Program) :
    SameOn settled loaded
      { db with programsCache := Function.update db.programsCache key (some program) }
      { db' with programsCache := Function.update db'.programsCache key (some program) } where
  inner := same.inner
  programs := (eqOn_update same.programs key (some program)).mono (Set.subset_insert ..)
  sysvars := same.sysvars
  programsSlot := same.programsSlot

/-- The database that `add_account` stores into agrees as before, with the sysvar of the
key, and LiteSVM answers alike. -/
theorem handled (rt : Runtime Program Table) (same : SameOn settled loaded db db') (key : Pubkey)
    (account : Account) :
    let out := AccountsDb.maybeHandleSysvarAccount rt db key account
    let out' := AccountsDb.maybeHandleSysvarAccount rt db' key account
    out.1 = out'.1 ∧ SameOn settled loaded out.2 out'.2 ∧
      (AccountsDb.accepts rt key account → ∀ sysvar : Sysvar, sysvar.id = key →
        out.2.sysvarCache sysvar = out'.2.sysvarCache sysvar) := by
  have there : ∀ sysvar : Sysvar, sysvar.id = key →
      AccountsDb.refill rt (Function.update db.inner key (some account)) sysvar =
        AccountsDb.refill rt (Function.update db'.inner key (some account)) sysvar := by
    rintro sysvar rfl
    exact AccountsDb.refill_congr (by rw [Function.update_self, Function.update_self])
  unfold AccountsDb.maybeHandleSysvarAccount AccountsDb.accepts
  cases found : sysvarAt key with
  | none =>
      refine ⟨rfl, same, ?_⟩
      rintro - sysvar rfl
      rw [sysvarAt_id] at found
      cases found
  | some sysvar =>
      cases sysvar with
      | clock =>
          dsimp only [Runtime.decodes]
          cases parsed : Clock.parse account.data with
          | none => exact ⟨rfl, same, fun impossible => by cases impossible⟩
          | some clock => exact ⟨rfl, same.refilled key account _ _ rfl, fun _ => there⟩
      | _ =>
          dsimp only
          split
          all_goals exact ⟨rfl, same.refilled key account _ _ same.programsSlot, fun _ => there⟩

/-- **The step of two SVMs.** An account that is set in both is answered alike; its key is
settled if LiteSVM accepts it. -/
theorem setAccount {programdata : Account → Option Pubkey} (readsOnly : rt.ReadsOnly programdata)
    (same : SameOn settled loaded db db') (gained : Set Pubkey)
    (rests : IsProgram key account → Sysvar.clock.id ∈ settled ∧
      ∀ code, programdata account = some code → code ∈ settled)
    (gains : ∀ pubkey ∈ gained, pubkey = key ∧ ¬ IsProgram key account ∧
      AccountsDb.accepts rt key account) :
    Option.Rel (fun out out' => out.1 = out'.1 ∧ SameOn (settled ∪ gained) loaded out.2 out'.2)
      (db.setAccount rt key account) (db'.setAccount rt key account) := by
  -- What is not settled anew comes from what was.
  have kept : ∀ {mid mid' : AccountsDb Program}, SameOn settled loaded mid mid' →
      (IsProgram key account ∨ ¬ AccountsDb.accepts rt key account) →
        SameOn (settled ∪ gained) loaded mid mid' := by
    intro mid mid' same why
    apply same.mono
    apply Set.union_subset subset_rfl
    intro pubkey inside
    obtain ⟨-, plain, accepted⟩ := gains pubkey inside
    rcases why with program | refused
    · exact absurd program plain
    · exact absurd accepted refused
  unfold AccountsDb.setAccount AccountsDb.addAccount
  by_cases program : IsProgram key account
  · obtain ⟨clock, code⟩ := rests program
    rw [AccountsDb.checkAccount_of_program db program,
      AccountsDb.checkAccount_of_program db' program, same.clock? clock]
    cases db'.clock? with
    | none => exact .none
    | some clock =>
        have loads := readsOnly.loadProgram db db' clock.slot account
          fun key inside => same.inner (code key inside)
        dsimp only [Option.map_some]
        rw [loads]
        cases rt.loadProgram db' clock.slot account with
        | error e => exact .some ⟨rfl, kept same (Or.inl program)⟩
        | ok loads =>
            have after := same.withProgram key loads
            exact .some ⟨rfl,
              kept (after.stored key _ (Set.subset_insert ..) after.sysvars) (Or.inl program)⟩
  · have handled := same.handled rt key account
    have answers := (AccountsDb.maybeHandleSysvarAccount_cases rt db key account).1
    rw [AccountsDb.checkAccount_of_not_program db program,
      AccountsDb.checkAccount_of_not_program db' program]
    generalize AccountsDb.maybeHandleSysvarAccount rt db key account = out at handled answers
    generalize AccountsDb.maybeHandleSysvarAccount rt db' key account = out' at handled
    rcases out with ⟨result, mid⟩
    rcases out' with ⟨result', mid'⟩
    obtain ⟨rfl, between, there⟩ := handled
    cases result with
    | error e =>
        refine .some ⟨rfl, kept between (Or.inr ?_)⟩
        intro accepted
        cases answers.mpr accepted
    | ok done =>
        have accepted := answers.mp rfl
        refine .some ⟨rfl, between.stored key _ ?_ ?_⟩
        · apply Set.union_subset (Set.subset_insert ..)
          intro pubkey inside
          exact Or.inl (gains pubkey inside).1
        · intro sysvar inside
          rcases inside with before | now
          · exact between.sysvars sysvar before
          · exact there accepted sysvar (gains _ now).1

/-- **The run of two SVMs.** An injection settles the keys of the accounts that LiteSVM
accepts. -/
theorem inject {programdata : Account → Option Pubkey} (readsOnly : rt.ReadsOnly programdata)
    (same : SameOn settled loaded db db') (held : Pubkey → Option Account) (keys : List Pubkey)
    (rests : ∀ key ∈ keys, ∀ account, held key = some account → IsProgram key account →
      Sysvar.clock.id ∈ settled ∧ ∀ code, programdata account = some code → code ∈ settled) :
    Option.Rel (fun out out' => SameOn (settled ∪ settledBy rt held keys) loaded out.1 out'.1)
      (inject rt held db keys) (inject rt held db' keys) := by
  induction keys generalizing db db' settled with
  | nil =>
      refine .some (same.mono ?_)
      apply Set.union_subset subset_rfl
      intro key inside
      cases inside.1
  | cons first keys ih =>
      have restsLater : ∀ key ∈ keys, ∀ account, held key = some account →
          IsProgram key account → Sysvar.clock.id ∈ settled ∧
            ∀ code, programdata account = some code → code ∈ settled :=
        fun key inside => rests key (List.mem_cons_of_mem _ inside)
      unfold ArbBot.inject
      cases found : held first with
      | none =>
          apply rel_imp (ih same restsLater)
          intro out out' later
          apply later.mono
          apply Set.union_subset_union_right
          rintro key ⟨listed, account, held', settles⟩
          refine ⟨List.mem_of_ne_of_mem ?_ listed, account, held', settles⟩
          rintro rfl
          rw [found] at held'
          cases held'
      | some account =>
          have step := same.setAccount readsOnly
            {key | key = first ∧ ¬ IsProgram first account ∧ AccountsDb.accepts rt first account}
            (rests first (List.mem_cons_self ..) account found) fun key inside => inside
          dsimp only
          generalize AccountsDb.setAccount rt db first account = out at step
          generalize AccountsDb.setAccount rt db' first account = out' at step
          cases step with
          | none => exact .none
          | @some out out' step =>
              rcases out with ⟨result, mid⟩
              rcases out' with ⟨result', mid'⟩
              obtain ⟨rfl, between⟩ := step
              have rest := ih between fun key inside account found program =>
                (restsLater key inside account found program).imp Or.inl
                  fun codes code data => Or.inl (codes code data)
              have whole : settled ∪ settledBy rt held (first :: keys) ⊆
                  settled ∪ {key | key = first ∧ ¬ IsProgram first account ∧
                    AccountsDb.accepts rt first account} ∪ settledBy rt held keys := by
                rw [Set.union_assoc]
                apply Set.union_subset_union_right
                rintro key ⟨listed, copy, held', settles⟩
                rcases List.mem_cons.mp listed with rfl | later
                · rw [found, Option.some.injEq] at held'
                  exact Or.inl ⟨rfl, held' ▸ settles⟩
                · exact Or.inr ⟨later, copy, held', settles⟩
              cases result with
              | error e => exact rel_imp rest fun _ _ same => same.mono whole
              | ok done => exact rel_map rest fun _ _ same => same.mono whole

theorem withClock (kept : ∀ key ∈ settled, key ≠ Sysvar.clock.id → db.inner key = db'.inner key)
    (programs : Set.EqOn db.programsCache db'.programsCache loadedᶜ) {clock clock' : Clock}
    (slots : clock.slot = clock'.slot) (clocks : Sysvar.clock.id ∈ settled → clock = clock') :
    SameOn settled loaded (db.withClock rt clock) (db'.withClock rt clock') := by
  have shows : Set.EqOn (db.withClock rt clock).inner (db'.withClock rt clock').inner settled := by
    intro key inside
    unfold AccountsDb.withClock
    by_cases here : key = Sysvar.clock.id
    · rw [clocks (here ▸ inside), here]
      dsimp only
      rw [Function.update_self, Function.update_self]
    · dsimp only
      rw [Function.update_of_ne here, Function.update_of_ne here, kept key inside here]
  exact ⟨shows, programs, fun _ inside => AccountsDb.refill_congr (shows inside), slots⟩

end SameOn

/-- A warp brings an SVM and what is kept of it together. -/
theorem KeptBut.warped {touched loaded : Set Pubkey} {rt : Runtime Program Table}
    {db db' : AccountsDb Program} (kept : KeptBut touched loaded db db') (slot : UInt64) :
    Option.Rel (SameOn touchedᶜ loaded) (db.warpToSlot rt slot) (db'.warpToSlot rt slot) := by
  have clocks : ∀ clock clock', db.toldClock = some clock → db'.toldClock = some clock' →
      Sysvar.clock.id ∈ touchedᶜ → { clock with slot := slot } = { clock' with slot := slot } := by
    intro clock clock' told told' outside
    have same := kept.clock outside
    rw [told, told', Option.map_some, Option.map_some, Option.some.injEq] at same
    exact (congrArg (fun timeless => { timeless with slot := slot }) same).symm
  rw [AccountsDb.warpToSlot_eq, AccountsDb.warpToSlot_eq]
  have both := kept.told
  cases told : db.toldClock with
  | none =>
      rw [told, Option.isSome_none, Option.isSome_eq_false_iff, Option.isNone_iff_eq_none] at both
      rw [both]
      exact .none
  | some clock =>
      rw [told, Option.isSome_some] at both
      rcases Option.isSome_iff_exists.mp both with ⟨clock', told'⟩
      rw [told']
      refine .some (SameOn.withClock ?_ ?_ rfl (clocks clock clock' told told'))
      · exact fun key outside other => (kept.inner key outside other).symm
      · exact fun key outside => (kept.programs key outside).symm

/-! ## Runs that read what is settled -/

namespace AccountsDb

variable {rt : Runtime Program Table} {db db' : AccountsDb Program}

theorem loadLookupTableAddresses_congr (rt : Runtime Program Table)
    {lookup : MessageAddressTableLookup}
    (table : db.inner lookup.accountKey = db'.inner lookup.accountKey)
    (sysvars : db.sysvarCache = db'.sysvarCache) :
    loadLookupTableAddresses rt db lookup = loadLookupTableAddresses rt db' lookup := by
  rw [loadLookupTableAddresses, loadLookupTableAddresses, table, clock?, clock?, sysvars]

theorem loadAddresses_congr {lookups : List MessageAddressTableLookup}
    (tables : ∀ lookup ∈ lookups, db.inner lookup.accountKey = db'.inner lookup.accountKey)
    (sysvars : db.sysvarCache = db'.sysvarCache) :
    loadAddresses rt db lookups = loadAddresses rt db' lookups := by
  induction lookups with
  | nil => rfl
  | cons lookup lookups ih =>
      have first := loadLookupTableAddresses_congr rt
        (tables lookup (List.mem_cons_self ..)) sysvars
      have rest := ih fun later inside => tables later (List.mem_cons_of_mem _ inside)
      rw [loadAddresses, loadAddresses, first, rest]

end AccountsDb

/-- A run that reads only settled accounts, and no program that was loaded, ends alike. -/
theorem SameOn.simulateTransaction {settled loaded : Set Pubkey} {rt : Runtime Program Table}
    {programdata : Account → Option Pubkey} {db db' : AccountsDb Program} {wsolAta : Pubkey}
    {tx litesvmTx : VersionedTransaction} (readsOnly : rt.ReadsOnly programdata)
    (same : SameOn settled loaded db db') (converted : toLitesvmTx rt tx = .ok litesvmTx)
    (reads : ∀ key, Reads rt wsolAta db tx key → key ∈ settled ∧ key ∉ loaded) :
    db.simulateTransaction rt litesvmTx = db'.simulateTransaction rt litesvmTx := by
  unfold AccountsDb.simulateTransaction
  dsimp only
  cases sane : rt.sanitize litesvmTx with
  | error e => rfl
  | ok done =>
      have settles : ∀ key, (key = wsolAta ∨ (∃ sysvar : Sysvar, key = sysvar.id) ∨
          (∃ lookup ∈ litesvmTx.message.addressTableLookups, key = lookup.accountKey) ∨
          ∃ loaded, db.loadAddresses rt litesvmTx.message.addressTableLookups =
            some (.ok loaded) ∧ ReadsRun db litesvmTx loaded key) → key ∈ settled ∧ key ∉ loaded :=
        fun key how => reads key ⟨litesvmTx, converted, sane, how⟩
      have sysvars : db.sysvarCache = db'.sysvarCache := by
        funext sysvar
        exact same.sysvars sysvar (settles _ (Or.inr (Or.inl ⟨sysvar, rfl⟩))).1
      have loads : db.loadAddresses rt litesvmTx.message.addressTableLookups =
          db'.loadAddresses rt litesvmTx.message.addressTableLookups := by
        refine AccountsDb.loadAddresses_congr ?_ sysvars
        intro lookup inside
        exact same.inner (settles _ (Or.inr (Or.inr (Or.inl ⟨lookup, inside, rfl⟩)))).1
      dsimp only
      rw [← loads]
      cases found : db.loadAddresses rt litesvmTx.message.addressTableLookups with
      | none => rfl
      | some addresses =>
          cases addresses with
          | error e => rfl
          | ok addresses =>
              dsimp only
              refine readsOnly.execute db db' litesvmTx addresses ?_ sysvars same.programsSlot
              intro key run
              obtain ⟨inside, outside⟩ :=
                settles key (Or.inr (Or.inr (Or.inr ⟨addresses, found, run⟩)))
              exact ⟨same.inner inside, same.programs outside⟩

/-! ## A call on both -/

namespace SimulateCall

variable {rt : Runtime Program Table} {showPubkey : Pubkey → String} {call : SimulateCall}

theorem prepared_eq (db : AccountsDb Program) :
    call.prepared rt showPubkey db = (db.warpToSlot rt call.liveSlot).bind fun warped =>
      (injectAlts rt (call.fetched showPubkey) call.alts warped).bind fun out =>
        (injectAccounts rt (call.fetched showPubkey) call.accounts out.1).map Prod.fst := by
  unfold prepared prepare
  cases db.warpToSlot rt call.liveSlot with
  | none => rfl
  | some warped =>
      dsimp only [Option.bind_some]
      cases injectAlts rt (call.fetched showPubkey) call.alts warped with
      | none => rfl
      | some out => exact Option.map_map ..

/-- What the call answers from the SVM that it has prepared. -/
def answer (rt : Runtime Program Table) (showPubkey : Pubkey → String) (call : SimulateCall)
    (sim : Simulator Program) (svm : AccountsDb Program) :
    Option (Except SimError SimOutcome × AccountCache × Nat) :=
  match toLitesvmTx rt call.tx with
  | .error e => some (.error e, call.fetched showPubkey, 0)
  | .ok litesvmTx =>
      (svm.simulateTransaction rt litesvmTx).map fun run =>
        let judged := judge sim (parseWsolAmount svm sim.wsolAta) call.minAcceptableOut run
        (judged.1, call.fetched showPubkey, judged.2)

theorem judge_svm (sim : Simulator Program) (svm : AccountsDb Program) (before minOut : UInt64)
    (run : Except FailedTransactionMetadata SimulatedTransactionInfo) :
    judge { sim with svm := svm } before minOut run = judge sim before minOut run := by
  cases run <;> rfl

theorem outcome_eq (sim : Simulator Program) (svm : AccountsDb Program) :
    call.outcome rt showPubkey { sim with svm := svm } =
      (call.prepared rt showPubkey svm).bind (call.answer rt showPubkey sim) := by
  unfold outcome on Simulator.simulate prepared answer fetched accounts
  dsimp only
  cases prepare rt svm call.liveSlot (lazyFetch showPubkey call.getAccount call.cache
      (collectTxAccounts call.tx call.alts)) call.alts (collectTxAccounts call.tx call.alts) with
  | none => rfl
  | some out =>
      rcases out with ⟨ready, done⟩
      dsimp only [Option.map_some, Option.bind_some]
      cases toLitesvmTx rt call.tx with
      | error e => rfl
      | ok litesvmTx =>
          dsimp only
          cases ready.simulateTransaction rt litesvmTx with
          | none => rfl
          | some run =>
              dsimp only [Option.map_some]
              rw [judge_svm]

/-- The preparation brings an SVM and what is kept of it together, but for what is touched
and not set again. -/
theorem prepared_rel {touched loaded : Set Pubkey} {programdata : Account → Option Pubkey}
    {db db' : AccountsDb Program} (readsOnly : rt.ReadsOnly programdata)
    (kept : KeptBut touched loaded db db')
    (rests : ∀ key account, call.Offers key account → IsProgram key account →
      Sysvar.clock.id ∉ touched ∧ ∀ code, programdata account = some code → code ∉ touched) :
    Option.Rel (SameOn (touchedᶜ ∪ call.settled rt) loaded)
      (call.prepared rt showPubkey db) (call.prepared rt showPubkey db') := by
  rw [prepared_eq, prepared_eq]
  apply rel_bind (kept.warped call.liveSlot)
  intro warped warped' same
  have tables := same.inject readsOnly (call.fetched showPubkey).get
    (call.alts.map AddressLookupTableAccount.key) fun key inside account found =>
      rests key account (offers_of_get found (Or.inl inside))
  apply rel_bind tables
  intro out out' same
  have plain : ∀ key ∈ call.accounts, ∀ account,
      ((call.fetched showPubkey).get key).filter (fun acct => !acct.executable) = some account →
        ¬ IsProgram key account := by
    intro key inside account found program
    have plain := (Option.filter_eq_some_iff.mp found).2
    rw [program.1] at plain
    cases plain
  have accounts := same.inject readsOnly _ call.accounts fun key inside account found program =>
    absurd program (plain key inside account found)
  apply rel_map accounts
  intro final final' same
  apply same.mono
  rw [Set.union_assoc]
  apply Set.union_subset_union_right
  rintro key ⟨account, ⟨found, listed⟩, settles⟩
  have cached : (call.fetched showPubkey).get key = some account := by
    rw [get_fetched, found]
  rcases listed with inTables | ⟨collected, notExecutable⟩
  · exact Or.inl ⟨inTables, account, cached, settles⟩
  · exact Or.inr ⟨collected, account, filter_of_plain cached notExecutable, settles⟩

/-- The answer is a matter of what the call reads. -/
theorem answer_congr {settled loaded : Set Pubkey} {programdata : Account → Option Pubkey}
    {db db' : AccountsDb Program} {sim : Simulator Program}
    (readsOnly : rt.ReadsOnly programdata) (same : SameOn settled loaded db db')
    (reads : ∀ key, Reads rt sim.wsolAta db call.tx key → key ∈ settled ∧ key ∉ loaded) :
    call.answer rt showPubkey sim db = call.answer rt showPubkey sim db' := by
  unfold answer
  cases converted : toLitesvmTx rt call.tx with
  | error e => rfl
  | ok litesvmTx =>
      dsimp only
      rw [← same.simulateTransaction readsOnly converted reads]
      cases ran : db.simulateTransaction rt litesvmTx with
      | none => rfl
      | some run =>
          cases run with
          | error failed => rfl
          | ok info =>
              have sane : rt.sanitize litesvmTx = .ok () := by
                cases sane : rt.sanitize litesvmTx with
                | ok done => rfl
                | error e =>
                    rw [AccountsDb.simulateTransaction, sane] at ran
                    cases ran
              have balance : db.inner sim.wsolAta = db'.inner sim.wsolAta :=
                same.inner (reads _ ⟨litesvmTx, converted, sane, Or.inl rfl⟩).1
              rw [parseWsolAmount, balance, ← parseWsolAmount]

/-- **A call after what is kept.** If every leftover that the call reads is set again, it
cannot tell the SVM that is left from the one before. -/
theorem outcome_of_kept {touched loaded : Set Pubkey} {programdata : Account → Option Pubkey}
    {fresh : Simulator Program} {svm : AccountsDb Program}
    (readsOnly : rt.ReadsOnly programdata) (kept : KeptBut touched loaded fresh.svm svm)
    (rests : ∀ key account, call.Offers key account → IsProgram key account →
      Sysvar.clock.id ∉ touched ∧ ∀ code, programdata account = some code → code ∉ touched)
    (reads : ∀ ready, call.prepared rt showPubkey fresh.svm = some ready →
      ∀ key, Reads rt fresh.wsolAta ready call.tx key →
        (key ∈ touched → key ∈ call.settled rt) ∧ key ∉ loaded) :
    call.outcome rt showPubkey { fresh with svm := svm } = call.outcome rt showPubkey fresh := by
  have related : Option.Rel (SameOn (touchedᶜ ∪ call.settled rt) loaded)
      (call.prepared rt showPubkey fresh.svm) (call.prepared rt showPubkey svm) :=
    prepared_rel readsOnly kept rests
  have unused : call.outcome rt showPubkey fresh =
      (call.prepared rt showPubkey fresh.svm).bind (call.answer rt showPubkey fresh) :=
    outcome_eq fresh fresh.svm
  rw [outcome_eq, unused]
  generalize call.prepared rt showPubkey svm = out' at related
  generalize first : call.prepared rt showPubkey fresh.svm = out at related
  cases related with
  | none => rfl
  | @some ready ready' same =>
      refine (answer_congr readsOnly same ?_).symm
      intro key read
      obtain ⟨again, outside⟩ := reads ready first key read
      refine ⟨?_, outside⟩
      by_cases left : key ∈ touched
      · exact Or.inr (again left)
      · exact Or.inl left

end SimulateCall

end ArbBot
