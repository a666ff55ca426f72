import ArbBot.Simulator.Injection
import Mathlib.Data.Set.Function

/-!
# What a call leaves in the SVM

An account that a call sets stays in the SVM until a later call sets it again, and so does a
program that it loads. `SimulateCall.touched` and `SimulateCall.loaded` say which ones those
may be; a call leaves the rest as it was, but for the slot of the clock
(`KeptBut.of_simulate`).
-/

namespace ArbBot

open Foundation Sdk

/-! ## Calls -/

/-- The arguments of `simulate`, with the slot it loads and the answers of the RPC node. -/
structure SimulateCall where
  liveSlot : UInt64
  tx : VersionedTransaction
  alts : List AddressLookupTableAccount
  cache : AccountCache
  getAccount : Pubkey → Except String Account
  minAcceptableOut : UInt64

/-- `add_account` loads the account as a program. -/
def IsProgram (pubkey : Pubkey) (account : Account) : Prop :=
  account.executable = true ∧ pubkey ≠ noOwner ∧ account.owner ≠ nativeLoader

instance (pubkey : Pubkey) (account : Account) : Decidable (IsProgram pubkey account) :=
  inferInstanceAs (Decidable (_ ∧ _ ∧ _))

variable {Program Table : Type}

namespace SimulateCall

def on (rt : Runtime Program Table) (showPubkey : Pubkey → String) (call : SimulateCall)
    (sim : Simulator Program) : Option (Simulation Program) :=
  sim.simulate rt showPubkey call.getAccount call.liveSlot call.tx call.alts call.cache
    call.minAcceptableOut

/-- What the caller sees of a call: the result, the cache, and the transactions that are
counted as dropped. -/
def outcome (rt : Runtime Program Table) (showPubkey : Pubkey → String) (call : SimulateCall)
    (sim : Simulator Program) : Option (Except SimError SimOutcome × AccountCache × Nat) :=
  (call.on rt showPubkey sim).map fun after => (after.result, after.cache, after.txDropped)

def accounts (call : SimulateCall) : List Pubkey := collectTxAccounts call.tx call.alts

/-- The cache after the fetch. -/
def fetched (showPubkey : Pubkey → String) (call : SimulateCall) : AccountCache :=
  lazyFetch showPubkey call.getAccount call.cache call.accounts

/-- The SVM as `simulate_transaction` finds it. -/
def prepared (rt : Runtime Program Table) (showPubkey : Pubkey → String) (call : SimulateCall)
    (svm : AccountsDb Program) : Option (AccountsDb Program) :=
  (prepare rt svm call.liveSlot (call.fetched showPubkey) call.alts call.accounts).map Prod.fst

/-- The account that the cache holds after the fetch. -/
def held (call : SimulateCall) (key : Pubkey) : Option Account :=
  if key ∈ call.accounts then call.cache.known call.getAccount key else call.cache.get key

/-- The call hands the account to `set_account`: as that of a table, or as a collected one
that is not executable. -/
def Offers (call : SimulateCall) (key : Pubkey) (account : Account) : Prop :=
  call.held key = some account ∧
    (key ∈ call.alts.map AddressLookupTableAccount.key ∨
      key ∈ call.accounts ∧ account.executable = false)

/-- The call sets the account, or loads it as a program if it can. -/
def Sets (rt : Runtime Program Table) (call : SimulateCall) (key : Pubkey) (account : Account) :
    Prop :=
  call.Offers key account ∧ (IsProgram key account ∨ AccountsDb.accepts rt key account)

/-- The keys whose accounts the call may change. -/
def touched (rt : Runtime Program Table) (call : SimulateCall) : Set Pubkey :=
  {key | ∃ account, call.Sets rt key account}

/-- The keys whose programs the call may change. -/
def loaded (call : SimulateCall) : Set Pubkey :=
  {key | ∃ account, call.Offers key account ∧ IsProgram key account}

/-- The keys whose accounts the call sets, whatever the SVM is. -/
def settled (rt : Runtime Program Table) (call : SimulateCall) : Set Pubkey :=
  {key | ∃ account, call.Offers key account ∧ ¬ IsProgram key account ∧
    AccountsDb.accepts rt key account}

theorem get_fetched (showPubkey : Pubkey → String) (call : SimulateCall) :
    (call.fetched showPubkey).get = call.held :=
  funext fun key => get_lazyFetch showPubkey call.getAccount call.cache call.accounts key

/-- What the injections hand to `set_account`. -/
theorem offers_of_get {showPubkey : Pubkey → String} {call : SimulateCall} {key : Pubkey}
    {account : Account} (found : (call.fetched showPubkey).get key = some account)
    (listed : key ∈ call.alts.map AddressLookupTableAccount.key ∨
      key ∈ call.accounts ∧ account.executable = false) : call.Offers key account :=
  ⟨get_fetched showPubkey call ▸ found, listed⟩

end SimulateCall

/-! ## One account -/

namespace AccountsDb

variable {rt : Runtime Program Table} {db db' : AccountsDb Program} {pubkey : Pubkey}
  {account : Account} {result : Except LiteSvmError Unit}

theorem checkAccount_of_not_program (db : AccountsDb Program)
    (plain : ¬ IsProgram pubkey account) :
    checkAccount rt db pubkey account = some (maybeHandleSysvarAccount rt db pubkey account) :=
  if_neg plain

theorem checkAccount_of_program (db : AccountsDb Program) (program : IsProgram pubkey account) :
    checkAccount rt db pubkey account = db.clock?.map fun clock =>
      match rt.loadProgram db clock.slot account with
      | .error e => (.error (.instruction e), db)
      | .ok program =>
          (.ok (),
            { db with
              programsCache := Function.update db.programsCache pubkey (some program) }) := by
  refine (if_pos program).trans ?_
  cases db.clock? with
  | none => rfl
  | some clock =>
      dsimp only [Option.map_some]
      cases rt.loadProgram db clock.slot account <;> rfl

/-- LiteSVM takes programs that load and accounts that it accepts. -/
theorem program_or_accepts (taken : addAccount rt db pubkey account = some (.ok (), db')) :
    IsProgram pubkey account ∨ accepts rt pubkey account := by
  by_cases program : IsProgram pubkey account
  · exact Or.inl program
  · right
    have handled := (maybeHandleSysvarAccount_cases rt db pubkey account).1
    unfold addAccount at taken
    rw [checkAccount_of_not_program db program] at taken
    generalize maybeHandleSysvarAccount rt db pubkey account = handling at handled taken
    rcases handling with ⟨e | none, mid⟩
    · cases taken
    · exact handled.mp rfl

theorem programsCache_maybeHandleSysvarAccount (rt : Runtime Program Table)
    (db : AccountsDb Program) (pubkey : Pubkey) (account : Account) :
    (maybeHandleSysvarAccount rt db pubkey account).2.programsCache = db.programsCache := by
  unfold maybeHandleSysvarAccount
  dsimp only
  split
  · rfl
  · split <;> rfl
  · split <;> rfl

/-- Programs change only where one is loaded. -/
theorem programsCache_of_addAccount {key : Pubkey}
    (added : addAccount rt db pubkey account = some (result, db'))
    (other : key = pubkey → ¬ IsProgram pubkey account) :
    db'.programsCache key = db.programsCache key := by
  have kept : ∀ {result : Except LiteSvmError Unit} {mid : AccountsDb Program},
      checkAccount rt db pubkey account = some (result, mid) →
        mid.programsCache key = db.programsCache key := by
    intro result mid checked
    by_cases program : IsProgram pubkey account
    · rw [checkAccount_of_program db program] at checked
      rcases Option.map_eq_some_iff.mp checked with ⟨clock, -, same⟩
      split at same
      · cases same
        rfl
      · cases same
        exact Function.update_of_ne (fun same => other same program) ..
    · rw [checkAccount_of_not_program db program] at checked
      have same := programsCache_maybeHandleSysvarAccount rt db pubkey account
      rw [Option.some.inj checked] at same
      rw [same]
  unfold addAccount at added
  split at added
  · cases added
  · rename_i e mid checked
    cases added
    exact kept checked
  · rename_i mid checked
    cases added
    exact (kept checked :)

/-! ## The warp -/

/-- The clock that the account of the clock tells. -/
def toldClock (db : AccountsDb Program) : Option Clock :=
  (db.inner Sysvar.clock.id).bind fun account => Clock.parse account.data

/-- The database with another clock. -/
def withClock (rt : Runtime Program Table) (db : AccountsDb Program) (clock : Clock) :
    AccountsDb Program :=
  let inner := Function.update db.inner Sysvar.clock.id (some (clockAccount clock))
  { db with inner := inner, programsSlot := clock.slot, sysvarCache := refill rt inner }

theorem warpToSlot_eq (db : AccountsDb Program) (slot : UInt64) :
    db.warpToSlot rt slot =
      db.toldClock.map fun clock => db.withClock rt { clock with slot := slot } := by
  unfold warpToSlot toldClock
  cases (db.inner Sysvar.clock.id).bind fun account => Clock.parse account.data with
  | none => rfl
  | some clock =>
      have parsed : Clock.parse (clockAccount { clock with slot := slot }).data =
          some { clock with slot := slot } := Clock.parse_bytes _
      have funded : shown (clockAccount { clock with slot := slot }) =
          some (clockAccount { clock with slot := slot }) :=
        if_neg (show (1 : UInt64) ≠ 0 by decide)
      have plain : ¬ IsProgram Sysvar.clock.id (clockAccount { clock with slot := slot }) :=
        fun program => Bool.false_ne_true program.1
      have added : addAccount rt db Sysvar.clock.id (clockAccount { clock with slot := slot }) =
          some (.ok (), db.withClock rt { clock with slot := slot }) := by
        rw [addAccount, checkAccount_of_not_program db plain, maybeHandleSysvarAccount,
          sysvarAt_clock]
        dsimp only
        rw [parsed, funded]
        rfl
      dsimp only
      rw [added]
      rfl

@[simp]
theorem toldClock_withClock (db : AccountsDb Program) (clock : Clock) :
    (db.withClock rt clock).toldClock = some clock := by
  unfold toldClock withClock
  dsimp only
  rw [Function.update_self]
  exact Clock.parse_bytes clock

end AccountsDb

/-! ## What stays -/

/-- All of the clock but its slot. -/
def Clock.timeless (clock : Clock) : Clock := { clock with slot := 0 }

/-- The second database is the first one but for these accounts and programs, for the slot of
the clock, and for what every warp makes anew. -/
structure KeptBut (touched loaded : Set Pubkey) (db db' : AccountsDb Program) : Prop where
  inner : ∀ key ∉ touched, key ≠ Sysvar.clock.id → db'.inner key = db.inner key
  programs : ∀ key ∉ loaded, db'.programsCache key = db.programsCache key
  clock : Sysvar.clock.id ∉ touched →
    db'.toldClock.map Clock.timeless = db.toldClock.map Clock.timeless
  told : db'.toldClock.isSome = db.toldClock.isSome

/-- An account of a clock, which LiteSVM shows. -/
def TellsClock (account : Account) : Prop :=
  account.lamports ≠ 0 ∧ (Clock.parse account.data).isSome

namespace KeptBut

variable {touched loaded touched' loaded' : Set Pubkey} {rt : Runtime Program Table}
  {showPubkey : Pubkey → String} {db db' db'' : AccountsDb Program}

theorem refl (touched loaded : Set Pubkey) (db : AccountsDb Program) :
    KeptBut touched loaded db db :=
  ⟨fun _ _ _ => rfl, fun _ _ => rfl, fun _ => rfl, rfl⟩

theorem trans (first : KeptBut touched loaded db db')
    (second : KeptBut touched' loaded' db' db'') :
    KeptBut (touched ∪ touched') (loaded ∪ loaded') db db'' where
  inner key outside other :=
    (second.inner key (fun inside => outside (Or.inr inside)) other).trans
      (first.inner key (fun inside => outside (Or.inl inside)) other)
  programs key outside :=
    (second.programs key fun inside => outside (Or.inr inside)).trans
      (first.programs key fun inside => outside (Or.inl inside))
  clock outside :=
    (second.clock fun inside => outside (Or.inr inside)).trans
      (first.clock fun inside => outside (Or.inl inside))
  told := second.told.trans first.told

theorem mono (kept : KeptBut touched loaded db db') (more : touched ⊆ touched')
    (more' : loaded ⊆ loaded') : KeptBut touched' loaded' db db' where
  inner key outside := kept.inner key fun inside => outside (more inside)
  programs key outside := kept.programs key fun inside => outside (more' inside)
  clock outside := kept.clock fun inside => outside (more inside)
  told := kept.told

theorem of_warp {slot : UInt64} (warped : db.warpToSlot rt slot = some db') :
    KeptBut ∅ ∅ db db' := by
  rw [AccountsDb.warpToSlot_eq] at warped
  rcases Option.map_eq_some_iff.mp warped with ⟨clock, told, rfl⟩
  refine ⟨?_, fun _ _ => rfl, fun _ => ?_, ?_⟩
  · intro key _ other
    exact Function.update_of_ne other ..
  · rw [AccountsDb.toldClock_withClock, told]
    rfl
  · rw [AccountsDb.toldClock_withClock, told]
    rfl

/-- The frame of one account. -/
theorem of_setAccount {key : Pubkey} {account : Account} {result : Except LiteSvmError Unit}
    (touches : IsProgram key account ∨ AccountsDb.accepts rt key account → key ∈ touched)
    (loads : IsProgram key account → key ∈ loaded)
    (tells : key = Sysvar.clock.id → IsProgram key account ∨ AccountsDb.accepts rt key account →
      TellsClock account)
    (set : AccountsDb.setAccount rt db key account = some (result, db'))
    (told : db.toldClock.isSome) : KeptBut touched loaded db db' := by
  have programs : ∀ other ∉ loaded, db'.programsCache other = db.programsCache other := by
    intro other outside
    apply AccountsDb.programsCache_of_addAccount set
    intro same program
    exact outside (same ▸ loads program)
  rcases AccountsDb.inner_of_addAccount set with ⟨taken, after⟩ | ⟨-, after⟩
  · have taking : IsProgram key account ∨ AccountsDb.accepts rt key account :=
      AccountsDb.program_or_accepts (taken ▸ set)
    have elsewhere : ∀ other, other ≠ key → db'.inner other = db.inner other := by
      intro other differs
      rw [after, Function.update_of_ne differs]
    refine ⟨?_, programs, ?_, ?_⟩
    · intro other outside _
      apply elsewhere
      rintro rfl
      exact outside (touches taking)
    · intro outside
      have differs : Sysvar.clock.id ≠ key := by
        rintro rfl
        exact outside (touches taking)
      rw [AccountsDb.toldClock, elsewhere _ differs, AccountsDb.toldClock]
    · by_cases same : key = Sysvar.clock.id
      · obtain ⟨funded, parses⟩ := tells same taking
        rw [told, AccountsDb.toldClock, after, ← same, Function.update_self, AccountsDb.shown,
          if_neg funded]
        exact parses
      · rw [AccountsDb.toldClock, elsewhere _ (Ne.symm same), AccountsDb.toldClock]
  · refine ⟨fun other _ _ => by rw [after], programs, fun _ => ?_, ?_⟩
    · rw [AccountsDb.toldClock, after, AccountsDb.toldClock]
    · rw [AccountsDb.toldClock, after, AccountsDb.toldClock]

variable {call : SimulateCall}

theorem of_inject {held : Pubkey → Option Account} {keys : List Pubkey}
    {done : List (Pubkey × Account)}
    (offers : ∀ key ∈ keys, ∀ account, held key = some account → call.Offers key account)
    (tells : ∀ account, call.Sets rt Sysvar.clock.id account → TellsClock account)
    (ran : inject rt held db keys = some (db', done)) (told : db.toldClock.isSome) :
    KeptBut (call.touched rt) call.loaded db db' := by
  apply inject_keeps (KeptBut (call.touched rt) call.loaded db) _ ran (refl ..)
  intro mid mid' key account result inside found set kept
  have offered := offers key inside account found
  have step : KeptBut (call.touched rt) call.loaded mid mid' :=
    of_setAccount (fun taking => ⟨account, offered, taking⟩)
      (fun program => ⟨account, offered, program⟩)
      (fun same taking => tells account (same ▸ ⟨offered, taking⟩)) set
      (kept.told.trans told)
  rw [← Set.union_self (call.touched rt), ← Set.union_self call.loaded]
  exact kept.trans step

/-- **The frame of a call.** -/
theorem of_simulate {sim : Simulator Program} {after : Simulation Program}
    (tells : ∀ account, call.Sets rt Sysvar.clock.id account → TellsClock account)
    (ran : call.on rt showPubkey sim = some after) :
    KeptBut (call.touched rt) call.loaded sim.svm after.simulator.svm := by
  obtain ⟨done, prepared⟩ := svm_of_simulate ran
  obtain ⟨warped, mid, tables, later, onTime, first, second, -⟩ := injections_of_prepare prepared
  have told : warped.toldClock.isSome := by
    rw [AccountsDb.warpToSlot_eq] at onTime
    rcases Option.map_eq_some_iff.mp onTime with ⟨clock, -, rfl⟩
    rw [AccountsDb.toldClock_withClock]
    rfl
  have fromTables : KeptBut (call.touched rt) call.loaded warped mid := by
    refine of_inject ?_ tells first told
    intro key inside account found
    exact SimulateCall.offers_of_get found (Or.inl inside)
  have fromAccounts : KeptBut (call.touched rt) call.loaded mid after.simulator.svm := by
    refine of_inject ?_ tells second (fromTables.told.trans told)
    intro key inside account found
    obtain ⟨found, plain⟩ := Option.filter_eq_some_iff.mp found
    exact SimulateCall.offers_of_get found (Or.inr ⟨inside, by simpa using plain⟩)
  have whole := ((of_warp onTime).trans fromTables).trans fromAccounts
  simpa only [Set.empty_union, Set.union_self] using whole

end KeptBut

end ArbBot
