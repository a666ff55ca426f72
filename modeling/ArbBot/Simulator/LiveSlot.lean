import ArbBot.Simulator.Injection

/-!
# The slot of a simulation

`simulate` warps the SVM to the live slot and then sets the accounts that the transaction
names. The account of the clock is one of them if the transaction names it: the cached copy,
which `get_or_fetch` reads once and keeps, replaces the clock that was just warped. The SVM
runs at the live slot exactly when no such copy tells another one (`live_slot_iff`).
-/

namespace ArbBot

open Foundation Sdk

/-! ## The clock and its account -/

/-- The account is that of a clock at the slot. -/
def ShowsSlot (account : Option Account) (slot : UInt64) : Prop :=
  ∃ copy clock, account = some copy ∧ Clock.parse copy.data = some clock ∧ clock.slot = slot

/-- The SVM is at the slot, in the sysvar that it runs with and in the account. -/
def ClockShows {Program : Type} (db : AccountsDb Program) (slot : UInt64) : Prop :=
  (∃ clock, db.clock? = some clock ∧ clock.slot = slot) ∧
    ShowsSlot (db.inner Sysvar.clock.id) slot

/-- The clock has the account, and the sysvar follows it. -/
structure ClockIs {Program Table : Type} (rt : Runtime Program Table) (db : AccountsDb Program)
    (account : Option Account) : Prop where
  inner : db.inner Sysvar.clock.id = account
  follows : account ≠ none → db.sysvarCache .clock = AccountsDb.refill rt db.inner .clock

/-- The account of the clock after a copy, if there is one, was set over the one before. -/
def settled (copy before : Option Account) : Option Account :=
  match copy with
  | none => before
  | some account =>
      if (Clock.parse account.data).isSome then AccountsDb.shown account else before

/-- The copy does not move the clock away from the slot. -/
def Account.TellsSlot (account : Account) (slot : UInt64) : Prop :=
  ∀ clock, Clock.parse account.data = some clock → clock.slot = slot ∧ account.lamports ≠ 0

theorem settled_settled (copy before : Option Account) :
    settled copy (settled copy before) = settled copy before := by
  cases copy with
  | none => rfl
  | some account =>
      unfold settled
      by_cases decodes : (Clock.parse account.data).isSome
      · simp only [if_pos decodes]
      · simp only [if_neg decodes]

section Clock

variable {Program Table : Type} {rt : Runtime Program Table} {db db' : AccountsDb Program}
  {held : Pubkey → Option Account} {keys : List Pubkey} {done : List (Pubkey × Account)}
  {before : Option Account} {slot : UInt64}

/-- A copy that is set over a clock at the slot keeps it there if it tells that slot. -/
theorem showsSlot_settled_iff (shows : ShowsSlot before slot) (copy : Option Account) :
    ShowsSlot (settled copy before) slot ↔
      ∀ account, copy = some account → account.TellsSlot slot := by
  cases copy with
  | none => exact iff_of_true shows (fun account impossible => by cases impossible)
  | some account =>
      simp only [settled, Option.some.injEq, forall_eq', Account.TellsSlot]
      cases parsed : Clock.parse account.data with
      | none => exact iff_of_true shows (fun clock impossible => by cases impossible)
      | some clock =>
          rw [if_pos (Option.isSome_some), AccountsDb.shown]
          apply Iff.intro
          · intro shows' clock'' equal
            rcases shows' with ⟨other, clock', same, told, atSlot⟩
            cases equal
            split at same
            · cases same
            · rename_i funded
              cases same
              rw [parsed] at told
              cases told
              exact ⟨atSlot, funded⟩
          · intro tells
            obtain ⟨atSlot, funded⟩ := tells clock rfl
            exact ⟨account, clock, if_neg funded, parsed, atSlot⟩

theorem ClockIs.shows_iff (follows : ClockIs rt db before) :
    ClockShows db slot ↔ ShowsSlot before slot := by
  unfold ClockShows
  rw [follows.inner]
  apply and_iff_right_of_imp
  intro ⟨account, clock, present, parsed, same⟩
  refine ⟨clock, ?_, same⟩
  have cached : db.sysvarCache .clock = some account.data := by
    rw [follows.follows (by rw [present]; exact Option.some_ne_none account), AccountsDb.refill,
      follows.inner, present, Option.map_some, Option.filter_some]
    simp [Runtime.decodes, parsed]
  rw [AccountsDb.clock?, cached, Option.bind_some, parsed]

/-- An account at another address leaves the clock. -/
theorem ClockIs.of_set_other {key : Pubkey} {account : Account}
    {result : Except LiteSvmError Unit} (is : ClockIs rt db before)
    (set : AccountsDb.setAccount rt db key account = some (result, db'))
    (other : Sysvar.clock.id ≠ key) : ClockIs rt db' before := by
  have kept : db'.inner Sysvar.clock.id = db.inner Sysvar.clock.id := by
    rcases AccountsDb.inner_of_addAccount set with ⟨-, after⟩ | ⟨-, after⟩
    · rw [after, Function.update_of_ne other]
    · rw [after]
  refine ⟨kept.trans is.inner, ?_⟩
  intro present
  rw [AccountsDb.refill, kept]
  rcases AccountsDb.sysvarCache_of_addAccount set with ⟨refilled, -⟩ | ⟨unchanged, -⟩
  · rw [refilled, AccountsDb.refill, Function.update_of_ne other]
  · rw [unchanged, is.follows present, AccountsDb.refill]

/-- A copy that decodes replaces the clock, whatever it was. -/
theorem ClockIs.of_set_clock {copy : Account} {result : Except LiteSvmError Unit}
    (set : AccountsDb.setAccount rt db Sysvar.clock.id copy = some (result, db'))
    (plain : copy.executable = false) (decodes : (Clock.parse copy.data).isSome) :
    ClockIs rt db' (AccountsDb.shown copy) := by
  have accepted : AccountsDb.accepts rt Sysvar.clock.id copy = true := by
    rw [AccountsDb.accepts, sysvarAt_clock]
    exact decodes
  have written : db'.inner =
      Function.update db.inner Sysvar.clock.id (AccountsDb.shown copy) := by
    rcases AccountsDb.inner_of_addAccount set with ⟨-, after⟩ | ⟨⟨e, refused⟩, -⟩
    · exact after
    · rw [(AccountsDb.ok_iff_of_plain plain set).mpr accepted] at refused
      cases refused
  refine ⟨by rw [written, Function.update_self], ?_⟩
  intro present
  have funded : AccountsDb.shown copy = some copy := by
    unfold AccountsDb.shown at present ⊢
    split at present
    · exact absurd rfl present
    · rename_i funded
      exact if_neg funded
  rw [written, funded]
  rcases AccountsDb.sysvarCache_of_addAccount set with ⟨refilled, -⟩ | ⟨-, excused⟩
  · rw [refilled]
  · rw [plain, sysvarAt_clock, accepted] at excused
    rcases excused with impossible | impossible | impossible <;> cases impossible

/-- A copy that is set at the address of the clock settles it. -/
theorem ClockIs.of_set_copy {copy : Account} {result : Except LiteSvmError Unit}
    (is : ClockIs rt db before)
    (set : AccountsDb.setAccount rt db Sysvar.clock.id copy = some (result, db'))
    (plain : copy.executable = false) : ClockIs rt db' (settled (some copy) before) := by
  unfold settled
  dsimp only
  by_cases decodes : (Clock.parse copy.data).isSome
  · rw [if_pos decodes]
    exact ClockIs.of_set_clock set plain decodes
  · rw [if_neg decodes]
    have refused : ¬ AccountsDb.accepts rt Sysvar.clock.id copy = true := by
      rw [AccountsDb.accepts, sysvarAt_clock]
      exact decodes
    have kept : db'.inner = db.inner := by
      rcases AccountsDb.inner_of_addAccount set with ⟨ok, -⟩ | ⟨-, after⟩
      · exact absurd ((AccountsDb.ok_iff_of_plain plain set).mp ok) refused
      · exact after
    refine ⟨by rw [kept, is.inner], ?_⟩
    intro present
    rcases AccountsDb.sysvarCache_of_addAccount set with ⟨-, accepted⟩ | ⟨unchanged, -⟩
    · exact absurd (accepted sysvarAt_clock) refused
    · rw [unchanged, kept, is.follows present]

/-- What an injection leaves of the clock. -/
theorem ClockIs.of_inject (is : ClockIs rt db before)
    (ran : inject rt held db keys = some (db', done))
    (plain : Sysvar.clock.id ∈ keys → ∀ copy, held Sysvar.clock.id = some copy →
      copy.executable = false) :
    ClockIs rt db' (if Sysvar.clock.id ∈ keys then settled (held Sysvar.clock.id) before
      else before) := by
  induction keys generalizing db before done with
  | nil =>
      cases ran
      exact is
  | cons key keys ih =>
      have later : ∀ {mid : AccountsDb Program} {left : Option Account}
          {rest : List (Pubkey × Account)}, ClockIs rt mid left →
          inject rt held mid keys = some (db', rest) →
          ClockIs rt db' (if Sysvar.clock.id ∈ keys then settled (held Sysvar.clock.id) left
            else left) :=
        fun is ran => ih is ran fun member => plain (List.mem_cons_of_mem _ member)
      by_cases same : Sysvar.clock.id = key
      · subst same
        rw [if_pos (List.mem_cons_self ..)]
        -- The copy is the same each time, so the first time settles it.
        have first : ∀ {mid : AccountsDb Program} {rest : List (Pubkey × Account)},
            ClockIs rt mid (settled (held Sysvar.clock.id) before) →
            inject rt held mid keys = some (db', rest) →
            ClockIs rt db' (settled (held Sysvar.clock.id) before) := by
          intro mid rest is ran
          have settles := later is ran
          rw [settled_settled, ite_self] at settles
          exact settles
        rcases inject_cons ran with ⟨missing, rest⟩ | ⟨copy, result, mid, out, found, set, rest, -⟩
        · exact first (by rw [missing]; exact is) rest
        · exact first (found ▸ is.of_set_copy set (plain (List.mem_cons_self ..) copy found)) rest
      · simp only [List.mem_cons, same, false_or]
        rcases inject_cons ran with ⟨-, rest⟩ | ⟨copy, result, mid, out, -, set, rest, -⟩
        · exact later is rest
        · exact later (is.of_set_other set same) rest

/-- The warp puts the clock at the slot. -/
theorem ClockIs.of_warp {liveSlot : UInt64} (warped : db.warpToSlot rt liveSlot = some db') :
    ∃ account, ShowsSlot (some account) liveSlot ∧ ClockIs rt db' (some account) := by
  unfold AccountsDb.warpToSlot at warped
  split at warped
  · cases warped
  · rename_i clock told
    split at warped
    · rename_i mid added
      cases warped
      have parsed := Clock.parse_bytes { clock with slot := liveSlot }
      refine ⟨AccountsDb.clockAccount { clock with slot := liveSlot }, ?_, ?_⟩
      · exact ⟨_, _, rfl, parsed, rfl⟩
      · exact ClockIs.of_set_clock added rfl (Option.isSome_iff_exists.mpr ⟨_, parsed⟩)
    · cases warped

end Clock

/-! ## The call -/

section Prepared

variable {Program Table : Type} {rt : Runtime Program Table} {showPubkey : Pubkey → String}
  {getAccount : Pubkey → Except String Account} {svm svm' : AccountsDb Program}
  {liveSlot : UInt64} {tx : VersionedTransaction} {alts : List AddressLookupTableAccount}
  {cache : AccountCache} {accounts : List Pubkey} {done : List (Pubkey × Account)}

/-- The clock after the injections, for what the cache holds of it. -/
theorem clock_of_prepare (prepared : prepare rt svm liveSlot cache alts accounts =
      some (svm', done))
    (plain : Sysvar.clock.id ∈ alts.map AddressLookupTableAccount.key →
      ∀ copy, cache.get Sysvar.clock.id = some copy → copy.executable = false) :
    ClockShows svm' liveSlot ↔ ∀ copy, cache.get Sysvar.clock.id = some copy →
      copy.executable = false →
      Sysvar.clock.id ∈ alts.map AddressLookupTableAccount.key ∨ Sysvar.clock.id ∈ accounts →
        copy.TellsSlot liveSlot := by
  obtain ⟨warped, mid, tables, later, onTime, first, second, -⟩ := injections_of_prepare prepared
  obtain ⟨account, shows, warpedIs⟩ := ClockIs.of_warp onTime
  have plainLater : ∀ copy, (cache.get Sysvar.clock.id).filter (fun acct => !acct.executable) =
      some copy → copy.executable = false := by
    intro copy kept
    simpa using (Option.filter_eq_some_iff.mp kept).2
  rw [((warpedIs.of_inject first plain).of_inject second fun _ => plainLater).shows_iff]
  by_cases inTables : Sysvar.clock.id ∈ alts.map AddressLookupTableAccount.key
  · -- The second injection sets the same copy again, if it does.
    have same : (cache.get Sysvar.clock.id).filter (fun acct => !acct.executable) =
        cache.get Sysvar.clock.id := by
      cases held : cache.get Sysvar.clock.id with
      | none => rfl
      | some copy => rw [Option.filter_some, plain inTables copy held]; rfl
    rw [if_pos inTables, same, settled_settled, ite_self, showsSlot_settled_iff shows]
    apply forall₂_congr
    intro copy held
    simp [inTables, plain inTables copy held]
  · rw [if_neg inTables]
    by_cases inAccounts : Sysvar.clock.id ∈ accounts
    · rw [if_pos inAccounts, showsSlot_settled_iff shows]
      simp [Option.filter_eq_some_iff, inAccounts]
    · rw [if_neg inAccounts]
      apply iff_of_true shows
      intro copy _ _ listed
      exact absurd listed (not_or.mpr ⟨inTables, inAccounts⟩)

/-- **The live slot.** For every transaction, tables and cache, the SVM runs at the slot that
the call has read exactly when no copy of the clock that the call sets tells another one. -/
theorem live_slot_iff
    (prepared : prepare rt svm liveSlot
        (lazyFetch showPubkey getAccount cache (collectTxAccounts tx alts)) alts
        (collectTxAccounts tx alts) = some (svm', done))
    (plain : (∃ alt ∈ alts, alt.key = Sysvar.clock.id) →
      ∀ copy, cache.known getAccount Sysvar.clock.id = some copy → copy.executable = false) :
    ClockShows svm' liveSlot ↔ ∀ copy, copy.executable = false →
      (Sysvar.clock.id ∈ collectTxAccounts tx alts ∧
          cache.known getAccount Sysvar.clock.id = some copy) ∨
        ((∃ alt ∈ alts, alt.key = Sysvar.clock.id) ∧
          cache.get Sysvar.clock.id = some copy) →
      copy.TellsSlot liveSlot := by
  have tables : Sysvar.clock.id ∈ alts.map AddressLookupTableAccount.key ↔
      ∃ alt ∈ alts, alt.key = Sysvar.clock.id := List.mem_map
  rw [clock_of_prepare prepared, tables]
  · apply forall_congr'
    intro copy
    rw [get_lazyFetch_eq_some_iff]
    apply Iff.intro
    · intro tells plain named
      rcases named with ⟨collected, known⟩ | ⟨inTables, held⟩
      · exact tells (Or.inl ⟨collected, known⟩) plain (Or.inr collected)
      · exact tells (Or.inr held) plain (Or.inl inTables)
    · intro tells copied plain listed
      rcases copied with ⟨collected, known⟩ | held
      · exact tells plain (Or.inl ⟨collected, known⟩)
      · rcases listed with inTables | collected
        · exact tells plain (Or.inr ⟨inTables, held⟩)
        · exact tells plain (Or.inl ⟨collected, AccountCache.known_of_get held⟩)
  · intro inTables copy held
    apply plain (tables.mp inTables) copy
    rcases get_lazyFetch_eq_some_iff.mp held with ⟨-, known⟩ | held
    · exact known
    · exact AccountCache.known_of_get held

end Prepared

/-- A transaction that does not name the clock runs at the live slot. -/
theorem live_slot_iff_lookupTx :
    ∃ svm done, prepare bareRuntime bareSvm 12
        (lazyFetch (fun _ => "") chainAccount AccountCache.new
          (collectTxAccounts lookupTx lookupTables)) lookupTables
        (collectTxAccounts lookupTx lookupTables) = some (svm, done) ∧ ClockShows svm 12 := by
  have ran : (prepare bareRuntime bareSvm 12
      (lazyFetch (fun _ => "") chainAccount AccountCache.new [payerKey, mintKey]) lookupTables
      [payerKey, mintKey]).isSome := by decide
  rw [← collect_lookupTx] at ran
  rcases Option.isSome_iff_exists.mp ran with ⟨⟨svm, done⟩, prepared⟩
  have unlisted : ¬ ∃ alt ∈ lookupTables, alt.key = Sysvar.clock.id := by
    intro ⟨alt, inside, same⟩
    rcases List.mem_singleton.mp inside
    revert same
    decide
  have uncollected : Sysvar.clock.id ∉ collectTxAccounts lookupTx lookupTables := by
    rw [collect_lookupTx]
    decide
  refine ⟨svm, done, prepared, (live_slot_iff prepared fun listed => absurd listed unlisted).mpr ?_⟩
  intro copy plain named
  rcases named with ⟨collected, -⟩ | ⟨listed, -⟩
  · exact absurd collected uncollected
  · exact absurd listed unlisted

/-! ### A clock from an earlier call -/

def clockTx : VersionedTransaction where
  message := .v0 {
    accountKeys := [payerKey, Sysvar.clock.id]
    instructions := []
    addressTableLookups := [] }

/-- The clock that an earlier call fetched at slot 5. -/
def clockCache : AccountCache :=
  AccountCache.new.insert Sysvar.clock.id (AccountsDb.clockAccount ⟨5, 0, 0, 0, 0⟩)

/-- The call reads slot 12 and simulates at slot 5. -/
theorem live_slot_lost :
    ∃ svm done, prepare bareRuntime bareSvm 12
        (lazyFetch (fun _ => "") chainAccount clockCache (collectTxAccounts clockTx [])) []
        (collectTxAccounts clockTx []) = some (svm, done) ∧
      svm.clock?.map Clock.slot = some 5 ∧ ¬ ClockShows svm 12 := by
  have collected : collectTxAccounts clockTx [] = [payerKey, Sysvar.clock.id] :=
    sortDedup_of_sorted (by decide)
  rw [collected]
  have ran : (prepare bareRuntime bareSvm 12
      (lazyFetch (fun _ => "") chainAccount clockCache [payerKey, Sysvar.clock.id]) []
      [payerKey, Sysvar.clock.id]).map (fun out => out.1.clock?.map Clock.slot) =
        some (some 5) := by decide
  rcases Option.map_eq_some_iff.mp ran with ⟨⟨svm, done⟩, prepared, atFive⟩
  refine ⟨svm, done, prepared, atFive, ?_⟩
  intro ⟨⟨clock, told, atTwelve⟩, _⟩
  change svm.clock?.map Clock.slot = some 5 at atFive
  rw [told, Option.map_some, atTwelve] at atFive
  revert atFive
  decide

end ArbBot
