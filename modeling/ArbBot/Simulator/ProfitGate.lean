import ArbBot.Pipeline.FloorArithmetic
import ArbBot.Simulator.WorkerPool

/-!
# The profit gate

With `fail_closed` a call lets a transaction through when it executes and the token account
holds `min_acceptable_out` after it. `GatesProfit` compares with the balance before:
`profitGate_iff` says for which balances the two agree, whatever the execution does.
-/

namespace ArbBot

open Foundation Sdk

/-! ## Executions -/

/-- The balance of the token account, read from the accounts after the execution. -/
def balanceAfter (wsolAta : Pubkey) (info : SimulatedTransactionInfo) : Option UInt64 :=
  (info.postAccounts.find? (·.1 = wsolAta)).bind fun entry => parseTokenAmount entry.2.data

section Call

variable {Program Table : Type} {rt : Runtime Program Table} {showPubkey : Pubkey → String}
  {sim : Simulator Program} {call : SimulateCall} {after : Simulation Program}
  {wsolBefore : UInt64}

/-- The call finds the balance in the token account, and its transaction runs like this. -/
def Executes (rt : Runtime Program Table) (showPubkey : Pubkey → String)
    (sim : Simulator Program) (call : SimulateCall) (wsolBefore : UInt64)
    (run : Except FailedTransactionMetadata SimulatedTransactionInfo) : Prop :=
  ∃ ready litesvmTx, call.prepared rt showPubkey sim.svm = some ready ∧
    parseWsolAmount ready sim.wsolAta = wsolBefore ∧ toLitesvmTx rt call.tx = .ok litesvmTx ∧
      ready.simulateTransaction rt litesvmTx = some run

/-- A call ends at the boundary or in the verdict on the run. -/
theorem result_of_simulate (ran : call.on rt showPubkey sim = some after) :
    (∃ e, after.result = .error e) ∨
      ∃ wsolBefore run, Executes rt showPubkey sim call wsolBefore run ∧
        after.result = (judge sim wsolBefore call.minAcceptableOut run).1 := by
  unfold SimulateCall.on Simulator.simulate at ran
  dsimp only at ran
  split at ran
  · cases ran
  · rename_i ready done prepared
    split at ran
    · rename_i e refused
      cases ran
      exact Or.inl ⟨e, rfl⟩
    · rename_i litesvmTx converted
      split at ran
      · cases ran
      · rename_i run executed
        cases ran
        refine Or.inr ⟨_, run, ⟨ready, litesvmTx, ?_, rfl, converted, executed⟩, rfl⟩
        exact congrArg (Option.map Prod.fst) prepared

theorem on_of_executes
    {run : Except FailedTransactionMetadata SimulatedTransactionInfo}
    (executed : Executes rt showPubkey sim call wsolBefore run) :
    ∃ after, call.on rt showPubkey sim = some after ∧
      after.result = (judge sim wsolBefore call.minAcceptableOut run).1 := by
  obtain ⟨ready, litesvmTx, prepared, rfl, converted, executed⟩ := executed
  rcases Option.map_eq_some_iff.mp prepared with ⟨⟨ready', done⟩, ran, rfl⟩
  have ran' : prepare rt sim.svm call.liveSlot
      (lazyFetch showPubkey call.getAccount call.cache (collectTxAccounts call.tx call.alts))
      call.alts (collectTxAccounts call.tx call.alts) = some (ready', done) := ran
  unfold SimulateCall.on Simulator.simulate
  simp only [ran', converted, executed]
  exact ⟨_, rfl, rfl⟩

/-- A run has one balance before it and one outcome. -/
theorem Executes.unique {wsolBefore' : UInt64}
    {run run' : Except FailedTransactionMetadata SimulatedTransactionInfo}
    (first : Executes rt showPubkey sim call wsolBefore run)
    (second : Executes rt showPubkey sim call wsolBefore' run') :
    wsolBefore = wsolBefore' ∧ run = run' := by
  obtain ⟨ready, tx, prepared, rfl, converted, executed⟩ := first
  obtain ⟨ready', tx', prepared', rfl, converted', executed'⟩ := second
  rw [prepared] at prepared'
  cases prepared'
  rw [converted] at converted'
  cases converted'
  rw [executed] at executed'
  cases executed'
  exact ⟨rfl, rfl⟩

theorem judge_ok (minAcceptableOut : UInt64) (info : SimulatedTransactionInfo) :
    (judge sim wsolBefore minAcceptableOut (.ok info)).1 =
      if (balanceAfter sim.wsolAta info).getD wsolBefore < minAcceptableOut then
        .error (.unprofitable ((balanceAfter sim.wsolAta info).getD wsolBefore) minAcceptableOut)
      else .ok {
        computeUnits := info.computeUnitsConsumed
        wsolAfter := (balanceAfter sim.wsolAta info).getD wsolBefore } := by
  rw [judge, balanceAfter]
  split <;> rfl

/-- What an accepted transaction did: it executed, and the balance after it, for which the one
before stands in where the account cannot be read, reaches the floor. -/
theorem judge_eq_ok (closed : sim.failClosed = true) {minAcceptableOut : UInt64}
    {run : Except FailedTransactionMetadata SimulatedTransactionInfo} {outcome : SimOutcome}
    (accepted : (judge sim wsolBefore minAcceptableOut run).1 = .ok outcome) :
    ∃ info, run = .ok info ∧
      minAcceptableOut ≤ (balanceAfter sim.wsolAta info).getD wsolBefore := by
  cases run with
  | error failed =>
      simp only [judge, if_pos closed] at accepted
      cases accepted
  | ok info =>
      refine ⟨info, rfl, UInt64.not_lt.mp ?_⟩
      intro below
      rw [judge_ok, if_pos below] at accepted
      cases accepted

/-- The call lets only gains of tip and fee through, and no loss. -/
structure GatesProfit (rt : Runtime Program Table) (showPubkey : Pubkey → String)
    (sim : Simulator Program) (call : SimulateCall) (wsolBefore : UInt64)
    (result : Except SimError SimOutcome) : Prop where
  gains : ∀ outcome, result = .ok outcome → ∃ info wsolAfter,
    Executes rt showPubkey sim call wsolBefore (.ok info) ∧
      balanceAfter sim.wsolAta info = some wsolAfter ∧
        exactFloor wsolBefore ≤ wsolAfter.toNat
  losses : ∀ info wsolAfter, Executes rt showPubkey sim call wsolBefore (.ok info) →
    balanceAfter sim.wsolAta info = some wsolAfter → wsolAfter < wsolBefore →
      ∃ e, result = .error e

theorem GatesProfit.of_error {result : Except SimError SimOutcome}
    (refused : ∃ e, result = .error e) :
    GatesProfit rt showPubkey sim call wsolBefore result := by
  rcases refused with ⟨e, rfl⟩
  constructor
  · intro outcome accepted
    cases accepted
  · intro info wsolAfter executed read loss
    exact ⟨e, rfl⟩

/-- A floor that asks for the gain gates it. Where the account cannot be read after the run,
the balance before is below such a floor. -/
theorem gatesProfit_judge (closed : sim.failClosed = true) {minAcceptableOut : UInt64}
    {run : Except FailedTransactionMetadata SimulatedTransactionInfo}
    (executed : Executes rt showPubkey sim call wsolBefore run)
    (reaches : exactFloor wsolBefore ≤ minAcceptableOut.toNat) :
    GatesProfit rt showPubkey sim call wsolBefore
      (judge sim wsolBefore minAcceptableOut run).1 := by
  cases result : (judge sim wsolBefore minAcceptableOut run).1 with
  | error e => exact .of_error ⟨e, rfl⟩
  | ok outcome =>
      rcases judge_eq_ok closed result with ⟨info, rfl, enough⟩
      have above : exactFloor wsolBefore ≤
          ((balanceAfter sim.wsolAta info).getD wsolBefore).toNat :=
        reaches.trans (UInt64.le_iff_toNat_le.mp enough)
      rw [exactFloor_eq] at above
      cases read : balanceAfter sim.wsolAta info with
      | none =>
          rw [read, Option.getD_none] at above
          omega
      | some wsolAfter =>
          rw [read, Option.getD_some] at above
          constructor
          · intro outcome' _
            exact ⟨info, wsolAfter, executed, read, by rw [exactFloor_eq]; exact above⟩
          · intro info' wsolAfter' executed' read' loss
            cases (executed.unique executed').2
            rw [read] at read'
            cases read'
            have less := UInt64.lt_iff_toNat_lt.mp loss
            omega

end Call

/-! ## The gate -/

/-- The gate for this balance and this amount, on every simulator that fails closed, for every
call and every execution. -/
def ProfitGate (wsolBefore amount : UInt64) : Prop :=
  ∀ (Program Table : Type) (rt : Runtime Program Table) (showPubkey : Pubkey → String)
    (sim : Simulator Program) (call : SimulateCall) (ready : AccountsDb Program)
    (after : Simulation Program), sim.failClosed = true →
      call.minAcceptableOut = onChainFloor amount →
        call.prepared rt showPubkey sim.svm = some ready →
          parseWsolAmount ready sim.wsolAta = wsolBefore →
            call.on rt showPubkey sim = some after →
              GatesProfit rt showPubkey sim call wsolBefore after.result

/-- The floor asks for the gain just from these balances. -/
theorem exactFloor_le_onChainFloor_iff {wsolBefore amount : UInt64} :
    exactFloor wsolBefore ≤ (onChainFloor amount).toNat ↔
      wsolBefore ≤ amount ∧ exactFloor amount < 2 ^ 64 := by
  have bound := amount.toNat_lt
  rw [UInt64.le_iff_toNat_le]
  by_cases fits : exactFloor amount < 2 ^ 64
  · rw [toNat_onChainFloor_iff.mpr fits, exactFloor_eq, exactFloor_eq]
    rw [exactFloor_eq] at fits
    omega
  · have wrapped : (onChainFloor amount).toNat = (amount.toNat + 6600) % 2 ^ 64 := by
      rw [onChainFloor_eq, UInt64.toNat_add]
      rfl
    rw [wrapped, exactFloor_eq, exactFloor_eq]
    rw [exactFloor_eq] at fits
    omega

/-! ### A swap that ends in a given balance -/

def swapProgramKey : Pubkey := ⟨List.replicate 32 9, rfl⟩

/-- An instruction of the program for the token account. -/
def swapTx : VersionedTransaction where
  message := .legacy [payerKey, wsolKey, swapProgramKey]
    [{ programIdIndex := 2, accounts := [0, 1], data := [] }]

/-- A token account of the payer. -/
def tokenAccount (amount : UInt64) : Account where
  lamports := 3039280
  data := List.replicate 64 0 ++ (le64 amount ++ List.replicate 93 0)
  owner := mintKey
  executable := false
  rentEpoch := 0

theorem parse_tokenAccount (amount : UInt64) :
    parseTokenAmount (tokenAccount amount).data = some amount := by
  have long : ¬ (tokenAccount amount).data.length < 72 := by
    rw [tokenAccount, List.length_append, List.length_append, length_le64, List.length_replicate,
      List.length_replicate]
    decide
  rw [parseTokenAmount, if_neg long]
  exact congrArg some (fromLe64_window _ _ rfl rfl)

/-- The accounts after the swap. -/
def swapped (wsolAfter : UInt64) : SimulatedTransactionInfo where
  computeUnitsConsumed := 60000
  postAccounts := [(wsolKey, tokenAccount wsolAfter)]

/-- A runtime that knows the swap and what comes of it. -/
def swapRuntime (wsolAfter : UInt64) : Runtime Unit Unit :=
  { bareRuntime with
    serialize := fun tx => .ok (keyBytes tx)
    deserialize := fun bytes =>
      if bytes = keyBytes swapTx then .ok swapTx
      else .error "io error: unexpected end of file"
    execute := fun _ _ _ => some (.ok (swapped wsolAfter)) }

/-- The swap for the amount, when the token account has this balance. -/
def swapCall (wsolBefore amount : UInt64) : SimulateCall where
  liveSlot := 12
  tx := swapTx
  alts := []
  cache := AccountCache.new.insert wsolKey (tokenAccount wsolBefore)
  getAccount := fun _ => .error "AccountNotFound"
  minAcceptableOut := onChainFloor amount

theorem collect_swapTx : collectTxAccounts swapTx [] = [payerKey, wsolKey, swapProgramKey] :=
  sortDedup_of_sorted (by decide)

/-- The SVM holds the balance when the swap starts. -/
theorem prepared_swapCall (wsolBefore amount wsolAfter : UInt64) :
    ∃ ready, (swapCall wsolBefore amount).prepared (swapRuntime wsolAfter) (fun _ => "") bareSvm =
        some ready ∧
      parseWsolAmount ready wsolKey = wsolBefore := by
  have accounts : (swapCall wsolBefore amount).accounts =
      [payerKey, wsolKey, swapProgramKey] := collect_swapTx
  rw [SimulateCall.prepared, SimulateCall.fetched, accounts]
  refine ⟨_, rfl, ?_⟩
  exact congrArg (Option.getD · 0) (parse_tokenAccount wsolBefore)

theorem balanceAfter_swapped (wsolAfter : UInt64) :
    balanceAfter wsolKey (swapped wsolAfter) = some wsolAfter :=
  parse_tokenAccount wsolAfter

theorem toLitesvmTx_swapTx (wsolAfter : UInt64) :
    toLitesvmTx (swapRuntime wsolAfter) swapTx = .ok swapTx := by
  simp only [toLitesvmTx, swapRuntime, if_pos]

theorem executes_swapCall (wsolBefore amount wsolAfter : UInt64) :
    Executes (swapRuntime wsolAfter) (fun _ => "") idleSimulator (swapCall wsolBefore amount)
      wsolBefore (.ok (swapped wsolAfter)) := by
  obtain ⟨ready, prepared, balance⟩ := prepared_swapCall wsolBefore amount wsolAfter
  exact ⟨ready, swapTx, prepared, balance, toLitesvmTx_swapTx wsolAfter, rfl⟩

/-- The swap is let through when it ends in the floor. -/
theorem on_swapCall (wsolBefore : UInt64) {amount wsolAfter : UInt64}
    (reaches : onChainFloor amount ≤ wsolAfter) :
    ∃ after, (swapCall wsolBefore amount).on (swapRuntime wsolAfter) (fun _ => "") idleSimulator =
        some after ∧
      after.result = .ok { computeUnits := 60000, wsolAfter := wsolAfter } := by
  rcases on_of_executes (executes_swapCall wsolBefore amount wsolAfter) with ⟨after, ran, result⟩
  refine ⟨after, ran, ?_⟩
  have balance : balanceAfter idleSimulator.wsolAta (swapped wsolAfter) = some wsolAfter :=
    balanceAfter_swapped wsolAfter
  rw [result, judge_ok, balance, Option.getD_some]
  exact if_neg (UInt64.not_lt.mpr reaches)

/-- **The profit gate.** It holds just for the balances that do not exceed the amount, as long
as the floor fits. -/
theorem profitGate_iff (wsolBefore amount : UInt64) :
    ProfitGate wsolBefore amount ↔ wsolBefore ≤ amount ∧ exactFloor amount < 2 ^ 64 := by
  rw [← exactFloor_le_onChainFloor_iff]
  constructor
  · intro gate
    rcases on_swapCall wsolBefore (UInt64.le_refl (onChainFloor amount)) with
      ⟨after, ran, result⟩
    obtain ⟨ready, prepared, balance⟩ :=
      prepared_swapCall wsolBefore amount (onChainFloor amount)
    have gates := gate _ _ (swapRuntime (onChainFloor amount)) (fun _ => "") idleSimulator
      (swapCall wsolBefore amount) ready after rfl rfl prepared balance ran
    rcases gates.gains _ result with ⟨info, wsolAfter, executed, read, gain⟩
    have same := (executes_swapCall wsolBefore amount (onChainFloor amount)).unique executed
    cases same.2
    have balance' : some (onChainFloor amount) = some wsolAfter :=
      (balanceAfter_swapped _).symm.trans read
    rw [Option.some.inj balance']
    exact gain
  · intro reaches Program Table rt showPubkey sim call ready after closed floor prepared balance ran
    rcases result_of_simulate ran with ⟨e, refused⟩ | ⟨before, run, executed, verdict⟩
    · exact GatesProfit.of_error ⟨e, refused⟩
    · have same : before = wsolBefore := by
        obtain ⟨ready', tx, prepared', rfl, -⟩ := executed
        rw [prepared] at prepared'
        cases prepared'
        exact balance
      subst same
      rw [verdict, floor]
      exact gatesProfit_judge closed executed reaches

/-! ### A rich wallet -/

/-- The token account holds 1 SOL, the swap is for 0.001 SOL and takes half a SOL: it is let
through. -/
theorem loss_let_through :
    ¬ ProfitGate 1000000000 1000000 ∧
      ∃ after, (swapCall 1000000000 1000000).on (swapRuntime 500000000) (fun _ => "")
          idleSimulator = some after ∧
        Executes (swapRuntime 500000000) (fun _ => "") idleSimulator
          (swapCall 1000000000 1000000) 1000000000 (.ok (swapped 500000000)) ∧
        balanceAfter wsolKey (swapped 500000000) = some 500000000 ∧
        after.result = .ok { computeUnits := 60000, wsolAfter := 500000000 } := by
  have reaches : onChainFloor 1000000 ≤ 500000000 := by decide
  rcases on_swapCall 1000000000 reaches with ⟨after, ran, result⟩
  have executed := executes_swapCall 1000000000 1000000 500000000
  have balance := balanceAfter_swapped 500000000
  refine ⟨?_, after, ran, executed, balance, result⟩
  intro gate
  obtain ⟨ready, prepared, before⟩ := prepared_swapCall 1000000000 1000000 500000000
  have gates := gate _ _ (swapRuntime 500000000) (fun _ => "") idleSimulator
    (swapCall 1000000000 1000000) ready after rfl rfl prepared before ran
  rcases gates.losses _ _ executed balance (by decide) with ⟨e, refused⟩
  rw [result] at refused
  cases refused

end ArbBot
