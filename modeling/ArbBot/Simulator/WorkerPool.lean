import ArbBot.Foundation.Runs
import ArbBot.Simulator.Reuse

/-!
# The workers of the pool

Every worker keeps its SVM from call to call. `outcome_of_worker` compares the workers of a
pool, after any run of it, with a simulator that has just been built: a call that sets again
every leftover that it reads has the same outcome on all of them. `leftover_read` is a call
that does not.
-/

namespace ArbBot

open Foundation Sdk

variable {Program Table : Type}

/-! ## The pool -/

structure SimulatorPool (Program : Type) where
  sims : List (Simulator Program)
  next : UInt64

inductive PoolAction where
  | acquire
  /-- A thread that has acquired the worker takes its mutex and simulates. -/
  | simulate (worker : Nat) (call : SimulateCall)

namespace SimulatorPool

/-- Every worker is built as this one. -/
def new (workers : Nat) (sim : Simulator Program) : SimulatorPool Program where
  sims := List.replicate (max workers 1) sim
  next := 0

/-- The index of the worker, and the pool with the counter, which wraps. -/
def acquire (pool : SimulatorPool Program) : Nat × SimulatorPool Program :=
  (pool.next.toNat % pool.sims.length, { pool with next := pool.next + 1 })

def step (rt : Runtime Program Table) (showPubkey : Pubkey → String)
    (pool : SimulatorPool Program) : PoolAction → Option (SimulatorPool Program)
  | .acquire => some pool.acquire.2
  | .simulate worker call =>
      match pool.sims[worker]? with
      | none => none
      | some sim => (call.on rt showPubkey sim).map fun after =>
          { pool with sims := pool.sims.set worker after.simulator }

end SimulatorPool

/-- Threads acquire workers and simulate on them in any order. -/
def poolMachine (rt : Runtime Program Table) (showPubkey : Pubkey → String) (workers : Nat)
    (fresh : Simulator Program) : Machine (SimulatorPool Program) PoolAction :=
  .ofFun (· = SimulatorPool.new workers fresh) (SimulatorPool.step rt showPubkey)

def PoolAction.call? : PoolAction → Option SimulateCall
  | .acquire => none
  | .simulate _ call => some call

/-- The calls of a run, in the order in which they held the mutexes. -/
def callsOf (steps : List (Machine.Entry (SimulatorPool Program) PoolAction)) :
    List SimulateCall :=
  steps.filterMap fun entry => entry.label.call?

/-! ## What the calls leave -/

def touchedBy (rt : Runtime Program Table) (calls : List SimulateCall) : Set Pubkey :=
  {key | ∃ call ∈ calls, key ∈ call.touched rt}

def loadedBy (calls : List SimulateCall) : Set Pubkey := {key | ∃ call ∈ calls, key ∈ call.loaded}

/-- The worker is the fresh simulator, but for what the calls may have changed. -/
def WorksLike (rt : Runtime Program Table) (calls : List SimulateCall)
    (fresh sim : Simulator Program) : Prop :=
  ∃ svm, sim = { fresh with svm := svm } ∧
    KeptBut (touchedBy rt calls) (loadedBy calls) fresh.svm svm

section Calls

variable {rt : Runtime Program Table} {showPubkey : Pubkey → String} {workers : Nat}
  {fresh sim : Simulator Program} {pool : SimulatorPool Program}
  {steps : List (Machine.Entry (SimulatorPool Program) PoolAction)}
  {earlier later : List SimulateCall}

theorem touchedBy_append :
    touchedBy rt (earlier ++ later) = touchedBy rt earlier ∪ touchedBy rt later := by
  ext key
  simp [touchedBy, or_and_right, exists_or]

theorem loadedBy_append : loadedBy (earlier ++ later) = loadedBy earlier ∪ loadedBy later := by
  ext key
  simp [loadedBy, or_and_right, exists_or]

theorem WorksLike.append (works : WorksLike rt earlier fresh sim) (later : List SimulateCall) :
    WorksLike rt (earlier ++ later) fresh sim := by
  obtain ⟨svm, rfl, kept⟩ := works
  refine ⟨svm, rfl, ?_⟩
  rw [touchedBy_append, loadedBy_append]
  exact kept.mono Set.subset_union_left Set.subset_union_left

/-- A call leaves the worker like a fresh one, but for what it may change itself. -/
theorem WorksLike.simulate {call : SimulateCall} {after : Simulation Program}
    (works : WorksLike rt earlier fresh sim)
    (tells : ∀ account, call.Sets rt Sysvar.clock.id account → TellsClock account)
    (ran : call.on rt showPubkey sim = some after) :
    WorksLike rt (earlier ++ [call]) fresh after.simulator := by
  obtain ⟨svm, rfl, kept⟩ := works
  have later := KeptBut.of_simulate tells ran
  have touches : touchedBy rt [call] = call.touched rt := by
    ext key
    simp [touchedBy]
  have loads : loadedBy [call] = call.loaded := by
    ext key
    simp [loadedBy]
  refine ⟨after.simulator.svm, ?_, ?_⟩
  · exact (simulator_of_simulate ran).trans rfl
  · rw [touchedBy_append, loadedBy_append, touches, loads]
    exact kept.trans later

/-- **What a run leaves.** Every worker is like a fresh one, but for what the calls of the
run may have changed. -/
theorem works_of_trace
    (trace : (poolMachine rt showPubkey workers fresh).Trace (SimulatorPool.new workers fresh)
      steps pool)
    (tells : ∀ call ∈ callsOf steps, ∀ account, call.Sets rt Sysvar.clock.id account →
      TellsClock account) :
    pool.sims.length = max workers 1 ∧
      ∀ sim ∈ pool.sims, WorksLike rt (callsOf steps) fresh sim := by
  induction trace with
  | nil =>
      refine ⟨List.length_replicate, ?_⟩
      intro sim member
      exact ⟨fresh.svm, List.eq_of_mem_replicate member, .refl ..⟩
  | @snoc before after action steps trace taken ih =>
      have grown : callsOf (steps ++ [(⟨before, action, after⟩ : Machine.Entry _ _)]) =
          callsOf steps ++ action.call?.toList := by
        rw [callsOf, List.filterMap_append, callsOf]
        cases action <;> rfl
      rw [grown] at tells ⊢
      obtain ⟨length, works⟩ := ih fun call inside => tells call (List.mem_append_left _ inside)
      cases action with
      | acquire =>
          cases (taken : some before.acquire.2 = some after)
          exact ⟨length, fun sim member => (works sim member).append _⟩
      | simulate worker call =>
          change (match before.sims[worker]? with | none => none | some sim => _) = some after
            at taken
          split at taken
          · cases taken
          · rename_i sim found
            rcases Option.map_eq_some_iff.mp taken with ⟨simulation, ran, rfl⟩
            refine ⟨(List.length_set ..).trans length, ?_⟩
            intro other member
            rcases List.mem_or_eq_of_mem_set member with kept | rfl
            · exact (works other kept).append _
            · exact (works sim (List.mem_of_getElem? found)).simulate
                (tells call (List.mem_append_right _ (List.mem_singleton_self call))) ran

/-! ## Calls that read no leftover -/

/-- Every account that the call reads and an earlier call may have changed is set again by the
call, no program that it reads was loaded by one, and the clock was left in place. -/
structure ReadsNoLeftover (rt : Runtime Program Table) (programdata : Account → Option Pubkey)
    (showPubkey : Pubkey → String) (fresh : Simulator Program) (earlier : List SimulateCall)
    (call : SimulateCall) : Prop where
  reads : ∀ ready, call.prepared rt showPubkey fresh.svm = some ready →
    ∀ key, Reads rt fresh.wsolAta ready call.tx key →
      (key ∈ touchedBy rt earlier → key ∈ call.settled rt) ∧ key ∉ loadedBy earlier
  clock : ∀ before ∈ earlier, ∀ account, before.Sets rt Sysvar.clock.id account →
    TellsClock account
  /-- What the call loads as a program itself does not rest on a leftover. -/
  code : ∀ key account, call.Offers key account → IsProgram key account →
    Sysvar.clock.id ∉ touchedBy rt earlier ∧
      ∀ code, programdata account = some code → code ∉ touchedBy rt earlier

/-- **Reused workers.** After any run of a pool, `acquire` has a worker to return, and a call
that reads no leftover has the outcome of a fresh simulator on every one of them. -/
theorem outcome_of_worker {programdata : Account → Option Pubkey} {call : SimulateCall}
    (readsOnly : rt.ReadsOnly programdata)
    (trace : (poolMachine rt showPubkey workers fresh).Trace (SimulatorPool.new workers fresh)
      steps pool)
    (clean : ReadsNoLeftover rt programdata showPubkey fresh (callsOf steps) call) :
    (∃ sim, pool.sims[pool.acquire.1]? = some sim) ∧
      ∀ sim ∈ pool.sims, call.outcome rt showPubkey sim = call.outcome rt showPubkey fresh := by
  obtain ⟨length, works⟩ := works_of_trace trace clean.clock
  constructor
  · have some : 0 < pool.sims.length := by omega
    exact ⟨_, List.getElem?_eq_getElem (Nat.mod_lt _ some)⟩
  · intro sim member
    obtain ⟨svm, rfl, kept⟩ := works sim member
    exact SimulateCall.outcome_of_kept readsOnly kept clean.code clean.reads

end Calls

/-! ### A balance from an earlier call -/

def wsolKey : Pubkey := ⟨List.replicate 32 8, rfl⟩

/-- A transaction that names the token account. -/
def wsolTx : VersionedTransaction where
  message := .legacy [payerKey, wsolKey] []

/-- A transaction that does not. -/
def payerTx : VersionedTransaction where
  message := .legacy [payerKey] []

def keyBytes (tx : VersionedTransaction) : List UInt8 :=
  tx.message.staticAccountKeys.flatMap Pubkey.bytes

/-- Without instructions the first key pays the fee of one signature, and the accounts stay as
they are. -/
def chargeFee : List (Pubkey × Option Account) →
    Except FailedTransactionMetadata SimulatedTransactionInfo
  | (payer, some account) :: others => .ok {
      computeUnitsConsumed := 0
      postAccounts := (payer, { account with lamports := account.lamports - 5000 }) ::
        others.filterMap fun other => other.2.map fun account => (other.1, account) }
  | _ => .error { err := .other "AccountNotFound", computeUnitsConsumed := 0, logs := [] }

/-- A runtime that reads these two transactions back. -/
def feeRuntime : Runtime Unit Unit :=
  { bareRuntime with
    serialize := fun tx => .ok (keyBytes tx)
    deserialize := fun bytes =>
      if bytes = keyBytes wsolTx then .ok wsolTx
      else if bytes = keyBytes payerTx then .ok payerTx
      else .error "io error: unexpected end of file"
    execute := fun db tx _ =>
      some (chargeFee (tx.message.staticAccountKeys.map fun key => (key, db.inner key))) }

theorem readsOnly_feeRuntime : feeRuntime.ReadsOnly fun _ => none where
  loadProgram _ _ _ _ _ := rfl
  execute db db' tx loaded same _ _ := by
    have shows : (tx.message.staticAccountKeys.map fun key => (key, db.inner key)) =
        tx.message.staticAccountKeys.map fun key => (key, db'.inner key) := by
      apply List.map_congr_left
      intro key named
      rw [(same key (Or.inl (List.mem_append_left _ (List.mem_append_left _ named)))).1]
    exact congrArg (fun found => some (chargeFee found)) shows

/-- The payer and the token account with a balance. -/
def stockedCache (amount : UInt64) : AccountCache :=
  (AccountCache.new.insert payerKey ⟨1000000000, [], noOwner, false, 0⟩).insert wsolKey
    ⟨3039280, List.replicate 64 0 ++ le64 amount ++ List.replicate 93 0, mintKey, false, 0⟩

/-- The transaction at slot 12, when the token account has this balance. -/
def stockedCall (tx : VersionedTransaction) (amount : UInt64) : SimulateCall where
  liveSlot := 12
  tx := tx
  alts := []
  cache := stockedCache amount
  getAccount := fun _ => .error "AccountNotFound"
  minAcceptableOut := 1

def idleSimulator : Simulator Unit where
  svm := bareSvm
  wsolAta := wsolKey
  failClosed := true

theorem collect_wsolTx : collectTxAccounts wsolTx [] = [payerKey, wsolKey] :=
  sortDedup_of_sorted (by decide)

theorem collect_payerTx : collectTxAccounts payerTx [] = [payerKey] :=
  sortDedup_of_sorted (by decide)

theorem accounts_wsolTx (amount : UInt64) :
    (stockedCall wsolTx amount).accounts = [payerKey, wsolKey] := collect_wsolTx

theorem offers_wsolTx {amount : UInt64} {key : Pubkey} {account : Account}
    (offers : (stockedCall wsolTx amount).Offers key account) :
    (key = payerKey ∨ key = wsolKey) ∧ account.executable = false := by
  obtain ⟨-, listed⟩ := offers
  rcases listed with inTables | ⟨collected, plain⟩
  · cases inTables
  · rw [accounts_wsolTx] at collected
    exact ⟨by simpa using collected, plain⟩

theorem settled_wsolTx {amount : UInt64} {key : Pubkey} (named : key = payerKey ∨ key = wsolKey) :
    key ∈ (stockedCall wsolTx amount).settled feeRuntime := by
  have held : (stockedCall wsolTx amount).held key = (stockedCache amount).get key := by
    rw [SimulateCall.held, accounts_wsolTx]
    rcases named with rfl | rfl <;> rfl
  have plain : ∀ account : Account, account.executable = false → ¬ IsProgram key account :=
    fun account plain program => Bool.false_ne_true (plain.symm.trans program.1)
  have accepted : ∀ account, AccountsDb.accepts feeRuntime key account := by
    intro account
    rcases named with rfl | rfl <;> rfl
  have collected : key ∈ (stockedCall wsolTx amount).accounts := by
    rw [accounts_wsolTx]
    simpa using named
  rcases named with rfl | rfl
  · exact ⟨_, ⟨held.trans rfl, Or.inr ⟨collected, rfl⟩⟩, plain _ rfl, accepted _⟩
  · exact ⟨_, ⟨held.trans rfl, Or.inr ⟨collected, rfl⟩⟩, plain _ rfl, accepted _⟩

/-- A transaction that names the token account reads no leftover of one that does. -/
theorem readsNoLeftover_wsolTx (amount amount' : UInt64) :
    ReadsNoLeftover feeRuntime (fun _ => none) (fun _ => "") idleSimulator
      [stockedCall wsolTx amount] (stockedCall wsolTx amount') where
  reads ready _ key _ := by
    constructor
    · intro ⟨before, inside, account, offers, _⟩
      cases List.mem_singleton.mp inside
      exact settled_wsolTx (offers_wsolTx offers).1
    · intro ⟨before, inside, account, offers, program⟩
      cases List.mem_singleton.mp inside
      exact Bool.false_ne_true ((offers_wsolTx offers).2.symm.trans program.1)
  clock before inside account sets := by
    cases List.mem_singleton.mp inside
    have other : ¬ (Sysvar.clock.id = payerKey ∨ Sysvar.clock.id = wsolKey) := by decide
    exact absurd (offers_wsolTx sets.1).1 other
  code key account offers program :=
    absurd ((offers_wsolTx offers).2.symm.trans program.1) Bool.false_ne_true

set_option maxRecDepth 20000 in
/-- The token account stays in the SVM: the transaction that does not name it starts from the
balance of then. -/
theorem wsolTx_simulated :
    ∃ after, (stockedCall wsolTx 1000000).on feeRuntime (fun _ => "") idleSimulator = some after ∧
      ((stockedCall payerTx 0).outcome feeRuntime (fun _ => "") after.simulator).map Prod.fst =
        some (.ok { computeUnits := 0, wsolAfter := 1000000 }) := by
  have collected : collectTxAccounts (stockedCall wsolTx 1000000).tx
      (stockedCall wsolTx 1000000).alts = [payerKey, wsolKey] := collect_wsolTx
  have collected' : collectTxAccounts (stockedCall payerTx 0).tx (stockedCall payerTx 0).alts =
      [payerKey] := collect_payerTx
  apply Option.bind_eq_some_iff.mp
  unfold SimulateCall.outcome SimulateCall.on Simulator.simulate
  rw [collected, collected']
  rfl

/-- The first of two workers is acquired and simulates the transaction that names the token
account. -/
theorem pool_wsolTx {after : Simulation Unit}
    (ran : (stockedCall wsolTx 1000000).on feeRuntime (fun _ => "") idleSimulator = some after) :
    let pool := SimulatorPool.new 2 idleSimulator
    let acquired : SimulatorPool Unit := { pool with next := 1 }
    let used : SimulatorPool Unit := { sims := [after.simulator, idleSimulator], next := 1 }
    (poolMachine feeRuntime (fun _ => "") 2 idleSimulator).Trace pool
      [⟨pool, .acquire, acquired⟩,
        ⟨acquired, .simulate 0 (stockedCall wsolTx 1000000), used⟩] used := by
  intro pool acquired used
  have first : SimulatorPool.step feeRuntime (fun _ => "") pool .acquire = some acquired := rfl
  have second : SimulatorPool.step feeRuntime (fun _ => "") acquired
      (.simulate 0 (stockedCall wsolTx 1000000)) = some used := by
    change ((stockedCall wsolTx 1000000).on feeRuntime (fun _ => "") idleSimulator).map _ = _
    rw [ran]
    rfl
  exact .snoc (.snoc (.nil _) first) second

/-- A later transaction that names it as well has one outcome on both workers. -/
theorem outcome_of_worker_wsolTx :
    ∃ steps pool, (poolMachine feeRuntime (fun _ => "") 2 idleSimulator).Trace
        (SimulatorPool.new 2 idleSimulator) steps pool ∧ steps ≠ [] ∧
      (∃ sim, pool.sims[pool.acquire.1]? = some sim) ∧
      ∀ sim ∈ pool.sims, (stockedCall wsolTx 0).outcome feeRuntime (fun _ => "") sim =
        (stockedCall wsolTx 0).outcome feeRuntime (fun _ => "") idleSimulator := by
  obtain ⟨after, ran, -⟩ := wsolTx_simulated
  exact ⟨_, _, pool_wsolTx ran, List.cons_ne_nil _ _,
    outcome_of_worker readsOnly_feeRuntime (pool_wsolTx ran) (readsNoLeftover_wsolTx 1000000 0)⟩

set_option maxRecDepth 20000 in
/-- When the token account is empty, a later transaction that does not name it is accepted by
the worker that still has the balance and dropped by the other one. -/
theorem leftover_read :
    feeRuntime.ReadsOnly (fun _ => none) ∧
      ∃ steps used, (poolMachine feeRuntime (fun _ => "") 2 idleSimulator).Trace
          (SimulatorPool.new 2 idleSimulator) steps
          { sims := [used, idleSimulator], next := 1 } ∧
        ((stockedCall payerTx 0).outcome feeRuntime (fun _ => "") used).map Prod.fst =
          some (.ok { computeUnits := 0, wsolAfter := 1000000 }) ∧
        ((stockedCall payerTx 0).outcome feeRuntime (fun _ => "") idleSimulator).map Prod.fst =
          some (.error (.unprofitable 0 1)) := by
  obtain ⟨after, ran, answers⟩ := wsolTx_simulated
  refine ⟨readsOnly_feeRuntime, _, after.simulator, pool_wsolTx ran, answers, ?_⟩
  have collected : collectTxAccounts (stockedCall payerTx 0).tx (stockedCall payerTx 0).alts =
      [payerKey] := collect_payerTx
  unfold SimulateCall.outcome SimulateCall.on Simulator.simulate
  rw [collected]
  rfl

end ArbBot
