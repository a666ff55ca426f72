import ArbBot.Foundation.Interleaving
import ArbBot.Simulator.AccountCache

/-!
# Fetches against the stream

`get_or_fetch` looks into the cache, reads over RPC and inserts, with anything in between.
`fetchSystem` interleaves any number of calls with the stream task; the read of a call
shows the account as of some slot between its request and its answer, and the stream
delivers the messages of each account in the order of their slots.

A call inserts what it read even when a newer copy came in since it found none, and the
stream inserts what it delivers even when a read was ahead of it. A run keeps every account
from moving back exactly when no step of it does either (`copies_ordered_iff`).
-/

namespace ArbBot

open Foundation

/-! ## Steps -/

/-- Who puts a copy into the cache. -/
inductive Source where
  | stream
  | rpc
  deriving DecidableEq, Repr

/-- A copy of an account, with the slot it was observed at. -/
structure Copy where
  pubkey : Pubkey
  account : Account
  source : Source
  slot : Nat
  deriving DecidableEq, Repr

structure FetchShared where
  cache : AccountCache
  /-- The slot of the chain. -/
  now : Nat
  /-- The copies that entered the cache, in order: a history variable. -/
  copies : List Copy

inductive FetchTask where
  | chain
  | stream
  /-- The callers of `get_or_fetch`, which may start another call. -/
  | callers
  | get (pubkey : Pubkey)
  /-- After a miss; `mark` counts the copies that had entered the cache by then. -/
  | request (pubkey : Pubkey) (mark : Nat)
  | reading (pubkey : Pubkey) (mark : Nat) (calledAt : Nat)
  | insert (pubkey : Pubkey) (mark : Nat) (slot : Nat) (account : Account)
  | returned (account : Option Account)
  deriving DecidableEq, Repr

inductive FetchChoice where
  | go
  | advance (slots : Nat)
  | deliver (update : UpdateOneof)
  | call (pubkey : Pubkey)
  /-- What `get_account` answers, and the slot it shows. -/
  | answered (answer : Option (Nat × Account))
  deriving DecidableEq, Repr

/-- The copy that an update puts into the cache. -/
def UpdateOneof.copy? : UpdateOneof → Option Copy
  | .account { slot := slot, account := some info } =>
      (pubkeyOf info.pubkey).map fun pk =>
        { pubkey := pk, account := info.toAccount, source := .stream, slot := slot.toNat }
  | _ => none

/-- The stream has delivered no later message for the account of this one. -/
def FetchShared.Next (s : FetchShared) (update : UpdateOneof) : Prop :=
  ∀ copy ∈ update.copy?, ∀ c ∈ s.copies, c.source = .stream → c.pubkey = copy.pubkey →
    c.slot ≤ copy.slot

instance (s : FetchShared) (update : UpdateOneof) : Decidable (s.Next update) :=
  inferInstanceAs (Decidable (∀ copy ∈ update.copy?, _))

def fetchRun (s : FetchShared) : FetchTask → FetchChoice → Option (FetchShared × List FetchTask)
  | .chain, .advance slots => some ({ s with now := s.now + slots }, [.chain])
  | .stream, .deliver update =>
      if s.Next update then
        some ({ s with cache := s.cache.handle update, copies := s.copies ++ update.copy?.toList },
          [.stream])
      else none
  | .callers, .call pubkey => some (s, [.get pubkey, .callers])
  | .get pubkey, .go =>
      match s.cache.get pubkey with
      | some a => some (s, [.returned (some a)])
      | none => some (s, [.request pubkey s.copies.length])
  | .request pubkey mark, .go => some (s, [.reading pubkey mark s.now])
  | .reading pubkey mark calledAt, .answered answer =>
      match answer with
      | none => some (s, [.returned none])
      | some (slot, account) =>
          if calledAt ≤ slot ∧ slot ≤ s.now then some (s, [.insert pubkey mark slot account])
          else none
  | .insert pubkey _ slot account, .go =>
      let copy := { pubkey := pubkey, account := account, source := .rpc, slot := slot }
      some ({ s with cache := s.cache.insert pubkey account, copies := s.copies ++ [copy] },
        [.returned (some account)])
  | _, _ => none

def fetchSystem : System FetchShared FetchTask FetchChoice where
  run := fetchRun

/-- A new cache with a seeded slot. -/
def freshCalls (seed : UInt64) (now : Nat) : Pool FetchShared FetchTask where
  shared := { cache := AccountCache.new.seedSlot seed, now := now, copies := [] }
  tasks := [.chain, .stream, .callers]

def fetchMachine : Machine (Pool FetchShared FetchTask) (Nat × FetchChoice) :=
  fetchSystem.machine fun p => ∃ seed now, p = freshCalls seed now

/-! ## What is observed -/

/-- Of two copies of an account, the later one to enter was observed no earlier. -/
def CopiesOrdered (s : FetchShared) : Prop :=
  s.copies.Pairwise fun c c' => c.pubkey = c'.pubkey → c.slot ≤ c'.slot

/-- What a copy shows of the account. -/
def Copy.shows (pubkey : Pubkey) (c : Copy) : Option Account :=
  if c.pubkey = pubkey then some c.account else none

/-- The cache holds the last copy of each account. -/
def HoldsLast (s : FetchShared) : Prop :=
  ∀ pubkey, s.cache.get pubkey = lastWrite (Copy.shows pubkey) s.copies

/-- The copy that a task is about to put into the cache, with the copies it races with: for
a fetched copy those that entered since the call found none, for a streamed one those that
were fetched. -/
def FetchShared.entering (s : FetchShared) : FetchTask → FetchChoice → Option (Copy × List Copy)
  | .insert pubkey mark slot account, .go =>
      some ({ pubkey := pubkey, account := account, source := .rpc, slot := slot },
        s.copies.drop mark)
  | .stream, .deliver update =>
      update.copy?.map fun copy => (copy, s.copies.filter (·.source = .rpc))
  | _, _ => none

/-- What enters is from no earlier slot than the copies of its account that it races with. -/
def Unraced (p : Pool FetchShared FetchTask) (label : Nat × FetchChoice) : Prop :=
  ∀ task ∈ p.tasks[label.1]?, ∀ e ∈ p.shared.entering task label.2,
    ∀ c ∈ e.2, c.pubkey = e.1.pubkey → c.slot ≤ e.1.slot

instance (p : Pool FetchShared FetchTask) (label : Nat × FetchChoice) :
    Decidable (Unraced p label) :=
  inferInstanceAs (Decidable (∀ task ∈ p.tasks[label.1]?, _))

/-- A call that found no copy came before every copy of its account. -/
def Missed (s : FetchShared) : FetchTask → Prop
  | .request pubkey mark | .reading pubkey mark _ | .insert pubkey mark _ _ =>
      mark ≤ s.copies.length ∧ ∀ c ∈ s.copies.take mark, c.pubkey ≠ pubkey
  | _ => True

/-! ## One step -/

section Step

variable {s s' : FetchShared} {task : FetchTask} {choice : FetchChoice} {new : List FetchTask}

theorem HoldsLast.notMem {pubkey : Pubkey} (holds : HoldsLast s)
    (missing : s.cache.get pubkey = none) : ∀ c ∈ s.copies, c.pubkey ≠ pubkey := by
  intro c member same
  have nothing := lastWrite_eq_none_iff.mp ((holds pubkey).symm.trans missing) c member
  rw [Copy.shows, if_pos same] at nothing
  cases nothing

theorem HoldsLast.enter {copy : Copy} (holds : HoldsLast s)
    (cached : s'.cache.inner = Function.update s.cache.inner copy.pubkey (some copy.account))
    (entered : s'.copies = s.copies ++ [copy]) : HoldsLast s' := by
  intro pubkey
  rw [entered, lastWrite_append, lastWrite_singleton, ← holds pubkey, AccountCache.get,
    AccountCache.get, cached, Copy.shows]
  by_cases same : copy.pubkey = pubkey
  · subst same
    rw [Function.update_self, if_pos rfl, Option.some_or]
  · rw [Function.update_of_ne (Ne.symm same), if_neg same, Option.none_or]

/-- The rest of the calls are not affected by what enters after their miss. -/
theorem Missed.later {later : List Copy} (missed : Missed s task)
    (entered : s'.copies = s.copies ++ later) : Missed s' task := by
  cases task with
  | request pubkey mark | reading pubkey mark _ | insert pubkey mark _ _ =>
      refine ⟨?_, ?_⟩
      · rw [entered, List.length_append]
        exact Nat.le_add_right_of_le missed.1
      · rw [entered, List.take_append_of_le_length missed.1]
        exact missed.2
  | _ => trivial

theorem inner_handle_copy (cache : AccountCache) (update : UpdateOneof) :
    (cache.handle update).inner = match update.copy? with
      | none => cache.inner
      | some copy => Function.update cache.inner copy.pubkey (some copy.account) := by
  cases update with
  | account a =>
      rcases a with ⟨slot, _ | info⟩
      · rfl
      · dsimp only [AccountCache.handle, UpdateOneof.copy?]
        cases pubkeyOf info.pubkey with
        | none => rfl
        | some pk => rfl
  | ping => rfl
  | other => rfl

/-- A step that puts no copy into the cache. -/
structure KeepsCopies (s : FetchShared) (task : FetchTask) (choice : FetchChoice)
    (s' : FetchShared) (new : List FetchTask) : Prop where
  entering : s.entering task choice = none
  inner : s'.cache.inner = s.cache.inner
  copies : s'.copies = s.copies
  missed : HoldsLast s → Missed s task → ∀ t ∈ new, Missed s' t

/-- A step that puts a copy into the cache. -/
structure EntersCopy (s : FetchShared) (task : FetchTask) (choice : FetchChoice)
    (s' : FetchShared) (new : List FetchTask) (copy : Copy) (rivals : List Copy) : Prop where
  entering : s.entering task choice = some (copy, rivals)
  inner : s'.cache.inner = Function.update s.cache.inner copy.pubkey (some copy.account)
  copies : s'.copies = s.copies ++ [copy]
  missed : ∀ t ∈ new, Missed s' t
  rivals_sub : ∀ c ∈ rivals, c ∈ s.copies
  /-- A copy of the account that is no rival is from no later slot. -/
  rivals_all : Missed s task → ∀ c ∈ s.copies, c.pubkey = copy.pubkey →
    c ∈ rivals ∨ c.slot ≤ copy.slot

theorem deliver_cases {update : UpdateOneof}
    (ran : fetchRun s .stream (.deliver update) = some (s', new)) :
    KeepsCopies s .stream (.deliver update) s' new ∨
      ∃ copy rivals, EntersCopy s .stream (.deliver update) s' new copy rivals := by
  simp only [fetchRun] at ran
  split at ran
  · rename_i inOrder
    cases ran
    have inner := inner_handle_copy s.cache update
    cases carried : update.copy? with
    | none =>
        rw [carried] at inner
        refine Or.inl ⟨by rw [FetchShared.entering, carried]; rfl, inner, ?_, ?_⟩
        · exact List.append_nil _
        · intro _ _ t member
          rw [List.mem_singleton.mp member]
          trivial
    | some copy =>
        rw [carried] at inner
        refine Or.inr ⟨copy, _, by rw [FetchShared.entering, carried]; rfl, inner, rfl, ?_, ?_, ?_⟩
        · intro t member
          rw [List.mem_singleton.mp member]
          trivial
        · exact fun c member => List.mem_of_mem_filter member
        · intro _ c member same
          cases source : c.source with
          | rpc => exact Or.inl (List.mem_filter.mpr ⟨member, decide_eq_true source⟩)
          | stream => exact Or.inr (inOrder copy carried c member source same)
  · cases ran

theorem keepsCopies_of_free {new : List FetchTask} (entering : s.entering task choice = none)
    (inner : s'.cache.inner = s.cache.inner) (copies : s'.copies = s.copies)
    (free : ∀ t ∈ new, Missed s' t) : KeepsCopies s task choice s' new where
  entering := entering
  inner := inner
  copies := copies
  missed _ _ := free

/-- **What a step can do.** -/
theorem fetchRun_cases (ran : fetchRun s task choice = some (s', new)) :
    KeepsCopies s task choice s' new ∨
      ∃ copy rivals, EntersCopy s task choice s' new copy rivals := by
  unfold fetchRun at ran
  split at ran
  · cases ran
    exact Or.inl (keepsCopies_of_free rfl rfl rfl (by simp [Missed]))
  · exact deliver_cases ran
  · cases ran
    exact Or.inl (keepsCopies_of_free rfl rfl rfl (by simp [Missed]))
  · rename_i pubkey
    split at ran
    · cases ran
      exact Or.inl (keepsCopies_of_free rfl rfl rfl (by simp [Missed]))
    · rename_i missing
      cases ran
      refine Or.inl ⟨rfl, rfl, rfl, ?_⟩
      intro holds _ t member
      rw [List.mem_singleton.mp member]
      refine ⟨le_refl _, ?_⟩
      rw [List.take_length]
      exact holds.notMem missing
  · rename_i pubkey mark
    cases ran
    refine Or.inl ⟨rfl, rfl, rfl, ?_⟩
    intro _ missed t member
    rw [List.mem_singleton.mp member]
    exact missed
  · rename_i pubkey mark calledAt answer
    split at ran
    · cases ran
      exact Or.inl (keepsCopies_of_free rfl rfl rfl (by simp [Missed]))
    · split at ran
      · cases ran
        refine Or.inl ⟨rfl, rfl, rfl, ?_⟩
        intro _ missed t member
        rw [List.mem_singleton.mp member]
        exact missed
      · cases ran
  · rename_i pubkey mark slot account
    cases ran
    refine Or.inr ⟨_, _, rfl, rfl, rfl, by simp [Missed], fun c member => List.mem_of_mem_drop member,
      ?_⟩
    intro missed c member same
    rw [← List.take_append_drop mark s.copies, List.mem_append] at member
    rcases member with before | since
    · exact absurd same (missed.2 c before)
    · exact Or.inl since
  · cases ran

/-- The cache keeps to the copies, and each call to its miss. -/
theorem fetchRun_keeps (ran : fetchRun s task choice = some (s', new)) (holds : HoldsLast s)
    (missed : Missed s task) :
    HoldsLast s' ∧ (∀ t ∈ new, Missed s' t) ∧ ∀ t, Missed s t → Missed s' t := by
  rcases fetchRun_cases ran with keeps | ⟨copy, rivals, enters⟩
  · have copies : s'.copies = s.copies ++ [] := keeps.copies.trans (List.append_nil _).symm
    refine ⟨?_, keeps.missed holds missed, fun t missed' => missed'.later copies⟩
    intro pubkey
    rw [AccountCache.get, keeps.inner, keeps.copies]
    exact holds pubkey
  · exact ⟨holds.enter enters.inner enters.copies, enters.missed,
      fun t missed' => missed'.later enters.copies⟩

/-- What enters keeps the copies in order just when it meets no newer rival. -/
theorem EntersCopy.ordered_iff {copy : Copy} {rivals : List Copy}
    (enters : EntersCopy s task choice s' new copy rivals) (missed : Missed s task)
    (ordered : CopiesOrdered s) :
    CopiesOrdered s' ↔ ∀ c ∈ rivals, c.pubkey = copy.pubkey → c.slot ≤ copy.slot := by
  rw [CopiesOrdered, enters.copies, List.pairwise_append]
  constructor
  · intro all c rival same
    exact all.2.2 c (enters.rivals_sub c rival) copy (List.mem_singleton_self copy) same
  · intro unraced
    refine ⟨ordered, List.pairwise_singleton _ _, ?_⟩
    intro c member copy' last same
    obtain rfl := List.mem_singleton.mp last
    rcases enters.rivals_all missed c member same with rival | older
    · exact unraced c rival same
    · exact older

end Step

/-- A call that nothing interrupts is `get_or_fetch`. -/
theorem getOrFetch_alone (showPubkey : Pubkey → String) (s : FetchShared) (pubkey : Pubkey)
    (getAccount : Pubkey → Except String Account) :
    ∃ schedule p, fetchSystem.exec Machine.anyStep { shared := s, tasks := [.get pubkey] }
        schedule = some p ∧
      p.shared.cache = (s.cache.getOrFetch showPubkey pubkey getAccount).2 ∧
      p.tasks = [.returned (s.cache.getOrFetch showPubkey pubkey getAccount).1.toOption] := by
  unfold AccountCache.getOrFetch
  cases cached : s.cache.get pubkey with
  | some a =>
      refine ⟨[(0, .go)], { shared := s, tasks := [.returned (some a)] }, ?_, rfl, rfl⟩
      simp [System.exec, System.next, fetchSystem, fetchRun, cached, Machine.anyStep]
  | none =>
      cases answer : getAccount pubkey with
      | error e =>
          refine ⟨[(0, .go), (0, .go), (0, .answered none)],
            { shared := s, tasks := [.returned none] }, ?_, rfl, rfl⟩
          simp [System.exec, System.next, fetchSystem, fetchRun, cached, Machine.anyStep]
      | ok account =>
          refine ⟨[(0, .go), (0, .go), (0, .answered (some (s.now, account))), (0, .go)],
            { shared := { s with
                cache := s.cache.insert pubkey account
                copies := s.copies ++ [{
                  pubkey := pubkey
                  account := account
                  source := .rpc
                  slot := s.now }] }
              tasks := [.returned (some account)] }, ?_, rfl, rfl⟩
          simp [System.exec, System.next, fetchSystem, fetchRun, cached, Machine.anyStep]

/-! ## Runs -/

section Runs

variable {p p' : Pool FetchShared FetchTask} {label : Nat × FetchChoice}

/-- The invariant of every run. -/
structure Consistent (p : Pool FetchShared FetchTask) : Prop where
  holds : HoldsLast p.shared
  missed : ∀ task ∈ p.tasks, Missed p.shared task

theorem consistent_fresh (seed : UInt64) (now : Nat) : Consistent (freshCalls seed now) where
  holds _ := rfl
  missed := by simp [freshCalls, Missed]

theorem Consistent.next (consistent : Consistent p)
    (taken : fetchSystem.next p label.1 label.2 = some p') : Consistent p' := by
  have kept : ∀ s t choice s' new, fetchSystem.run s t choice = some (s', new) →
      HoldsLast s → Missed s t →
        HoldsLast s' ∧ (∀ t' ∈ new, Missed s' t') ∧ ∀ t', Missed s t' → Missed s' t' :=
    fun _ _ _ _ _ ran holds missed => fetchRun_keeps ran holds missed
  obtain ⟨holds, missed⟩ := System.next_keeps kept taken ⟨consistent.holds, consistent.missed⟩
  exact ⟨holds, missed⟩

/-- **One step** keeps the copies in order just when what enters is unraced. -/
theorem ordered_next_iff (consistent : Consistent p) (ordered : CopiesOrdered p.shared)
    (taken : fetchSystem.next p label.1 label.2 = some p') :
    CopiesOrdered p'.shared ↔ Unraced p label := by
  rcases System.next_eq_some_iff.mp taken with ⟨task, shared, tasks, found, ran, rfl⟩
  have missed := consistent.missed task (List.mem_of_getElem? found)
  simp only [Unraced, found, Option.mem_some_iff, forall_eq']
  rcases fetchRun_cases ran with keeps | ⟨copy, rivals, enters⟩
  · rw [CopiesOrdered, keeps.copies, keeps.entering]
    exact iff_of_true ordered fun e none => by cases none
  · rw [enters.ordered_iff missed ordered, enters.entering]
    simp only [Option.mem_some_iff, forall_eq']

/-- **No copy moves an account back** in a run just when no step of it lets one in that lost
its race. The cache holds the last copy of each account throughout. -/
theorem copies_ordered_iff {start : Pool FetchShared FetchTask}
    {steps : List (Machine.Entry _ _)} (started : fetchMachine.start start)
    (trace : fetchMachine.Trace start steps p) :
    (∀ entry ∈ steps, HoldsLast entry.after.shared) ∧
      ((∀ entry ∈ steps, CopiesOrdered entry.after.shared) ↔
        ∀ entry ∈ steps, Unraced entry.before entry.label) := by
  rcases started with ⟨seed, now, rfl⟩
  have first := consistent_fresh seed now
  have kept : ∀ p label p', Consistent p → fetchMachine.step p label p' → Consistent p' :=
    fun _ _ _ consistent taken => consistent.next taken
  refine ⟨fun entry member => (trace.forall_after kept first entry member).holds, ?_⟩
  exact trace.all_iff Consistent (fun p => CopiesOrdered p.shared) kept
    (fun _ _ _ consistent ordered taken => ordered_next_iff consistent ordered taken) first
    List.Pairwise.nil

end Runs

/-! ### A call that is overtaken -/

/-- The account of the pool at a version. -/
def poolAt (version : UInt8) : AccountInfo := { pool with data := [version] }

def poolKey : Pubkey := ⟨pool.pubkey, rfl⟩

/-- A call misses at slot 20, reads the account as of that slot, and inserts it. -/
def fetchPool : List (Nat × FetchChoice) := [
  (2, .call poolKey), (2, .go), (2, .go), (2, .answered (some (20, (poolAt 1).toAccount)))]

/-- The stream delivers the account as of slot 21. -/
def deliverPool : Nat × FetchChoice :=
  (1, .deliver (.account { slot := 21, account := some (poolAt 2) }))

/-- The stream delivers after the call has inserted. -/
theorem copies_ordered_fetchPool :
    ∃ steps p, fetchMachine.Trace (freshCalls 20 20) steps p ∧ p.shared.copies.length = 2 ∧
      (∀ entry ∈ steps, Unraced entry.before entry.label) ∧
        ∀ entry ∈ steps, CopiesOrdered entry.after.shared := by
  have ended : (fetchSystem.exec Unraced (freshCalls 20 20)
      (fetchPool ++ [(2, .go), deliverPool])).any
        fun p => p.shared.copies.length = 2 := by decide
  rcases (Option.any_eq_true _ _).mp ended with ⟨p, played, two⟩
  rcases System.exec_trace played with ⟨steps, trace, unraced⟩
  exact ⟨steps, p, trace, of_decide_eq_true two, unraced,
    (copies_ordered_iff ⟨20, 20, rfl⟩ trace).2.mpr unraced⟩

/-- The stream delivers slot 21 while the call is under way, and the call then puts the
account back to slot 20. -/
theorem copies_overtaken :
    ¬ ∀ p, fetchMachine.Reach Machine.anyStep p → CopiesOrdered p.shared := by
  intro ordered
  have ended : (fetchSystem.exec Machine.anyStep (freshCalls 20 20)
      (fetchPool ++ [deliverPool, (2, .go)])).any
        fun p => p.shared.copies.map (fun c => (c.pubkey, c.slot)) = [(poolKey, 21), (poolKey, 20)] := by
    decide
  rcases (Option.any_eq_true _ _).mp ended with ⟨p, played, copies⟩
  have reached : fetchMachine.Reach Machine.anyStep p :=
    System.exec_reach (.ofStart ⟨20, 20, rfl⟩) played
  have sorted : (p.shared.copies.map fun c => (c.pubkey, c.slot)).Pairwise
      fun c c' => c.1 = c'.1 → c.2 ≤ c'.2 := List.pairwise_map.mpr (ordered p reached)
  rw [of_decide_eq_true copies] at sorted
  exact absurd sorted (by decide)

end ArbBot
