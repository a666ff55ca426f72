import ArbBot.Foundation.Interleaving
import ArbBot.Transaction

/-!
# Tables that grow

`get_or_fetch` looks into the cache in one section and stores what it fetched in another one,
and nothing in the cache is fetched again: the tables of a build may be old, and of different
ages. `altSystem` interleaves any number of builds with the lookup-table program, which appends
to tables, and with RPC nodes that lag.

A table is never younger than it was, so an index into an old one is good for all later ones. A
transaction is as right as the tables it was built from, and stays so
(`rightAccounts_while_growing`).
-/

namespace ArbBot

open Foundation Sdk

/-! ## Growth -/

instance (data : List UInt8) : Decidable (Accepted data) := inferInstanceAs (Decidable (_ = _))

/-- What a table holds stays where it is. The tables are not closed. -/
def Grown (old new : List UInt8) : Prop :=
  Accepted old → Accepted new ∧ rawAddresses old <+: rawAddresses new

instance (old new : List UInt8) : Decidable (Grown old new) :=
  inferInstanceAs (Decidable (_ → _))

section Growth

variable {old new : List UInt8} {chain chain' : Pubkey → List UInt8}

theorem Grown.refl (data : List UInt8) : Grown data data :=
  fun accepted => ⟨accepted, List.prefix_rfl⟩

theorem Grown.trans {newer : List UInt8} (first : Grown old new) (second : Grown new newer) :
    Grown old newer := by
  intro accepted
  rcases first accepted with ⟨mid, start⟩
  rcases second mid with ⟨last, longer⟩
  exact ⟨last, start.trans longer⟩

/-- An entry of an old table is an entry of the new one. -/
theorem rawEntry_of_grown (grown : Grown old new) (accepted : Accepted old) {i : Nat}
    (inside : i < (rawAddresses old).length) : rawEntry new i = rawEntry old i := by
  rcases grown accepted with ⟨accepted', rest, same⟩
  rw [← getElem?_rawAddresses accepted', ← getElem?_rawAddresses accepted, ← same,
    List.getElem?_append_left inside]

end Growth

/-! ## Builds -/

/-- The arguments of `build_arb_transaction`, with the tip account that is chosen. -/
structure BuildCall (Hash Keypair : Type) where
  swapIxs : SwapInstructionsResponse
  payer : Keypair
  tipLamports : UInt64
  cuLimit : UInt32
  recentBlockhash : Hash
  choice : Fin jitoTipAccounts.length

variable {Hash Keypair : Type}

/-- A build that has its instructions and knows its tables. -/
structure Job (sdk : SolanaSdk Hash Keypair) (codec : TextCodec) where
  call : BuildCall Hash Keypair
  instructions : List Instruction
  alts : List Pubkey
  prepared : arbInstructions sdk codec call.swapIxs (sdk.pubkey call.payer) call.tipLamports
    call.cuLimit call.choice = .ok instructions
  parsed : altAddresses sdk call.swapIxs.addressLookupTableAddresses = .ok alts

/-- What `build_arb_transaction` does before it fetches a table. -/
def BuildCall.job? (sdk : SolanaSdk Hash Keypair) (codec : TextCodec)
    (call : BuildCall Hash Keypair) : Except Failure (Job sdk codec) :=
  match prepared : arbInstructions sdk codec call.swapIxs (sdk.pubkey call.payer)
      call.tipLamports call.cuLimit call.choice with
  | .error e => .error e
  | .ok instructions =>
      match parsed : altAddresses sdk call.swapIxs.addressLookupTableAddresses with
      | .error e => .error e
      | .ok alts => .ok {
          call := call
          instructions := instructions
          alts := alts
          prepared := prepared
          parsed := parsed }

/-- Compile and sign. -/
def Job.finish {sdk : SolanaSdk Hash Keypair} {codec : TextCodec} (job : Job sdk codec)
    (tables : List AddressLookupTableAccount) : Except Failure Transaction :=
  signedTransaction sdk job.call.payer job.instructions tables job.call.recentBlockhash

/-! ## Steps -/

structure AltShared where
  /-- The raw data of the tables now. -/
  chain : Pubkey → List UInt8
  cache : AltCache

inductive AltTask (sdk : SolanaSdk Hash Keypair) (codec : TextCodec) where
  /-- The lookup-table program. -/
  | program
  /-- The callers of `build_arb_transaction`, which may start another build. -/
  | callers
  | refused (failure : Failure)
  /-- The tables so far; the others are to be looked up. -/
  | collect (job : Job sdk codec) (pending : List Pubkey)
      (tables : List AddressLookupTableAccount)
  /-- After a miss. -/
  | request (job : Job sdk codec) (pubkey : Pubkey) (pending : List Pubkey)
      (tables : List AddressLookupTableAccount)
  | insert (job : Job sdk codec) (alt : AddressLookupTableAccount) (pending : List Pubkey)
      (tables : List AddressLookupTableAccount)
  | returned (job : Job sdk codec) (result : Except Failure Transaction)

inductive AltChoice (Hash Keypair : Type) where
  | go
  | extend (pubkey : Pubkey) (data : List UInt8)
  | call (call : BuildCall Hash Keypair)
  | clear
  /-- What `get_account` answers. -/
  | answered (answer : Except String (List UInt8))

/-- An RPC node shows a content that the table has had. -/
def altRun (sdk : SolanaSdk Hash Keypair) (codec : TextCodec) (s : AltShared) :
    AltTask sdk codec → AltChoice Hash Keypair → Option (AltShared × List (AltTask sdk codec))
  | .program, .extend pubkey data =>
      if Grown (s.chain pubkey) data then
        some ({ s with chain := Function.update s.chain pubkey data }, [.program])
      else none
  | .callers, .clear => some ({ s with cache := s.cache.clear }, [.callers])
  | .callers, .call call =>
      match call.job? sdk codec with
      | .error e => some (s, [.refused e, .callers])
      | .ok job => some (s, [.collect job job.alts [], .callers])
  | .collect job [] tables, .go => some (s, [.returned job (job.finish tables)])
  | .collect job (pubkey :: pending) tables, .go =>
      match s.cache.inner[pubkey]? with
      | some alt => some (s, [.collect job pending (tables ++ [alt])])
      | none => some (s, [.request job pubkey pending tables])
  | .request job pubkey pending tables, .answered answer =>
      match answer with
      | .error e => some (s, [.returned job (.error
          (.error ["failed to fetch ALT " ++ sdk.showPubkey pubkey ++ ": " ++ e]))])
      | .ok data =>
          if Grown data (s.chain pubkey) then
            match deserializeAltAddresses data with
            | .error e => some (s, [.returned job (.error e)])
            | .ok addresses =>
                let alt : AddressLookupTableAccount := {
                  key := pubkey
                  addresses := addresses.filter fun addr => !s.cache.tipPubkeys.contains addr }
                some (s, [.insert job alt pending tables])
          else none
  | .insert job alt pending tables, .go =>
      let cache := { s.cache with inner := s.cache.inner.insert alt.key alt }
      some ({ s with cache := cache }, [.collect job pending (tables ++ [alt])])
  | _, _ => none

def altSystem (sdk : SolanaSdk Hash Keypair) (codec : TextCodec) :
    System AltShared (AltTask sdk codec) (AltChoice Hash Keypair) where
  run := altRun sdk codec

/-- A new cache, and any tables. -/
def freshBuilds (sdk : SolanaSdk Hash Keypair) (codec : TextCodec) (tips : List Pubkey)
    (chain : Pubkey → List UInt8) : Pool AltShared (AltTask sdk codec) where
  shared := { chain := chain, cache := .new tips }
  tasks := [.program, .callers]

def altPool (sdk : SolanaSdk Hash Keypair) (codec : TextCodec) (tips : List Pubkey) :
    Machine (Pool AltShared (AltTask sdk codec)) (Nat × AltChoice Hash Keypair) :=
  (altSystem sdk codec).machine fun p => ∃ chain, p = freshBuilds sdk codec tips chain

/-! ## Old tables -/

/-- The table is a content that the table of the key has had, without the tips. -/
def OldTable (tips : List Pubkey) (chain : Pubkey → List UInt8) (key : Pubkey)
    (alt : AddressLookupTableAccount) : Prop :=
  ∃ data, Accepted data ∧ Grown data (chain key) ∧ alt = filteredTable tips (fun _ => data) key

/-- Contents that the tables have had. -/
def Seen (chain : Pubkey → List UInt8) (alts : List Pubkey) (seen : Pubkey → List UInt8) : Prop :=
  ∀ alt ∈ alts, Accepted (seen alt) ∧ Grown (seen alt) (chain alt)

/-- The tables are contents that the tables have had, each of some time. -/
def OldTables (tips : List Pubkey) (chain : Pubkey → List UInt8) (alts : List Pubkey)
    (tables : List AddressLookupTableAccount) : Prop :=
  ∃ seen, Seen chain alts seen ∧ tables = alts.map (filteredTable tips seen)

/-- What a task has collected. -/
def AltTask.Collected {sdk : SolanaSdk Hash Keypair} {codec : TextCodec} (tips : List Pubkey)
    (s : AltShared) : AltTask sdk codec → Prop
  | .collect job pending tables =>
      ∃ done, job.alts = done ++ pending ∧ OldTables tips s.chain done tables
  | .request job pubkey pending tables =>
      ∃ done, job.alts = done ++ pubkey :: pending ∧ OldTables tips s.chain done tables
  | .insert job alt pending tables => OldTable tips s.chain alt.key alt ∧
      ∃ done, job.alts = done ++ alt.key :: pending ∧ OldTables tips s.chain done tables
  | .returned job (.ok tx) =>
      ∃ tables, OldTables tips s.chain job.alts tables ∧ job.finish tables = .ok tx
  | _ => True

/-- What the cache holds. -/
structure AltShared.Old (tips : List Pubkey) (s : AltShared) : Prop where
  tips_eq : s.cache.tipPubkeys = tips
  table : ∀ (key : Pubkey) (alt : AddressLookupTableAccount),
    s.cache.inner[key]? = some alt → OldTable tips s.chain key alt

section Step

variable {sdk : SolanaSdk Hash Keypair} {codec : TextCodec} {tips : List Pubkey}
  {chain chain' : Pubkey → List UInt8} {s s' : AltShared} {task : AltTask sdk codec}
  {choice : AltChoice Hash Keypair} {new : List (AltTask sdk codec)} {key : Pubkey}
  {alt : AddressLookupTableAccount} {alts : List Pubkey}
  {tables : List AddressLookupTableAccount}

theorem OldTable.later (grown : ∀ key, Grown (chain key) (chain' key))
    (old : OldTable tips chain key alt) : OldTable tips chain' key alt := by
  rcases old with ⟨data, accepted, had, same⟩
  exact ⟨data, accepted, had.trans (grown key), same⟩

theorem OldTables.later (grown : ∀ key, Grown (chain key) (chain' key))
    (old : OldTables tips chain alts tables) : OldTables tips chain' alts tables := by
  rcases old with ⟨seen, had, same⟩
  refine ⟨seen, ?_, same⟩
  exact fun alt member => ⟨(had alt member).1, (had alt member).2.trans (grown alt)⟩

theorem oldTables_nil : OldTables tips chain [] [] :=
  ⟨fun _ => [], fun _ absent => absurd absent List.not_mem_nil, rfl⟩

/-- One more table, of a time of its own. -/
theorem OldTables.snoc (old : OldTables tips chain alts tables) (fresh : key ∉ alts)
    (one : OldTable tips chain key alt) :
    OldTables tips chain (alts ++ [key]) (tables ++ [alt]) := by
  rcases old with ⟨seen, had, rfl⟩
  rcases one with ⟨data, accepted, grown, rfl⟩
  have others : ∀ alt ∈ alts, Function.update seen key data alt = seen alt := by
    intro alt member
    have other : alt ≠ key := by
      rintro rfl
      exact fresh member
    exact Function.update_of_ne other _ _
  refine ⟨Function.update seen key data, ?_, ?_⟩
  · refine List.forall_mem_append.mpr ⟨?_, List.forall_mem_singleton.mpr ?_⟩
    · intro alt member
      rw [others alt member]
      exact had alt member
    · rw [Function.update_self]
      exact ⟨accepted, grown⟩
  · rw [List.map_append, List.map_singleton]
    congr 1
    · refine List.map_congr_left ?_
      intro alt member
      rw [filteredTable, filteredTable, others alt member]
    · rw [filteredTable, filteredTable, Function.update_self]

theorem AltTask.Collected.later (grown : ∀ key, Grown (s.chain key) (s'.chain key))
    (collected : task.Collected tips s) : task.Collected tips s' := by
  cases task with
  | collect job pending tables =>
      rcases collected with ⟨done, parts, old⟩
      exact ⟨done, parts, old.later grown⟩
  | request job pubkey pending tables =>
      rcases collected with ⟨done, parts, old⟩
      exact ⟨done, parts, old.later grown⟩
  | insert job alt pending tables =>
      rcases collected with ⟨one, done, parts, old⟩
      exact ⟨one.later grown, done, parts, old.later grown⟩
  | returned job result =>
      cases result with
      | error e => trivial
      | ok tx =>
          rcases collected with ⟨tables, old, finished⟩
          exact ⟨tables, old.later grown, finished⟩
  | program | callers | refused _ => trivial

/-- The tables only grow. -/
theorem grown_of_altRun (ran : altRun sdk codec s task choice = some (s', new)) (key : Pubkey) :
    Grown (s.chain key) (s'.chain key) := by
  unfold altRun at ran
  split at ran
  · rename_i pubkey data
    split at ran
    · rename_i grown
      cases ran
      show Grown (s.chain key) (Function.update s.chain pubkey data key)
      by_cases same : key = pubkey
      · subst same
        rw [Function.update_self]
        exact grown
      · rw [Function.update_of_ne same]
        exact .refl _
    · cases ran
  · cases ran
    exact .refl _
  · split at ran <;> cases ran <;> exact .refl _
  · cases ran
    exact .refl _
  · split at ran <;> cases ran <;> exact .refl _
  · split at ran
    · cases ran
      exact .refl _
    · split at ran
      · split at ran <;> cases ran <;> exact .refl _
      · cases ran
  · cases ran
    exact .refl _
  · cases ran

/-- A table that is collected is not collected again. -/
theorem Job.fresh (job : Job sdk codec) {done pending : List Pubkey}
    (parts : job.alts = done ++ key :: pending) : key ∉ done := by
  have distinct := parts ▸ nodup_altAddresses job.parsed
  intro member
  exact (List.nodup_append.mp distinct).2.2 key member key List.mem_cons_self rfl

/-- One more table is collected. -/
theorem collected_snoc (job : Job sdk codec) {done pending : List Pubkey}
    (parts : job.alts = done ++ key :: pending) (old : OldTables tips s.chain done tables)
    (one : OldTable tips s.chain key alt) :
    (AltTask.collect job pending (tables ++ [alt])).Collected tips s := by
  refine ⟨done ++ [key], ?_, old.snoc (job.fresh parts) one⟩
  rw [List.append_assoc, List.singleton_append]
  exact parts

/-- **One step.** The cache holds old tables, and old tables are collected. -/
theorem old_of_altRun (ran : altRun sdk codec s task choice = some (s', new)) (old : s.Old tips)
    (collected : task.Collected tips s) :
    s'.Old tips ∧ ∀ task ∈ new, task.Collected tips s' := by
  have grown := grown_of_altRun ran
  have kept : s'.cache = s.cache → s'.Old tips := by
    intro same
    refine ⟨by rw [same]; exact old.tips_eq, fun key alt found => ?_⟩
    exact (old.table key alt (same ▸ found)).later grown
  unfold altRun at ran
  split at ran
  · -- the program extends a table
    split at ran
    · cases ran
      exact ⟨kept rfl, List.forall_mem_singleton.mpr trivial⟩
    · cases ran
  · cases ran
    refine ⟨⟨old.tips_eq, fun key alt found => ?_⟩, List.forall_mem_singleton.mpr trivial⟩
    simp [AltCache.clear] at found
  · -- a build starts
    split at ran
    · cases ran
      exact ⟨kept rfl, by simp [AltTask.Collected]⟩
    · cases ran
      refine ⟨kept rfl, List.forall_mem_cons.mpr ⟨⟨[], rfl, oldTables_nil⟩, ?_⟩⟩
      exact List.forall_mem_singleton.mpr trivial
  · -- all tables are there
    rename_i job tables
    cases ran
    refine ⟨kept rfl, List.forall_mem_singleton.mpr ?_⟩
    cases finished : job.finish tables with
    | error e => trivial
    | ok tx =>
        rcases collected with ⟨done, parts, had⟩
        rw [List.append_nil] at parts
        exact ⟨tables, parts ▸ had, finished⟩
  · rename_i job pubkey pending tables
    rcases collected with ⟨done, parts, had⟩
    split at ran
    · rename_i alt found
      cases ran
      exact ⟨kept rfl, List.forall_mem_singleton.mpr
        (collected_snoc job parts had (old.table pubkey alt found))⟩
    · cases ran
      exact ⟨kept rfl, List.forall_mem_singleton.mpr ⟨done, parts, had⟩⟩
  · -- a node answers
    rename_i job pubkey pending tables answer
    rcases collected with ⟨done, parts, had⟩
    split at ran
    · cases ran
      exact ⟨kept rfl, List.forall_mem_singleton.mpr trivial⟩
    · rename_i data
      split at ran
      · rename_i shown
        split at ran
        · cases ran
          exact ⟨kept rfl, List.forall_mem_singleton.mpr trivial⟩
        · rename_i addresses decoded
          cases ran
          obtain ⟨accepted, rfl⟩ := accepted_of_deserialize decoded
          refine ⟨kept rfl, List.forall_mem_singleton.mpr ⟨⟨data, accepted, shown, ?_⟩, ?_⟩⟩
          · rw [old.tips_eq]
            rfl
          · exact ⟨done, parts, had⟩
      · cases ran
  · -- a table is stored, whatever is stored for its key by now
    rename_i job alt pending tables
    rcases collected with ⟨one, done, parts, had⟩
    cases ran
    refine ⟨⟨old.tips_eq, fun key alt' found => ?_⟩, List.forall_mem_singleton.mpr ?_⟩
    · rw [Std.HashMap.getElem?_insert] at found
      split at found
      · rename_i same
        obtain rfl := eq_of_beq same
        obtain rfl := Option.some.inj found
        exact one
      · exact old.table key alt' found
    · exact collected_snoc job parts had one
  · cases ran

end Step

/-! ## A build alone -/

section Alone

variable {sdk : SolanaSdk Hash Keypair} {codec : TextCodec} {cache cache' : AltCache}
  {getAccount : Pubkey → Except String (List UInt8)} {pubkey : Pubkey} {rest : List Pubkey}
  {alt : AddressLookupTableAccount} {e : Failure}

theorem fetchAll_of_ok
    (got : cache.getOrFetch sdk.showPubkey pubkey getAccount = (.ok alt, cache')) :
    fetchAll sdk getAccount (pubkey :: rest) cache =
      ((fetchAll sdk getAccount rest cache').1.map (alt :: ·),
        (fetchAll sdk getAccount rest cache').2) := by
  rw [fetchAll, got]
  dsimp only
  rcases fetchAll sdk getAccount rest cache' with ⟨_ | _, _⟩ <;> rfl

theorem fetchAll_of_error
    (got : cache.getOrFetch sdk.showPubkey pubkey getAccount = (.error e, cache')) :
    fetchAll sdk getAccount (pubkey :: rest) cache = (.error e, cache') := by
  rw [fetchAll, got]

/-- The tables of a build that nothing interrupts are those of `fetchAll`. -/
theorem alone_fetchAll (job : Job sdk codec) (pending : List Pubkey) (s : AltShared)
    (shows : ∀ key data, getAccount key = .ok data → Grown data (s.chain key))
    (tables : List AddressLookupTableAccount) :
    Relation.ReflTransGen (altSystem sdk codec).Alone (s, .collect job pending tables)
      ({ s with cache := (fetchAll sdk getAccount pending s.cache).2 },
        .returned job ((fetchAll sdk getAccount pending s.cache).1.bind fun alts =>
          job.finish (tables ++ alts))) := by
  induction pending generalizing s tables with
  | nil =>
      refine .single ⟨.go, ?_⟩
      simp only [altSystem, altRun, fetchAll, Except.bind, List.append_nil]
  | cons pubkey pending ih =>
      -- what is left once the table is there
      have collected : ∀ {cache' : AltCache} {alt : AddressLookupTableAccount},
          s.cache.getOrFetch sdk.showPubkey pubkey getAccount = (.ok alt, cache') →
          Relation.ReflTransGen (altSystem sdk codec).Alone
            ({ s with cache := cache' }, .collect job pending (tables ++ [alt]))
            ({ s with cache := (fetchAll sdk getAccount (pubkey :: pending) s.cache).2 },
              .returned job ((fetchAll sdk getAccount (pubkey :: pending) s.cache).1.bind
                fun alts => job.finish (tables ++ alts))) := by
        intro cache' alt got
        have later := ih { s with cache := cache' } shows (tables ++ [alt])
        rw [fetchAll_of_ok got]
        rcases answer : fetchAll sdk getAccount pending cache' with ⟨_ | alts, _⟩
        · rw [answer] at later
          exact later
        · simp only [answer, Except.bind, List.append_assoc, List.singleton_append] at later
          exact later
      have failed : ∀ {e : Failure},
          s.cache.getOrFetch sdk.showPubkey pubkey getAccount = (.error e, s.cache) →
          ({ s with cache := s.cache }, .returned job (.error e)) =
            (({ s with cache := (fetchAll sdk getAccount (pubkey :: pending) s.cache).2 },
              .returned job ((fetchAll sdk getAccount (pubkey :: pending) s.cache).1.bind
                fun alts => job.finish (tables ++ alts))) : AltShared × AltTask sdk codec) := by
        intro e got
        rw [fetchAll_of_error got]
        rfl
      cases cached : s.cache.inner[pubkey]? with
      | some alt =>
          refine .head (b := (s, .collect job pending (tables ++ [alt]))) ⟨.go, ?_⟩ ?_
          · simp only [altSystem, altRun, cached]
          · exact collected (by rw [AltCache.getOrFetch, cached])
      | none =>
          refine .head (b := (s, .request job pubkey pending tables)) ⟨.go, ?_⟩ ?_
          · simp only [altSystem, altRun, cached]
          cases answer : getAccount pubkey with
          | error e =>
              rw [← failed (by rw [AltCache.getOrFetch, cached, answer])]
              exact .single ⟨.answered (.error e), rfl⟩
          | ok data =>
              have shown := shows pubkey data answer
              cases decoded : deserializeAltAddresses data with
              | error e =>
                  rw [← failed (e := e) (by
                    simp only [AltCache.getOrFetch, cached, answer, decoded])]
                  refine .single ⟨.answered (.ok data), ?_⟩
                  simp only [altSystem, altRun, if_pos shown, decoded]
              | ok addresses =>
                  let alt : AddressLookupTableAccount := {
                    key := pubkey
                    addresses := addresses.filter fun addr => !s.cache.tipPubkeys.contains addr }
                  have got : s.cache.getOrFetch sdk.showPubkey pubkey getAccount =
                      (.ok alt, { s.cache with inner := s.cache.inner.insert pubkey alt }) := by
                    simp only [AltCache.getOrFetch, cached, answer, decoded, alt]
                  refine .head (b := (s, .insert job alt pending tables))
                    ⟨.answered (.ok data), ?_⟩ (.head ⟨.go, rfl⟩ (collected got))
                  simp only [altSystem, altRun, if_pos shown, decoded, alt]

/-- **A build that nothing interrupts** is `build_arb_transaction`. -/
theorem alone_build (job : Job sdk codec) (s : AltShared)
    (shows : ∀ key data, getAccount key = .ok data → Grown data (s.chain key)) :
    let built := buildArbTransaction sdk codec job.call.swapIxs job.call.payer
      job.call.tipLamports job.call.cuLimit job.call.recentBlockhash s.cache getAccount
        job.call.choice
    Relation.ReflTransGen (altSystem sdk codec).Alone (s, .collect job job.alts [])
      ({ s with cache := built.2 }, .returned job built.1) := by
  intro built
  have fetched := alone_fetchAll job job.alts s shows []
  have same : built = ((fetchAll sdk getAccount job.alts s.cache).1.bind fun alts =>
      job.finish ([] ++ alts), (fetchAll sdk getAccount job.alts s.cache).2) := by
    show buildArbTransaction sdk codec _ _ _ _ _ _ _ _ = _
    rw [buildArbTransaction, job.prepared, job.parsed]
    dsimp only
    rcases fetchAll sdk getAccount job.alts s.cache with ⟨_ | _, _⟩ <;> rfl
  rw [same]
  exact fetched

end Alone

/-! ## The accounts of a transaction -/

section Accounts

variable {sdk : SolanaSdk Hash Keypair} {codec : TextCodec} {tips : List Pubkey}
  {chain : Pubkey → List UInt8} {seen : Pubkey → List UInt8} {alts : List Pubkey}
  {payer : Pubkey} {instructions : List Instruction} {message : Message}
  {p p' : Pool AltShared (AltTask sdk codec)} {job : Job sdk codec} {tx : Transaction}
  {steps : List (Machine.Entry (Pool AltShared (AltTask sdk codec))
    (Nat × AltChoice Hash Keypair))}

theorem reach_old (reached : (altPool sdk codec tips).Reach Machine.anyStep p) :
    p.shared.Old tips ∧ ∀ task ∈ p.tasks, task.Collected tips p.shared := by
  refine reached.invariant
    (fun p => p.shared.Old tips ∧ ∀ task ∈ p.tasks, task.Collected tips p.shared) ?_ ?_
  · rintro p ⟨chain, rfl⟩
    refine ⟨⟨rfl, fun key alt found => ?_⟩, by simp [freshBuilds, AltTask.Collected]⟩
    simp [freshBuilds, AltCache.new] at found
  · intro p label p' before _ taken
    refine System.next_keeps ?_ taken before
    intro s t choice s' new ran old collected
    obtain ⟨old', collected'⟩ := old_of_altRun ran old collected
    exact ⟨old', collected', fun _ => .later (grown_of_altRun ran)⟩

theorem grown_of_trace (trace : (altPool sdk codec tips).Trace p steps p') (key : Pubkey) :
    Grown (p.shared.chain key) (p'.shared.chain key) := by
  induction trace with
  | nil => exact .refl _
  | snoc _ taken before =>
      rcases System.next_eq_some_iff.mp taken with ⟨task, shared, tasks, -, ran, rfl⟩
      exact before.trans (grown_of_altRun ran key)

/-- A lookup that was compiled against old tables finds the same account in the later ones. -/
theorem rawEntry_of_seen (had : Seen chain alts seen)
    (compiles : CompilesV0 payer instructions (alts.map (filteredTable tips seen)) message)
    {slot : Pubkey × Nat} (member : slot ∈ message.slots) :
    rawEntry (chain slot.1) slot.2 = rawEntry (seen slot.1) slot.2 := by
  rcases drawn_filteredTables compiles member with ⟨key, alt, -, other, first, rfl, -⟩
  have inAlts := List.mem_of_find?_eq_some first
  have held : key ∈ (filteredTable tips seen alt).addresses :=
    List.mem_filter.mpr ⟨mem_rawAddresses_of_first first, by simp [other]⟩
  refine rawEntry_of_grown (had alt inAlts).2 (had alt inAlts).1 ?_
  exact Nat.lt_of_lt_of_le (List.idxOf_lt_length_of_mem held) (List.length_filter_le _ _)

theorem rightAccounts_of_seen (had : Seen chain alts seen)
    (compiles : CompilesV0 payer instructions (alts.map (filteredTable tips seen)) message) :
    RightAccounts chain instructions message ↔ TipsBehind tips seen alts payer instructions := by
  rw [← rightAccounts_iff_of_compiles (fun alt member => (had alt member).1) compiles]
  refine forall_congr' fun p => forall_congr' fun slot => ?_
  refine forall_congr' fun position => forall_congr' fun key => ?_
  rw [rawEntry_of_seen had compiles (List.mem_of_getElem? position)]

/-- Tables without tips had none before. -/
theorem tipsBehind_of_seen (had : Seen chain alts seen)
    (none : ∀ alt ∈ alts, ∀ addr ∈ rawAddresses (chain alt), addr ∉ tips) :
    TipsBehind tips seen alts payer instructions := by
  intro key _ _ table first addr early
  have inAlts := List.mem_of_find?_eq_some first
  rcases had table inAlts with ⟨accepted, grown⟩
  exact none table inAlts addr
    ((grown accepted).2.subset ((List.takeWhile_prefix _).subset early))

/-- **Old tables do no harm.** In every interleaving of builds, clears and growing tables, a
transaction that a build has returned was made from the contents that its tables had at some times
before. It refers to the right accounts at every later time just when no tip stood before a
drawable key in these contents; so it does when no table lists a tip by the time the build
returns. -/
theorem rightAccounts_while_growing (lawful : sdk.Lawful)
    (reached : (altPool sdk codec tips).Reach Machine.anyStep p)
    (member : .returned job (.ok tx) ∈ p.tasks)
    (later : (altPool sdk codec tips).Trace p steps p') :
    ∃ seen, Seen p.shared.chain job.alts seen ∧
      job.finish (job.alts.map (filteredTable tips seen)) = .ok tx ∧
      (RightAccounts p'.shared.chain job.instructions tx.message ↔
        TipsBehind tips seen job.alts (sdk.pubkey job.call.payer) job.instructions) ∧
      ((∀ alt ∈ job.alts, ∀ addr ∈ rawAddresses (p.shared.chain alt), addr ∉ tips) →
        RightAccounts p'.shared.chain job.instructions tx.message) := by
  rcases (reach_old reached).2 _ member with ⟨tables, ⟨seen, had, rfl⟩, finished⟩
  have compiles : CompilesV0 (sdk.pubkey job.call.payer) job.instructions
      (job.alts.map (filteredTable tips seen)) tx.message := by
    refine compiles_of_signed lawful ?_ finished
    rw [List.map_map, show AddressLookupTableAccount.key ∘ filteredTable tips seen = id from rfl,
      List.map_id]
    exact nodup_altAddresses job.parsed
  have had' : Seen p'.shared.chain job.alts seen := fun alt member =>
    ⟨(had alt member).1, (had alt member).2.trans (grown_of_trace later alt)⟩
  have right := rightAccounts_of_seen had' compiles
  exact ⟨seen, had, finished, right, fun none => right.mpr (tipsBehind_of_seen had none)⟩

end Accounts

/-- A job comes from its call. -/
theorem Job.job?_call {sdk : SolanaSdk Hash Keypair} {codec : TextCodec} (job : Job sdk codec) :
    job.call.job? sdk codec = .ok job := by
  rcases job with ⟨call, instructions, alts, prepared, parsed⟩
  unfold BuildCall.job?
  split
  · rename_i e failed
    cases failed.symm.trans prepared
  · rename_i instructions' prepared'
    obtain rfl := Except.ok.inj (prepared'.symm.trans prepared)
    split
    · rename_i e failed
      cases failed.symm.trans parsed
    · rename_i alts' parsed'
      obtain rfl := Except.ok.inj (parsed'.symm.trans parsed)
      rfl

/-- The swap of one table. -/
def tableJob : Job tableSdk Base64.standard where
  call := {
    swapIxs := tableSwap
    payer := tablePayer
    tipLamports := 1600
    cuLimit := 400000
    recentBlockhash := ()
    choice := ⟨0, by decide⟩ }
  instructions := tableInstructions
  alts := [jupiterTable]
  prepared := tableInstructions_prepared
  parsed := tableSwap_alts

set_option maxRecDepth 20000 in
/-- The table is extended by a tip after the build. -/
theorem rightAccounts_while_growing_extended :
    RightAccounts (Function.update (tableRaw [wrappedSol]) jupiterTable
      (tableRaw [wrappedSol, tableTip] jupiterTable)) tableInstructions tableMessage := by
  have decoded : deserializeAltAddresses (tableRaw [wrappedSol] jupiterTable) =
      .ok [wrappedSol] := by
    decide
  have extended : deserializeAltAddresses (tableRaw [wrappedSol, tableTip] jupiterTable) =
      .ok [wrappedSol, tableTip] := by
    decide
  have grown : Grown (tableRaw [wrappedSol] jupiterTable)
      (tableRaw [wrappedSol, tableTip] jupiterTable) := by
    intro _
    rw [(accepted_of_deserialize decoded).2, (accepted_of_deserialize extended).2]
    exact ⟨(accepted_of_deserialize extended).1, [tableTip], rfl⟩
  let getAccount : Pubkey → Except String (List UInt8) := fun key => .ok (tableRaw [wrappedSol] key)
  let s : AltShared := { chain := tableRaw [wrappedSol], cache := tableCache }
  -- The build is called and goes all the way.
  have called : (altPool tableSdk Base64.standard [tableTip]).Reach Machine.anyStep
      { shared := s, tasks := [.program, .collect tableJob [jupiterTable] [], .callers] } := by
    refine Machine.Reach.step (i := (1, .call tableJob.call))
      (.ofStart ⟨tableRaw [wrappedSol], rfl⟩) trivial ?_
    refine System.next_eq_some_iff.mpr ⟨.callers, _, [.collect tableJob [jupiterTable] [],
      .callers], rfl, ?_, rfl⟩
    simp only [altSystem, altRun, tableJob.job?_call]
    rfl
  have shows : ∀ key data, getAccount key = .ok data → Grown data (s.chain key) :=
    fun key data same => Except.ok.inj same ▸ .refl _
  have reached := System.Reach.alone called (i := 1) rfl (alone_build tableJob s shows)
  have built : (buildArbTransaction tableSdk Base64.standard tableSwap tablePayer 1600 400000 ()
      tableCache getAccount ⟨0, by decide⟩).1 = .ok { message := tableMessage } :=
    table_built [tableTip] decoded (by decide)
  have returned : AltTask.returned tableJob (.ok { message := tableMessage }) ∈
      [AltTask.program, .collect tableJob [jupiterTable] [], .callers].set 1
        (.returned tableJob (buildArbTransaction tableSdk Base64.standard tableSwap tablePayer
          1600 400000 () tableCache getAccount ⟨0, by decide⟩).1) := by
    rw [built]
    exact List.mem_cons_of_mem _ List.mem_cons_self
  have ran : ∀ (s : AltShared) (data : List UInt8), Grown (s.chain jupiterTable) data →
      (altSystem tableSdk Base64.standard).run s .program (.extend jupiterTable data) =
        some ({ s with chain := Function.update s.chain jupiterTable data }, [.program]) :=
    fun _ _ grown => if_pos grown
  rcases rightAccounts_while_growing tableSdk_lawful reached returned
    (.snoc (i := (0, .extend jupiterTable (tableRaw [wrappedSol, tableTip] jupiterTable)))
      (.nil _) (System.next_eq_some_iff.mpr ⟨.program, _, [.program], rfl, ran _ _ grown, rfl⟩))
    with ⟨seen, -, -, -, right⟩
  refine right ?_
  intro alt member addr listed
  obtain rfl := List.mem_singleton.mp member
  have first : addr ∈ rawAddresses (tableRaw [wrappedSol] jupiterTable) := listed
  rw [(accepted_of_deserialize decoded).2] at first
  rw [List.mem_singleton.mp first]
  decide

end ArbBot
