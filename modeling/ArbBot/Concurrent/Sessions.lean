import ArbBot.Concurrent.Linearization
import ArbBot.Foundation.Linearizable
import ArbBot.TierTwo.Completeness

/-!
# Every method is linearizable

A `Session` is a process with the record of its method calls: for each lookup in progress the
call it is for, and the calls that have ended, with their intervals and results. A lookup
through the hop-pair index reads the index in one section and goes to the route in the next
ones, between which any other method may run.

The record is linearizable (`store_linearizable`). The index only grows while the process runs
(`lookup_of_step`), so the entry a lookup went by is the one it would read at its last section.

The interval of a call is from its first section to its last one. The real call is not shorter,
so real time forbids no more orders of the real calls.
-/

namespace ArbBot

open Foundation

/-! ## Methods -/

/-- The methods that read the store in one section. -/
inductive Query where
  | checkHops (routePlan : Json)
  | routeCount
  | hopCount
  | patchableRouteCount

inductive Method where
  | call (call : StoreCall)
  | query (query : Query)

/-- What a method returns. -/
inductive Returned where
  | unit
  | template (tmpl : Option RouteTemplate)
  | hops (allHit : Bool) (missing : Nat)
  | count (n : Nat)

def Query.returned (g : StoreInner) : Query → Returned
  | .checkHops routePlan =>
      let (allHit, missing) := ArbBot.checkHops g routePlan
      .hops allHit missing
  | .routeCount => .count g.routeCount
  | .hopCount => .count g.hopCount
  | .patchableRouteCount => .count g.patchableRouteCount

/-- What a call returns that nothing interrupts. -/
def StoreCall.returned (w : World) : StoreCall → Returned
  | .getRoute sig => .template (ArbBot.getRoute w.store sig).1
  | .getRouteForHops routePlan => .template (ArbBot.getRouteForHops w.store routePlan).1
  | .load => .count ((w.disk.map fun file => (loadRoutesFromDisk w.store file).1).getD 0)
  | _ => .unit

/-- The store, one method at a time. -/
def methodMachine (codec : TextCodec) : Machine World (Method × Returned) where
  start w := w = .initial
  step
    | w, (.call call, returned), w' => returned = call.returned w ∧ storeStep codec w call w'
    | w, (.query query, returned), w' => returned = query.returned w.store ∧ w' = w

/-! ## Sessions -/

structure Session where
  process : Process
  /-- The call of each lookup and the time it started at. -/
  callers : List (StoreCall × Nat)
  clock : Nat
  /-- The calls that have ended, oldest first. -/
  ended : List (Operation Method Returned)

inductive SessionStep where
  | method (method : Method)
  | resume (i : Nat)

namespace Session

def initial : Session where
  process := .initial
  callers := []
  clock := 0
  ended := []

/-- The next time. -/
def tick (s : Session) (process : Process) (callers : List (StoreCall × Nat))
    (ended : List (Operation Method Returned)) : Session where
  process := process
  callers := callers
  clock := s.clock + 1
  ended := s.ended ++ ended

/-- A method of one section. -/
def atOnce (s : Session) (method : Method) (returned : Returned) : Operation Method Returned where
  call := method
  start := s.clock
  finish := s.clock
  reply := returned

/-- The call of a lookup that the step has ended. -/
def closed (s : Session) (process : Process) (i : Nat) : List (Operation Method Returned) :=
  match process.lookups[i]?.map Lookup.stage, s.callers[i]? with
  | some (.done _ answer), some (call, start) =>
      [{ call := .call call, start := start, finish := s.clock, reply := .template answer }]
  | _, _ => []

/-- A restart ends all lookups without an answer. -/
def callersAfter (s : Session) : StoreCall → List (StoreCall × Nat)
  | .restart => []
  | _ => s.callers

/-- What the record says after the first section of a call. -/
def entered (s : Session) (process : Process) (call : StoreCall) : Session :=
  match call.lookup s.process.world with
  | some _ => s.tick process (s.callers ++ [(call, s.clock)]) []
  | none =>
      s.tick process (s.callersAfter call)
        [s.atOnce (.call call) (call.returned s.process.world)]

end Session

/-- A step of the process, or a query. -/
def sessionStep (codec : TextCodec) (s : Session) : SessionStep → Session → Prop
  | .method (.query query), s' =>
      s' = s.tick s.process s.callers
        [s.atOnce (.query query) (query.returned s.process.world.store)]
  | .method (.call call), s' =>
      ∃ process, processStep codec s.process (.call call) process ∧ s' = s.entered process call
  | .resume i, s' =>
      ∃ process, processStep codec s.process (.resume i) process ∧
        s' = s.tick process s.callers (s.closed process i)

/-- Any methods and sections, from the first process on. -/
def sessionMachine (codec : TextCodec) : Machine Session SessionStep where
  start s := s = .initial
  step := sessionStep codec

/-- What a user of the store observes. -/
def Session.observation : Observation Session World Method Returned where
  content s := s.process.world
  clock := Session.clock
  ended := Session.ended

/-! ## The index -/

section Index

variable {codec : TextCodec} {p p' : Process} {label : ProcessStep}

/-- **The index only grows.** An entry of the index outlasts every section of the process. -/
theorem hopPairIndex_of_process_step (running : label ≠ .call .restart)
    (taken : processStep codec p label p') {key : String} {sig : U128}
    (entry : p.world.store.hopPairIndex[key]? = some sig) :
    p'.world.store.hopPairIndex[key]? = some sig := by
  rcases process_step_cases taken with
    ⟨_, rfl⟩ | rfl | ⟨restart, -⟩ | ⟨call, w, rfl, -, called, rfl⟩ | ⟨i, lookup, -, -, resumed⟩
  · exact entry
  · exact entry
  · exact (running restart).elim
  · have going : call ≠ .restart := by
      rintro rfl
      exact running rfl
    rw [hopPairIndex_of_step called]
    exact nextEntry_of_indexed entry going
  · rcases resume_cases resumed with ⟨_, -, -, rfl⟩ | ⟨-, -, rfl⟩ | ⟨-, rfl⟩
    · exact entry
    · exact entry
    · show (getRouteWrite p.world.store lookup.sig).2.hopPairIndex[key]? = some sig
      rw [getRouteWrite_eq]
      exact entry

/-- What a call looks up does not change while the process runs. -/
theorem lookup_of_step (running : label ≠ .call .restart)
    (taken : processStep codec p label p') {call : StoreCall} {sig : U128}
    (looks : call.lookup p.world = some sig) : call.lookup p'.world = some sig := by
  cases call with
  | getRouteForHops routePlan =>
      rcases Option.bind_eq_some_iff.mp looks with ⟨key, pair, entry⟩
      exact Option.bind_eq_some_iff.mpr
        ⟨key, pair, hopPairIndex_of_process_step running taken entry⟩
  | getRoute _ => exact looks
  | _ => cases looks

/-- A call that looks up a signature is a lookup of the signature. -/
theorem methodStep_of_lookup {w : World} {call : StoreCall} {sig : U128}
    (looks : call.lookup w = some sig) :
    (methodMachine codec).step w (.call call, .template (getRoute w.store sig).1)
      { w with store := (getRoute w.store sig).2 } := by
  cases call with
  | getRoute key =>
      cases looks
      exact ⟨rfl, rfl⟩
  | getRouteForHops routePlan =>
      have looked : getRouteForHops w.store routePlan = getRoute w.store sig := by
        rw [getRouteForHops_eq, show (pairKey routePlan).bind _ = some sig from looks]
      rw [← looked]
      exact ⟨rfl, rfl⟩
  | _ => cases looks

/-- The first section of a call that looks up a signature starts the lookup. -/
theorem entered_of_lookup {call : StoreCall} {sig : U128}
    (looks : call.lookup p.world = some sig) (taken : processStep codec p (.call call) p') :
    p' = p.enter sig := by
  cases call with
  | getRoute key =>
      cases looks
      exact taken
  | getRouteForHops routePlan =>
      simp only [processStep, show (pairKey routePlan).bind _ = some sig from looks] at taken
      exact taken
  | _ => cases looks

/-- Any other call is one section, its whole effect, and leaves the lookups alone unless it
restarts the process. -/
theorem whole_of_unlooked {call : StoreCall} (looks : call.lookup p.world = none)
    (taken : processStep codec p (.call call) p') :
    storeStep codec p.world call p'.world ∧
      (call = .restart ∧ p'.lookups = [] ∨ call ≠ .restart ∧ p'.lookups = p.lookups) := by
  cases call with
  | getRoute key => cases looks
  | getRouteForHops routePlan =>
      have nowhere : (pairKey routePlan).bind (p.world.store.hopPairIndex[·]?) = none := looks
      simp only [processStep, nowhere] at taken
      subst taken
      refine ⟨?_, Or.inr ⟨by rintro ⟨⟩, rfl⟩⟩
      show _ = ({ p.world with store := _ } : World)
      rw [getRouteForHops_eq, nowhere]
      rfl
  | restart =>
      obtain rfl := taken
      exact ⟨rfl, Or.inl ⟨rfl, rfl⟩⟩
  | _ =>
      rcases taken with ⟨w, called, rfl⟩
      exact ⟨called, Or.inr ⟨by rintro ⟨⟩, rfl⟩⟩

end Index

/-! ## The record -/

section Record

variable {codec : TextCodec} {s s' : Session} {next : SessionStep} {p' : Process} {i : Nat}
  {caller : StoreCall × Nat} {lookup : Lookup}

/-- The lookup is for the call: it goes by what the call looks up now, and if it has ended its
answer is recorded. -/
structure Session.Serves (s : Session) (caller : StoreCall × Nat) (lookup : Lookup) : Prop where
  started : caller.2 ≤ s.clock
  looks : caller.1.lookup s.process.world = some lookup.sig
  recorded : ∀ finish answer, lookup.stage = .done finish answer → ∃ op ∈ s.ended,
    op.call = .call caller.1 ∧ op.start = caller.2 ∧ op.reply = .template answer

/-- Each lookup of the process has its call. -/
structure Session.Sound (codec : TextCodec) (s : Session) : Prop where
  process : (processMachine codec).Reach Machine.anyStep s.process
  length : s.callers.length = s.process.lookups.length
  serves : ∀ (i : Nat) lookup, s.process.lookups[i]? = some lookup →
    ∃ caller, s.callers[i]? = some caller ∧ s.Serves caller lookup

theorem Session.Serves.tick {callers : List (StoreCall × Nat)}
    {more : List (Operation Method Returned)} (serves : s.Serves caller lookup)
    (looks : ∀ call sig, StoreCall.lookup s.process.world call = some sig →
      call.lookup p'.world = some sig) :
    (s.tick p' callers more).Serves caller lookup where
  started := Nat.le_succ_of_le serves.started
  looks := looks _ _ serves.looks
  recorded finish answer done := by
    rcases serves.recorded finish answer done with ⟨op, member, same⟩
    exact ⟨op, List.mem_append_left _ member, same⟩

/-- The lookups that a step leaves alone keep their calls. -/
theorem Session.Sound.kept (sound : s.Sound codec) {more : List (Operation Method Returned)}
    (reached : (processMachine codec).Reach Machine.anyStep p')
    (looks : ∀ call sig, StoreCall.lookup s.process.world call = some sig →
      call.lookup p'.world = some sig)
    (same : p'.lookups = s.process.lookups) : (s.tick p' s.callers more).Sound codec where
  process := reached
  length := sound.length.trans (congrArg List.length same.symm)
  serves i lookup found := by
    have before : s.process.lookups[i]? = some lookup := same ▸ found
    rcases sound.serves i lookup before with ⟨caller, called, serves⟩
    exact ⟨caller, called, serves.tick looks⟩

theorem Session.callersAfter_of_running {call : StoreCall} (running : call ≠ .restart) :
    s.callersAfter call = s.callers := by
  cases call with
  | restart => exact (running rfl).elim
  | _ => rfl

/-- A call of one section leaves the lookups to their calls, or ends them all. -/
theorem Session.Sound.whole (sound : s.Sound codec) {call : StoreCall}
    {more : List (Operation Method Returned)} (looks : call.lookup s.process.world = none)
    (taken : processStep codec s.process (.call call) p') :
    (s.tick p' (s.callersAfter call) more).Sound codec := by
  have reached : (processMachine codec).Reach Machine.anyStep p' :=
    sound.process.step (i := .call call) trivial taken
  rcases (whole_of_unlooked looks taken).2 with ⟨rfl, gone⟩ | ⟨running, same⟩
  · refine ⟨reached, (congrArg List.length gone).symm, fun i lookup found => ?_⟩
    have nothing : ([] : List Lookup)[i]? = some lookup := gone ▸ found
    cases nothing
  · rw [Session.callersAfter_of_running running]
    refine sound.kept reached (fun _ _ => lookup_of_step ?_ taken) same
    rintro ⟨⟩
    exact running rfl

/-- A lookup enters with its call. -/
theorem Session.Sound.enter (sound : s.Sound codec) {call : StoreCall} {sig : U128}
    (reached : (processMachine codec).Reach Machine.anyStep (s.process.enter sig))
    (looks : call.lookup s.process.world = some sig) :
    (s.tick (s.process.enter sig) (s.callers ++ [(call, s.clock)]) []).Sound codec where
  process := reached
  length := by
    show (s.callers ++ [_]).length = (s.process.lookups ++ [_]).length
    rw [List.length_append, List.length_append, sound.length]
    rfl
  serves i lookup found := by
    have found : (s.process.lookups ++ [_])[i]? = some lookup := found
    show ∃ caller, (s.callers ++ [(call, s.clock)])[i]? = some caller ∧ _
    rw [List.getElem?_append] at found ⊢
    rw [sound.length]
    split at found
    · rename_i old
      rw [if_pos old]
      rcases sound.serves i lookup found with ⟨caller, called, serves⟩
      exact ⟨caller, called, serves.tick fun _ _ looks => looks⟩
    · rename_i new
      rw [if_neg new]
      rcases List.getElem?_eq_some_iff.mp found with ⟨inside, same⟩
      have first : i - s.process.lookups.length = 0 := Nat.lt_one_iff.mp inside
      rw [first]
      refine ⟨_, rfl, Nat.le_succ _, ?_, ?_⟩
      · simp only [first, List.getElem_cons_zero] at same
        rw [← same]
        exact looks
      · intro finish answer done
        simp only [first, List.getElem_cons_zero] at same
        rw [← same] at done
        cases done

theorem stage_of_moved {p : Process} {stage : LookupStage} (found : p.lookups[i]? = some lookup)
    (moved : p'.lookups = p.lookups.set i { lookup with stage := stage }) :
    p'.lookups[i]?.map Lookup.stage = some stage := by
  rw [moved, List.getElem?_set_self (List.getElem?_eq_some_iff.mp found).1]
  rfl

/-- A lookup is at another section, and its call is recorded if this was the last one. -/
theorem Session.Sound.resume (sound : s.Sound codec) {stage : LookupStage}
    {more : List (Operation Method Returned)}
    (reached : (processMachine codec).Reach Machine.anyStep p')
    (looks : ∀ call sig, StoreCall.lookup s.process.world call = some sig →
      call.lookup p'.world = some sig)
    (found : s.process.lookups[i]? = some lookup)
    (moved : p'.lookups = s.process.lookups.set i { lookup with stage := stage })
    (recorded : ∀ finish answer, stage = .done finish answer → ∀ caller,
      s.callers[i]? = some caller → ∃ op ∈ more,
        op.call = .call caller.1 ∧ op.start = caller.2 ∧ op.reply = .template answer) :
    (s.tick p' s.callers more).Sound codec where
  process := reached
  length := by
    show s.callers.length = p'.lookups.length
    rw [moved, List.length_set]
    exact sound.length
  serves j other found' := by
    have after : (s.process.lookups.set i { lookup with stage := stage })[j]? = some other :=
      moved ▸ found'
    rw [List.getElem?_set] at after
    split at after
    · rename_i same
      subst same
      split at after
      · obtain rfl := Option.some.inj after
        rcases sound.serves i lookup found with ⟨caller, called, serves⟩
        refine ⟨caller, called, Nat.le_succ_of_le serves.started, looks _ _ serves.looks, ?_⟩
        intro finish answer done
        rcases recorded finish answer done caller called with ⟨op, member, same⟩
        exact ⟨op, List.mem_append_right _ member, same⟩
      · cases after
    · rcases sound.serves j other after with ⟨caller, called, serves⟩
      exact ⟨caller, called, serves.tick looks⟩

/-- What a section of a lookup does to the record: it changes neither the store nor the record,
or it is the end of the call and its whole effect. -/
theorem Session.Sound.resumed (sound : s.Sound codec)
    (found : s.process.lookups[i]? = some lookup)
    (resumed : s.process.resume i lookup = some p') :
    (s.tick p' s.callers (s.closed p' i)).Sound codec ∧
      Session.observation.Commits (methodMachine codec) s
        (s.tick p' s.callers (s.closed p' i)) := by
  have taken : processStep codec s.process (.resume i) p' := ⟨lookup, found, resumed⟩
  have reached : (processMachine codec).Reach Machine.anyStep p' :=
    sound.process.step (i := .resume i) trivial taken
  have looks : ∀ call sig, StoreCall.lookup s.process.world call = some sig →
      call.lookup p'.world = some sig :=
    fun call sig => lookup_of_step (by rintro ⟨⟩) taken
  have disjoint := reach_disjoint (reach_world sound.process)
  rcases sound.serves i lookup found with ⟨⟨call, start⟩, called, serves⟩
  -- The last section of a lookup is a lookup of its own, and so the whole call.
  have last : ∀ finish answer,
      (answer, p'.world.store) = getRoute s.process.world.store lookup.sig →
      p'.world = { s.process.world with store := p'.world.store } →
      p'.lookups = s.process.lookups.set i { lookup with stage := .done finish answer } →
      (s.tick p' s.callers (s.closed p' i)).Sound codec ∧
        Session.observation.Commits (methodMachine codec) s
          (s.tick p' s.callers (s.closed p' i)) := by
    intro finish answer whole world moved
    have closed : s.closed p' i =
        [{ call := .call call, start := start, finish := s.clock, reply := .template answer }] := by
      rw [Session.closed, stage_of_moved found moved, called]
    rw [closed]
    refine ⟨sound.resume reached looks found moved ?_, .ends _ rfl serves.started rfl ?_⟩
    · rintro _ _ ⟨⟩ caller same
      obtain rfl := Option.some.inj (called.symm.trans same)
      exact ⟨_, List.mem_singleton_self _, rfl, rfl, rfl⟩
    · have effect : (methodMachine codec).step _ _ _ := methodStep_of_lookup serves.looks
      rw [← whole, ← world] at effect
      exact effect
  rcases resume_cases resumed with ⟨answer, -, read, rfl⟩ | ⟨-, -, rfl⟩ | ⟨-, rfl⟩
  · exact last _ answer (getRoute_of_read read).symm rfl rfl
  · have unclosed : s.closed (s.process.advance s.process.world.store
        (s.process.lookups.set i { lookup with stage := .write })) i = [] := by
      rw [Session.closed, stage_of_moved found rfl]
    rw [unclosed]
    exact ⟨sound.resume reached looks found rfl (fun _ _ done => by cases done),
      .silent rfl (List.append_nil _)⟩
  · exact last _ _ (getRouteWrite_eq_getRoute disjoint lookup.sig) rfl rfl

/-- **One step of a session.** -/
theorem Session.Sound.step (sound : s.Sound codec) (taken : sessionStep codec s next s') :
    s'.Sound codec ∧ s.clock < s'.clock ∧
      Session.observation.Commits (methodMachine codec) s s' := by
  cases next with
  | resume i =>
      rcases taken with ⟨p', ⟨lookup, found, resumed⟩, rfl⟩
      rcases sound.resumed found resumed with ⟨after, commits⟩
      exact ⟨after, Nat.lt_succ_self _, commits⟩
  | method method =>
      cases method with
      | query query =>
          obtain rfl := taken
          exact ⟨sound.kept sound.process (fun _ _ looks => looks) rfl, Nat.lt_succ_self _,
            .ends _ rfl (Nat.le_refl _) rfl ⟨rfl, rfl⟩⟩
      | call call =>
          rcases taken with ⟨p', called, rfl⟩
          have reached : (processMachine codec).Reach Machine.anyStep p' :=
            sound.process.step (i := .call call) trivial called
          cases looks : call.lookup s.process.world with
          | some sig =>
              obtain rfl : p' = s.process.enter sig := entered_of_lookup looks called
              rw [Session.entered, looks]
              exact ⟨sound.enter reached looks, Nat.lt_succ_self _,
                .silent rfl (List.append_nil _)⟩
          | none =>
              rw [Session.entered, looks]
              refine ⟨sound.whole looks called, Nat.lt_succ_self _, ?_⟩
              exact .ends _ rfl (Nat.le_refl _) rfl ⟨rfl, (whole_of_unlooked looks called).1⟩

end Record

/-- **Every method is linearizable.** In every run of any methods from any threads, restarts
included, the calls that have ended, in some order that real time permits, are calls of the
store one at a time, with the same results and the same content; and every lookup of the
running process that has ended is one of them. -/
theorem store_linearizable {codec : TextCodec} {s : Session}
    (reached : (sessionMachine codec).Reach Machine.anyStep s) :
    Linearizable (methodMachine codec) .initial s.ended s.process.world ∧
      ∀ (i : Nat) lookup, s.process.lookups[i]? = some lookup →
        ∀ finish answer, lookup.stage = .done finish answer →
          ∃ caller op, s.callers[i]? = some caller ∧ op ∈ s.ended ∧
            op.call = .call caller.1 ∧ op.start = caller.2 ∧ op.reply = .template answer := by
  have sound : ∀ {s}, (sessionMachine codec).Reach Machine.anyStep s → s.Sound codec := by
    intro s reached
    refine reached.invariant (Session.Sound codec) ?_ ?_
    · rintro s rfl
      exact ⟨.ofStart rfl, rfl, fun i lookup found => by cases found⟩
    · exact fun _ _ _ before _ taken => (before.step taken).1
  constructor
  · show Linearizable _ _ (Session.observation.ended s) (Session.observation.content s)
    refine Observation.linearizable_of_commits ?_ ?_ reached
    · rintro s rfl
      exact ⟨rfl, rfl⟩
    · exact fun s _ s' reached taken => ((sound reached).step taken).2
  · intro i lookup found finish answer done
    rcases (sound reached).serves i lookup found with ⟨caller, called, serves⟩
    rcases serves.recorded finish answer done with ⟨op, member, same⟩
    exact ⟨caller, op, called, member, same⟩

/-- A section of a lookup takes one instant and starts no lookup. -/
theorem starts_of_resumed {p p' : Process} {i : Nat} {lookup : Lookup}
    (found : p.lookups[i]? = some lookup) (resumed : p.resume i lookup = some p') :
    p'.now = p.now + 1 ∧ p'.lookups.map Lookup.start = p.lookups.map Lookup.start := by
  have kept : ∀ stage, (p.lookups.set i { lookup with stage := stage }).map Lookup.start =
      p.lookups.map Lookup.start := by
    intro stage
    rcases List.getElem?_eq_some_iff.mp found with ⟨inside, same⟩
    have inside' : i < (p.lookups.map Lookup.start).length := by
      rw [List.length_map]
      exact inside
    have started : (p.lookups.map Lookup.start)[i] = lookup.start := by
      rw [List.getElem_map, same]
    rw [List.map_set]
    calc (p.lookups.map Lookup.start).set i lookup.start
        = (p.lookups.map Lookup.start).set i (p.lookups.map Lookup.start)[i] := by rw [started]
      _ = p.lookups.map Lookup.start := List.set_getElem_self inside'
  rcases resume_cases resumed with ⟨answer, -, -, rfl⟩ | ⟨-, -, rfl⟩ | ⟨-, rfl⟩
  · exact ⟨List.length_append, kept _⟩
  · exact ⟨List.length_append, kept _⟩
  · exact ⟨List.length_append, kept _⟩

/-- A call that neither looks up nor restarts takes one instant. -/
theorem now_of_unlooked {codec : TextCodec} {p p' : Process} {call : StoreCall}
    (looks : call.lookup p.world = none) (running : call ≠ .restart)
    (taken : processStep codec p (.call call) p') : p'.now = p.now + 1 := by
  cases call with
  | getRoute sig => cases looks
  | getRouteForHops routePlan =>
      simp only [processStep, show (pairKey routePlan).bind _ = none from looks] at taken
      subst taken
      exact List.length_append
  | restart => exact (running rfl).elim
  | _ =>
      rcases taken with ⟨w, -, rfl⟩
      exact List.length_append

/-- Every process has a session, whose times are the instants of the process from some time
on. -/
theorem exists_session {codec : TextCodec} {p : Process}
    (reached : (processMachine codec).Reach Machine.anyStep p) :
    ∃ s k, (sessionMachine codec).Reach Machine.anyStep s ∧ s.process = p ∧
      s.clock = p.now + k ∧
      s.callers.map Prod.snd = (p.lookups.map Lookup.start).map (· + k) := by
  refine reached.invariant (fun p => ∃ s k, (sessionMachine codec).Reach Machine.anyStep s ∧
    s.process = p ∧ s.clock = p.now + k ∧
      s.callers.map Prod.snd = (p.lookups.map Lookup.start).map (· + k)) ?_ ?_
  · rintro p rfl
    exact ⟨.initial, 0, .ofStart rfl, rfl, rfl, rfl⟩
  · rintro p label p' ⟨s, k, earlier, rfl, clock, starts⟩ _ taken
    cases label with
    | call call =>
        have entered : (sessionMachine codec).Reach Machine.anyStep (s.entered p' call) :=
          earlier.step (i := .method (.call call)) trivial ⟨p', taken, rfl⟩
        unfold Session.entered at entered
        cases looks : call.lookup s.process.world with
        | some sig =>
            rw [looks] at entered
            obtain rfl := entered_of_lookup looks taken
            refine ⟨_, k, entered, rfl, ?_, ?_⟩
            · show s.clock + 1 = (s.process.past ++ [s.process.world.store]).length + k
              rw [List.length_append, clock]
              exact Nat.add_right_comm _ _ _
            · show (s.callers ++ [(call, s.clock)]).map Prod.snd =
                ((s.process.lookups ++ [_]).map Lookup.start).map (· + k)
              simp only [List.map_append, starts, clock, List.map_cons, List.map_nil]
        | none =>
            rw [looks] at entered
            rcases (whole_of_unlooked looks taken).2 with ⟨rfl, gone⟩ | ⟨running, same⟩
            · obtain rfl := taken
              exact ⟨_, s.clock + 1, entered, rfl, (Nat.zero_add _).symm, rfl⟩
            · refine ⟨_, k, entered, rfl, ?_, ?_⟩
              · show s.clock + 1 = p'.now + k
                rw [now_of_unlooked looks running taken, clock]
                exact Nat.add_right_comm _ _ _
              · show (s.callersAfter call).map Prod.snd = _
                rw [Session.callersAfter_of_running running, same]
                exact starts
    | resume i =>
        rcases taken with ⟨lookup, found, resumed⟩
        rcases starts_of_resumed found resumed with ⟨now, kept⟩
        refine ⟨_, k, earlier.step (i := .resume i) trivial ⟨p', ⟨lookup, found, resumed⟩, rfl⟩,
          rfl, ?_, ?_⟩
        · show s.clock + 1 = p'.now + k
          rw [now, clock]
          exact Nat.add_right_comm _ _ _
        · rw [kept]
          exact starts

/-- Two overlapping lookups promote one cold route, and both are in the record with the
answer of the first. -/
theorem store_linearizable_raced :
    ∃ (s : Session) (first second : Lookup) (finish finish' : Nat) (t : RouteTemplate)
      (op op' : Operation Method Returned),
      s.process.lookups[0]? = some first ∧ s.process.lookups[1]? = some second ∧
      second.sig = first.sig ∧ first.start < second.start ∧ second.start < finish ∧
      first.stage = .done finish (some t) ∧ second.stage = .done finish' (some t) ∧
      op ∈ s.ended ∧ op' ∈ s.ended ∧ op.start < op'.start ∧
      op.reply = .template (some t) ∧ op'.reply = .template (some t) ∧
      Linearizable (methodMachine Base64.standard) .initial s.ended s.process.world := by
  rcases exists_raced with ⟨p, p', p'', first, second, t, raced⟩
  rcases promoted_twice raced.reached (by decide) raced.found raced.writing raced.found'
    raced.writing' raced.same raced.cold raced.promoted raced.again with ⟨-, -, ended, ended'⟩
  rcases exists_session raced.reached_again with ⟨s, k, run, rfl, -, starts⟩
  rcases store_linearizable run with ⟨sequential, recorded⟩
  rcases recorded 0 _ ended _ _ rfl with ⟨caller, op, called, member, -, start, reply⟩
  rcases recorded 1 _ ended' _ _ rfl with ⟨caller', op', called', member', -, start', reply'⟩
  have began : ∀ {i : Nat} {lookup : Lookup} {caller : StoreCall × Nat},
      s.process.lookups[i]? = some lookup → s.callers[i]? = some caller →
        caller.2 = lookup.start + k := by
    intro i lookup caller found called
    have at' := congrArg (·[i]?) starts
    simpa [found, called] using at'
  refine ⟨s, _, _, _, _, t.hit, op, op', ended, ended', raced.same, raced.before,
    Nat.lt_succ_of_lt raced.within, rfl, rfl, member, member', ?_, reply, reply', sequential⟩
  rw [start, start', began ended called, began ended' called']
  exact Nat.add_lt_add_right raced.before k

end ArbBot
