import ArbBot.Foundation.Retention
import ArbBot.StoreBound

/-!
# Threads over the store

The scan tasks call one store from many threads. Each method takes the lock for one
section, except that `get_route` may come back for the write lock and
`get_route_for_hops` reads the index in a section of its own before it calls
`get_route`. A `Process` is a world with the `get_route` calls in progress, and
`processMachine` runs their sections in any order between the other calls.

No section panics, so no call finds the lock poisoned. A flush copies the store in one
section and writes the file afterwards; only a load reads the file, and the bot loads
before it starts its tasks, so a flush is one step here.

`past` and `lives` are history variables. `reach_world` says that for the store every
run of sections is a run of whole calls.
-/

namespace ArbBot

open Foundation

/-! ## One entry a signature -/

section Store

variable {codec : TextCodec} {guard : World → StoreCall → Prop} {w w' : World} {call : StoreCall}

theorem disjoint_of_step (disjoint : w.store.segments.Disjoint)
    (taken : storeStep codec w call w') : w'.store.segments.Disjoint := by
  rw [segments_of_step taken]
  cases call with
  | insertRoute routePlan swapIxs inAmount =>
      simp only [nextSegments]
      cases found : w.store.segments.find (routeSig routePlan) with
      | some t => exact disjoint.update
      | none => exact disjoint.push (Segments.find_eq_none_iff.mp found)
  | recordRouteHit sig => exact disjoint.update
  | load =>
      simp only [nextSegments]
      cases w.disk with
      | none => exact disjoint
      | some file => exact disjoint.fillAll
  | restart => exact Segments.disjoint_new
  | getRoute sig => exact disjoint.fetch
  | getRouteForHops routePlan =>
      simp only [nextSegments]
      cases StoreCall.lookup w (.getRouteForHops routePlan) with
      | none => exact disjoint
      | some sig => exact disjoint.fetch
  | recordHops _ _ => exact disjoint
  | flush _ => exact disjoint

theorem reach_disjoint (reached : (storeMachine codec).Reach guard w) :
    w.store.segments.Disjoint := by
  refine reached.invariant (fun w => w.store.segments.Disjoint) ?_ ?_
  · intro w started
    obtain rfl := started
    exact Segments.disjoint_new
  · exact fun _ _ _ disjoint _ taken => disjoint_of_step disjoint taken

end Store

theorem getRouteWrite_eq (g : StoreInner) (sig : U128) :
    getRouteWrite g sig = ((g.segments.promote routeSegCap sig RouteTemplate.hit).1,
      g.withSegments (g.segments.promote routeSegCap sig RouteTemplate.hit).2) := by
  unfold getRouteWrite Segments.promote
  have coldEq : g.segments.cold = g.routesCold := rfl
  rw [coldEq]
  cases g.routesCold[sig]? with
  | none => rfl
  | some t =>
      simp only [pushHotRoute_eq]
      rfl

/-- The write section of a lookup is a lookup of its own. -/
theorem getRouteWrite_eq_getRoute {g : StoreInner} (disjoint : g.segments.Disjoint)
    (sig : U128) : getRouteWrite g sig = getRoute g sig := by
  rw [getRouteWrite_eq, getRoute_eq, Segments.promote_eq_fetch disjoint]

/-- The read section of a lookup that answers is a lookup of its own. -/
theorem getRoute_of_read {g : StoreInner} {sig : U128} {answer : Option RouteTemplate}
    (read : getRouteRead g sig = some answer) : getRoute g sig = (answer, g) := by
  rw [getRoute, read]

/-! ## Processes -/

/-- What a `get_route` call does next. -/
inductive LookupStage where
  | read
  | write
  | done (finish : Nat) (answer : Option RouteTemplate)

/-- A `get_route` call and the instant it started at. -/
structure Lookup where
  sig : U128
  start : Nat
  stage : LookupStage

/-- How the template of a signature entered the store, and the captures since, oldest
first. -/
structure Life where
  saved : Option RouteTemplate
  captures : List (UInt64 × SwapInstructionsResponse)

structure Process where
  world : World
  lookups : List Lookup
  past : List StoreInner
  lives : U128 → Life

/-- What a process does next: a call, or the next section of a `get_route` call in
progress. -/
inductive ProcessStep where
  | call (call : StoreCall)
  | resume (i : Nat)

/-- The life of a signature after a call. -/
def nextLife (w : World) (lives : U128 → Life) (sig : U128) : StoreCall → Life
  | .insertRoute routePlan swapIxs inAmount =>
      if sig = routeSig routePlan then
        match w.store.segments.find sig with
        | some _ =>
            { lives sig with captures := (lives sig).captures ++ [(inAmount, swapIxs)] }
        | none => { saved := none, captures := [(inAmount, swapIxs)] }
      else lives sig
  | .load =>
      match w.store.segments.find sig, w.disk with
      | none, some file => { saved := file.entries.lookup sig, captures := [] }
      | _, _ => lives sig
  | _ => lives sig

namespace Process

/-- A first process that finds no file. -/
def initial : Process where
  world := .initial
  lookups := []
  past := []
  lives _ := { saved := none, captures := [] }

/-- The instant of the present content of the store. -/
def now (p : Process) : Nat := p.past.length

/-- The content of the store at an instant of the process. -/
def instant (p : Process) (n : Nat) : Option StoreInner :=
  (p.past ++ [p.world.store])[n]?

/-- The next instant, with the given content of the store. -/
def advance (p : Process) (store : StoreInner) (lookups : List Lookup) : Process :=
  { p with
    world := { p.world with store := store }
    lookups := lookups
    past := p.past ++ [p.world.store] }

/-- A `get_route` call starts. -/
def enter (p : Process) (sig : U128) : Process :=
  p.advance p.world.store (p.lookups ++ [{ sig := sig, start := p.now, stage := .read }])

/-- The next section of a `get_route` call. -/
def resume (p : Process) (i : Nat) (lookup : Lookup) : Option Process :=
  match lookup.stage with
  | .read =>
      match getRouteRead p.world.store lookup.sig with
      | some answer =>
          some (p.advance p.world.store
            (p.lookups.set i { lookup with stage := .done (p.now + 1) answer }))
      | none => some (p.advance p.world.store (p.lookups.set i { lookup with stage := .write }))
  | .write =>
      let (answer, store) := getRouteWrite p.world.store lookup.sig
      some (p.advance store
        (p.lookups.set i { lookup with stage := .done (p.now + 1) answer }))
  | .done _ _ => none

end Process

/-- The effect of a step. -/
def processStep (codec : TextCodec) (p : Process) : ProcessStep → Process → Prop
  | .call (.getRoute sig), p' => p' = p.enter sig
  | .call (.getRouteForHops routePlan), p' =>
      p' = match (pairKey routePlan).bind (p.world.store.hopPairIndex[·]?) with
        | some sig => p.enter sig
        | none => p.advance p.world.store p.lookups
  | .call .restart, p' =>
      p' = { Process.initial with world := p.world.restart }
  | .call call, p' =>
      ∃ w, storeStep codec p.world call w ∧
        p' = {
          world := w
          lookups := p.lookups
          past := p.past ++ [p.world.store]
          lives := fun sig => nextLife p.world p.lives sig call }
  | .resume i, p' => ∃ lookup, p.lookups[i]? = some lookup ∧ p.resume i lookup = some p'

/-- Any sections, from the first process on. -/
def processMachine (codec : TextCodec) : Machine Process ProcessStep where
  start p := p = .initial
  step := processStep codec

/-! ## What a step does -/

/-- A call that is one section. -/
def StoreCall.OneSection : StoreCall → Prop
  | .getRoute _ | .getRouteForHops _ | .restart => False
  | _ => True

section Step

variable {codec : TextCodec} {p p' : Process} {label : ProcessStep} {i : Nat} {lookup : Lookup}

/-- The sections of a lookup: it answers, goes on to the write section, or promotes. -/
theorem resume_cases (resumed : p.resume i lookup = some p') :
    (∃ answer, lookup.stage = .read ∧ getRouteRead p.world.store lookup.sig = some answer ∧
      p' = p.advance p.world.store
        (p.lookups.set i { lookup with stage := .done (p.now + 1) answer })) ∨
    (lookup.stage = .read ∧ getRouteRead p.world.store lookup.sig = none ∧
      p' = p.advance p.world.store (p.lookups.set i { lookup with stage := .write })) ∨
    (lookup.stage = .write ∧
      p' = p.advance (getRouteWrite p.world.store lookup.sig).2 (p.lookups.set i
        { lookup with
          stage := .done (p.now + 1) (getRouteWrite p.world.store lookup.sig).1 })) := by
  unfold Process.resume at resumed
  split at resumed
  · rename_i reading
    cases read : getRouteRead p.world.store lookup.sig with
    | some answer =>
        rw [read] at resumed
        exact Or.inl ⟨answer, reading, rfl, (Option.some.inj resumed).symm⟩
    | none =>
        rw [read] at resumed
        exact Or.inr (Or.inl ⟨reading, rfl, (Option.some.inj resumed).symm⟩)
  · rename_i writing
    exact Or.inr (Or.inr ⟨writing, (Option.some.inj resumed).symm⟩)
  · cases resumed

/-- **The steps of a process**: it starts a lookup, does nothing, restarts, runs a call of
one section or runs the next section of a lookup. -/
theorem process_step_cases (taken : processStep codec p label p') :
    (∃ sig, p' = p.enter sig) ∨
      p' = p.advance p.world.store p.lookups ∨
      (label = .call .restart ∧ p' = { Process.initial with world := p.world.restart }) ∨
      (∃ call w, label = .call call ∧ call.OneSection ∧ storeStep codec p.world call w ∧
        p' = { world := w, lookups := p.lookups, past := p.past ++ [p.world.store],
               lives := fun sig => nextLife p.world p.lives sig call }) ∨
      ∃ i lookup, label = .resume i ∧ p.lookups[i]? = some lookup ∧
        p.resume i lookup = some p' := by
  cases label with
  | resume i =>
      rcases taken with ⟨lookup, found, resumed⟩
      exact Or.inr (Or.inr (Or.inr (Or.inr ⟨i, lookup, rfl, found, resumed⟩)))
  | call call =>
      cases call with
      | getRoute sig => exact Or.inl ⟨sig, taken⟩
      | getRouteForHops routePlan =>
          simp only [processStep] at taken
          cases found : (pairKey routePlan).bind (p.world.store.hopPairIndex[·]?) with
          | some sig =>
              rw [found] at taken
              exact Or.inl ⟨sig, taken⟩
          | none =>
              rw [found] at taken
              exact Or.inr (Or.inl taken)
      | restart => exact Or.inr (Or.inr (Or.inl ⟨rfl, taken⟩))
      | _ =>
          rcases taken with ⟨w, called, rfl⟩
          exact Or.inr (Or.inr (Or.inr (Or.inl ⟨_, w, rfl, trivial, called, rfl⟩)))

/-- **A section is a call of its own or leaves the world alone.** -/
theorem world_of_step (disjoint : p.world.store.segments.Disjoint)
    (taken : processStep codec p label p') :
    p'.world = p.world ∨ ∃ call, storeStep codec p.world call p'.world := by
  rcases process_step_cases taken with
    ⟨sig, rfl⟩ | rfl | ⟨-, rfl⟩ | ⟨call, w, -, -, called, rfl⟩ | ⟨i, lookup, -, -, resumed⟩
  · exact Or.inl rfl
  · exact Or.inl rfl
  · exact Or.inr ⟨.restart, rfl⟩
  · exact Or.inr ⟨call, called⟩
  · rcases resume_cases resumed with ⟨answer, -, -, rfl⟩ | ⟨-, -, rfl⟩ | ⟨-, rfl⟩
    · exact Or.inl rfl
    · exact Or.inl rfl
    · rw [getRouteWrite_eq_getRoute disjoint]
      exact Or.inr ⟨.getRoute lookup.sig, rfl⟩

/-- **Runs of sections are runs of calls.** Whatever the threads do, the store of the
process is one that whole calls reach. -/
theorem reach_world (reached : (processMachine codec).Reach Machine.anyStep p) :
    (storeMachine codec).Reach Machine.anyStep p.world := by
  refine reached.invariant
    (fun p => (storeMachine codec).Reach Machine.anyStep p.world) ?_ ?_
  · intro p started
    obtain rfl := started
    exact .ofStart rfl
  · intro p label p' before _ taken
    rcases world_of_step (reach_disjoint before) taken with same | ⟨call, called⟩
    · rw [same]
      exact before
    · exact before.step (i := call) trivial called

/-- **The templates after a step.** A live template is unchanged or counts one hit more,
was captured once more, was just created, or was just loaded. -/
theorem template_of_step (disjoint : p.world.store.segments.Disjoint)
    (taken : processStep codec p label p') {sig : U128} {t' : RouteTemplate}
    (found : p'.world.store.segments.find sig = some t') :
    (p'.lives sig = p.lives sig ∧ ∃ t, p.world.store.segments.find sig = some t ∧
      (t' = t ∨ t' = t.hit)) ∨
    (∃ routePlan swapIxs inAmount t,
      label = .call (.insertRoute routePlan swapIxs inAmount) ∧ sig = routeSig routePlan ∧
        p.world.store.segments.find sig = some t ∧ t' = t.seen inAmount swapIxs ∧
          p'.lives sig = { p.lives sig with
            captures := (p.lives sig).captures ++ [(inAmount, swapIxs)] }) ∨
    (∃ routePlan swapIxs inAmount,
      label = .call (.insertRoute routePlan swapIxs inAmount) ∧ sig = routeSig routePlan ∧
        p.world.store.segments.find sig = none ∧
          t' = newTemplate codec sig swapIxs inAmount (onChainFloor inAmount) ∧
            p'.lives sig = { saved := none, captures := [(inAmount, swapIxs)] }) ∨
    ∃ file, label = .call .load ∧ p.world.disk = some file ∧
      p.world.store.segments.find sig = none ∧ file.entries.lookup sig = some t' ∧
        p'.lives sig = { saved := some t', captures := [] } := by
  rcases process_step_cases taken with
    ⟨key, rfl⟩ | rfl | ⟨-, rfl⟩ | ⟨call, w, rfl, single, called, rfl⟩ |
      ⟨i, lookup, -, -, resumed⟩
  · exact Or.inl ⟨rfl, t', found, Or.inl rfl⟩
  · exact Or.inl ⟨rfl, t', found, Or.inl rfl⟩
  · have empty : p.world.restart.store.segments.find sig = none :=
      Segments.find_eq_none_iff.mpr (not_live_initial sig)
    rw [empty] at found
    cases found
  · rw [segments_of_step called] at found
    cases call with
    | insertRoute routePlan swapIxs inAmount =>
        simp only [nextSegments] at found
        simp only [nextLife]
        cases old : p.world.store.segments.find (routeSig routePlan) with
        | some t =>
            rw [old] at found
            simp only [Segments.find_update, beq_iff_eq] at found
            by_cases same : sig = routeSig routePlan
            · subst same
              rw [if_pos rfl, old, Option.map_some] at found
              refine Or.inr (Or.inl ⟨_, _, _, t, rfl, rfl, old, (Option.some.inj found).symm, ?_⟩)
              rw [if_pos rfl, old]
            · rw [if_neg (Ne.symm same)] at found
              exact Or.inl ⟨if_neg same, t', found, Or.inl rfl⟩
        | none =>
            rw [old] at found
            by_cases same : sig = routeSig routePlan
            · subst same
              simp only [Segments.find_push_self, Option.some.injEq] at found
              refine Or.inr (Or.inr (Or.inl ⟨_, _, _, rfl, rfl, old, found.symm, ?_⟩))
              rw [if_pos rfl, old]
            · exact Or.inl ⟨if_neg same, t', Segments.find_of_push same found, Or.inl rfl⟩
    | recordRouteHit key =>
        simp only [nextSegments, Segments.find_update, beq_iff_eq] at found
        split at found
        · rename_i same
          subst same
          rcases Option.map_eq_some_iff.mp found with ⟨t, before, rfl⟩
          exact Or.inl ⟨rfl, t, before, Or.inr rfl⟩
        · exact Or.inl ⟨rfl, t', found, Or.inl rfl⟩
    | load =>
        simp only [nextSegments] at found
        simp only [nextLife]
        cases disk : p.world.disk with
        | none =>
            rw [disk] at found
            exact Or.inl ⟨by cases p.world.store.segments.find sig <;> rfl, t', found, Or.inl rfl⟩
        | some file =>
            rw [disk] at found
            simp only [Segments.find_fillAll] at found
            cases old : p.world.store.segments.find sig with
            | some t =>
                rw [old] at found
                exact Or.inl ⟨rfl, t, rfl, Or.inl (Option.some.inj found).symm⟩
            | none =>
                rw [old] at found
                have saved : file.entries.lookup sig = some t' := found
                refine Or.inr (Or.inr (Or.inr ⟨file, trivial, rfl, rfl, saved, ?_⟩))
                simp only [saved]
    | recordHops _ _ => exact Or.inl ⟨rfl, t', found, Or.inl rfl⟩
    | flush _ => exact Or.inl ⟨rfl, t', found, Or.inl rfl⟩
    | getRoute _ => exact single.elim
    | getRouteForHops _ => exact single.elim
    | restart => exact single.elim
  · rcases resume_cases resumed with ⟨answer, -, -, rfl⟩ | ⟨-, -, rfl⟩ | ⟨-, rfl⟩
    · exact Or.inl ⟨rfl, t', found, Or.inl rfl⟩
    · exact Or.inl ⟨rfl, t', found, Or.inl rfl⟩
    · refine Or.inl ⟨rfl, ?_⟩
      rw [getRouteWrite_eq_getRoute disjoint, getRoute_eq] at found
      rcases Segments.find_of_fetch found with same | ⟨rfl, t, before, hit⟩
      · exact ⟨t', same, Or.inl rfl⟩
      · exact ⟨t, before, Or.inr hit⟩

theorem step_read (codec : TextCodec) {answer : Option RouteTemplate}
    (found : p.lookups[i]? = some lookup) (reading : lookup.stage = .read)
    (read : getRouteRead p.world.store lookup.sig = some answer) :
    processStep codec p (.resume i) (p.advance p.world.store
      (p.lookups.set i { lookup with stage := .done (p.now + 1) answer })) := by
  refine ⟨lookup, found, ?_⟩
  simp only [Process.resume, reading, read]

theorem exists_wait (codec : TextCodec) (found : p.lookups[i]? = some lookup)
    (reading : lookup.stage = .read) (read : getRouteRead p.world.store lookup.sig = none) :
    ∃ p', (processMachine codec).step p (.resume i) p' ∧ p'.world = p.world ∧
      p'.now = p.now + 1 ∧ p'.lookups = p.lookups.set i { lookup with stage := .write } := by
  refine ⟨p.advance p.world.store (p.lookups.set i { lookup with stage := .write }),
    ⟨lookup, found, ?_⟩, rfl, List.length_append, rfl⟩
  simp only [Process.resume, reading, read]

/-- A first process captures one route. -/
theorem exists_captured (codec : TextCodec) (routePlan : Json)
    (swapIxs : SwapInstructionsResponse) (inAmount : UInt64) :
    ∃ p, (processMachine codec).Reach Machine.anyStep p ∧ p.lookups = [] ∧
      p.world.store.routesHot[routeSig routePlan]? = some (newTemplate codec (routeSig routePlan)
        swapIxs inAmount (onChainFloor inAmount)) ∧
      p.lives (routeSig routePlan) = { saved := none, captures := [(inAmount, swapIxs)] } := by
  have absent : World.initial.store.segments.find (routeSig routePlan) = none :=
    Segments.find_eq_none_iff.mpr (not_live_initial _)
  have captured : storeStep codec World.initial (.insertRoute routePlan swapIxs inAmount) _ := rfl
  have segments := segments_of_step captured
  simp only [nextSegments, absent] at segments
  refine ⟨_, (Machine.Reach.ofStart rfl).step (i := .call (.insertRoute routePlan swapIxs inAmount))
    trivial ⟨_, captured, rfl⟩, rfl, ?_, ?_⟩
  · have hot :=
      congrArg (fun m : Segments U128 RouteTemplate => m.hot[routeSig routePlan]?) segments
    exact hot.trans Segments.getElem?_hot_push
  · show nextLife World.initial Process.initial.lives (routeSig routePlan)
      (.insertRoute routePlan swapIxs inAmount) = _
    simp only [nextLife, absent, if_true]

/-- A first process captures one route and looks it up. -/
theorem exists_found (codec : TextCodec) (routePlan : Json) (swapIxs : SwapInstructionsResponse)
    (inAmount : UInt64) :
    ∃ p p' lookup finish t, (processMachine codec).Reach Machine.anyStep p ∧
      lookup.sig = routeSig routePlan ∧ p.lookups[0]? = some lookup ∧
      processStep codec p (.resume 0) p' ∧
      p'.lookups[0]? = some { lookup with stage := .done finish (some t) } := by
  rcases exists_captured codec routePlan swapIxs inAmount with ⟨p, reached, noLookups, hot, -⟩
  have waiting : (p.enter (routeSig routePlan)).lookups[0]? =
      some { sig := routeSig routePlan, start := p.now, stage := .read } := by
    rw [Process.enter, Process.advance, noLookups]
    rfl
  have read : getRouteRead (p.enter (routeSig routePlan)).world.store (routeSig routePlan) =
      some (some (newTemplate codec (routeSig routePlan) swapIxs inAmount
        (onChainFloor inAmount))) := by
    show getRouteRead p.world.store (routeSig routePlan) = _
    rw [getRouteRead, hot]
  refine ⟨p.enter (routeSig routePlan), _, _, (p.enter (routeSig routePlan)).now + 1,
    newTemplate codec (routeSig routePlan) swapIxs inAmount (onChainFloor inAmount),
    reached.step (i := .call (.getRoute (routeSig routePlan))) trivial rfl, rfl, waiting,
    step_read codec waiting rfl read, ?_⟩
  exact List.getElem?_set_self (List.getElem?_eq_some_iff.mp waiting).1

end Step

/-! ## Runs with a cold route -/

section Cold

variable {codec : TextCodec} {p : Process} {swapIxs : SwapInstructionsResponse} {inAmount : UInt64}

theorem exists_insertAll (plans : List Json)
    (reached : (processMachine codec).Reach Machine.anyStep p) :
    ∃ p', (processMachine codec).Reach Machine.anyStep p' ∧ p'.lookups = p.lookups ∧
      p'.world = p.world.insertAll codec swapIxs inAmount plans := by
  induction plans generalizing p with
  | nil => exact ⟨p, reached, rfl, rfl⟩
  | cons routePlan rest ih =>
      have next : ∃ p₁, (processMachine codec).step p
          (.call (.insertRoute routePlan swapIxs inAmount)) p₁ ∧ p₁.lookups = p.lookups ∧
            p₁.world = p.world.insertRoute codec routePlan swapIxs inAmount :=
        ⟨_, ⟨_, rfl, rfl⟩, rfl, rfl⟩
      rcases next with ⟨p₁, taken, unlooked, captured⟩
      rcases ih (reached.step trivial taken) with ⟨p', reached', unlooked', world⟩
      refine ⟨p', reached', unlooked'.trans unlooked, ?_⟩
      rw [world, captured]
      rfl

/-- A process with a full cold segment and one hot route. -/
theorem exists_refill (count : Nat) :
    ∃ p, (processMachine Base64.standard).Reach Machine.anyStep p ∧ p.lookups = [] ∧
      p.world = World.initial.refill 0 count := by
  have started : (processMachine Base64.standard).Reach Machine.anyStep .initial := .ofStart rfl
  rcases exists_insertAll (poolPlans 0 count) started with ⟨p, reached, unlooked, filled⟩
  rcases exists_insertAll [poolPlan (0 + count)] reached with ⟨p', reached', unlooked', world⟩
  rw [filled] at world
  exact ⟨p', reached', unlooked'.trans unlooked, world⟩

theorem exists_cold {count : Nat} (full : count = routeSegCap) (short : count < 4000)
    (some' : 0 < count) :
    ∃ (p : Process) (sig : U128) (t : RouteTemplate),
      (processMachine Base64.standard).Reach Machine.anyStep p ∧ p.lookups = [] ∧
      p.world.store.routesCold[sig]? = some t := by
  rcases exists_refill count with ⟨p, reached, unlooked, world⟩
  have layout := layout_overfull full short
  rw [← world] at layout
  have cold : routeSig (poolPlan 0) ∈ p.world.store.routesCold := by
    rw [layout.mem_cold, List.append_nil, List.mem_reverse]
    exact mem_poolPlans.mpr ⟨0, Nat.le_refl 0, by omega, rfl⟩
  exact ⟨p, _, _, reached, unlooked, Std.HashMap.getElem?_eq_some_getElem cold⟩

/-- Two threads look one cold route up, and both are between their sections. -/
theorem exists_between :
    ∃ (p : Process) (sig : U128) (start : Nat) (t : RouteTemplate),
      (processMachine Base64.standard).Reach Machine.anyStep p ∧
      p.lookups = [{ sig := sig, start := start, stage := .write },
        { sig := sig, start := start + 1, stage := .write }] ∧
      start + 1 < p.now ∧ p.world.store.routesCold[sig]? = some t := by
  rcases exists_cold rfl (by decide) routeSegCap_pos with ⟨p, sig, t, reached, unlooked, cold⟩
  have absent : p.world.store.routesHot[sig]? = none := by
    refine Std.HashMap.getElem?_eq_none fun hot => ?_
    exact reach_disjoint (reach_world reached) sig hot (Segments.mem_of_getElem? cold)
  have read : getRouteRead p.world.store sig = none := by
    rw [getRouteRead, absent]
    exact if_pos (Segments.mem_of_getElem? cold)
  have enters : ∀ p : Process,
      (processMachine Base64.standard).step p (.call (.getRoute sig)) (p.enter sig) := fun _ => rfl
  have entered := (reached.step trivial (enters p)).step trivial (enters _)
  have started : ((p.enter sig).enter sig).lookups =
      [{ sig := sig, start := p.now, stage := .read },
        { sig := sig, start := p.now + 1, stage := .read }] := by
    simp [Process.enter, Process.advance, Process.now, unlooked]
  have begun : ((p.enter sig).enter sig).now = p.now + 2 := by
    simp [Process.enter, Process.advance, Process.now]
  rcases exists_wait Base64.standard (congrArg (·[0]?) started) rfl read with
    ⟨p₁, first, world, now, waiting⟩
  rw [started] at waiting
  rcases exists_wait Base64.standard (congrArg (·[1]?) waiting) rfl (by rw [world]; exact read)
    with ⟨p₂, second, world', now', waiting'⟩
  rw [waiting] at waiting'
  refine ⟨p₂, sig, p.now, t, (entered.step trivial first).step trivial second, waiting', ?_, ?_⟩
  · omega
  · rw [world', world]
    exact cold

end Cold

end ArbBot
