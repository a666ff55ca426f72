import ArbBot.FillRuns
import ArbBot.TierTwo.Soundness

/-!
# When Tier 2 finds a live route

The hop-pair index is filled first-wins and never pruned, so an entry can outlive its
route and hide a later route for the same pair. `KeepsPairs` names the calls that do not
bring this about: no rotation drops the indexed route of a pair another route of which
stays, and no route is created or loaded for a pair whose indexed route is dead.
`pairServed_iff` shows that these are the exact conditions.
-/

namespace ArbBot

open Foundation

/-- Every live route that was created from a plan of an indexable pair is found by
Tier 2, for every plan of that pair. -/
def PairServed (w : World) : Prop :=
  ∀ sig routePlan key, w.Live sig → w.creator sig = some routePlan →
    pairKey routePlan = some key → ∀ routePlan', pairKey routePlan' = some key →
      (getRouteForHops w.store routePlan').1.isSome

/-- The entry of the pair points at a live route. -/
def LiveEntry (w : World) (key : String) : Prop :=
  ∃ sig, w.store.hopPairIndex[key]? = some sig ∧ w.Live sig

theorem pairServed_iff_liveEntry {w : World} :
    PairServed w ↔ ∀ sig routePlan key, w.Live sig → w.creator sig = some routePlan →
      pairKey routePlan = some key → LiveEntry w key := by
  constructor
  · intro served sig routePlan key live created pair
    have found := served sig routePlan key live created pair routePlan pair
    rcases (isSome_getRouteForHops w.store routePlan).mp found with
      ⟨key', sig', pair', entry, live'⟩
    obtain rfl := Option.some.inj (pair.symm.trans pair')
    exact ⟨sig', entry, live'⟩
  · intro entries sig routePlan key live created pair routePlan' pair'
    rcases entries sig routePlan key live created pair with ⟨sig', entry, live'⟩
    exact (isSome_getRouteForHops w.store routePlan').mpr ⟨key, sig', pair', entry, live'⟩

/-! ## The condition -/

/-- The route stays live when the signature is pushed to the hot segment. -/
def World.Stays (w : World) (pushed sig : U128) : Prop :=
  sig = pushed ∨ w.store.segments.Survives routeSegCap sig

/-- Pushing the signature drops the indexed route of a pair another live route of which
stays. -/
def Strands (w : World) (pushed : U128) : Prop :=
  ∃ sig routePlan key indexed, w.Live sig ∧ w.Stays pushed sig ∧
    w.creator sig = some routePlan ∧ pairKey routePlan = some key ∧
      w.store.hopPairIndex[key]? = some indexed ∧ ¬ w.Stays pushed indexed

/-- The calls that hide no live route from Tier 2. -/
def KeepsPairs (w : World) : StoreCall → Prop
  | .insertRoute routePlan _ _ =>
      w.Live (routeSig routePlan) ∨
        ¬ Strands w (routeSig routePlan) ∧
          ∀ key indexed, pairKey routePlan = some key →
            w.store.hopPairIndex[key]? = some indexed → w.Stays (routeSig routePlan) indexed
  | .load =>
      ∀ file, w.disk = some file → ∀ sig tmpl, (sig, tmpl) ∈ file.entries → ¬ w.Live sig →
        ∀ routePlan key indexed, w.savedCreator sig = some routePlan →
          pairKey routePlan = some key → nextEntry w key .load = some indexed →
            w.Live indexed ∨ indexed ∈ file.entries.map Prod.fst
  | call =>
      ∀ sig, call.lookup w = some sig → sig ∈ w.store.routesCold → sig ∉ w.store.routesHot →
        ¬ Strands w sig

/-! ## Indexed pairs -/

/-- The pair of every route with a known creator is indexed, live or saved. -/
structure Indexed (w : World) : Prop where
  keyed : w.store.segments.All fun sig t => t.routeSignature = sig
  live : ∀ sig routePlan key, w.Live sig → w.creator sig = some routePlan →
    pairKey routePlan = some key → ∃ indexed, w.store.hopPairIndex[key]? = some indexed
  saved : ∀ file, w.disk = some file → ∀ sig tmpl, (sig, tmpl) ∈ file.entries →
    ∀ routePlan key, w.savedCreator sig = some routePlan → pairKey routePlan = some key →
      ∃ indexed, file.pairSig key = some indexed

section Step

variable {codec : TextCodec} {w w' : World} {call : StoreCall}

theorem nextEntry_of_indexed {key : String} {indexed : U128}
    (entry : w.store.hopPairIndex[key]? = some indexed) (running : call ≠ .restart) :
    nextEntry w key call = some indexed := by
  cases call with
  | insertRoute routePlan swapIxs inAmount => simp only [nextEntry, entry]
  | load => simp only [nextEntry, entry]
  | restart => exact (running rfl).elim
  | _ => exact entry

theorem not_live_restart (taken : storeStep codec w .restart w') (sig : U128) :
    ¬ w'.Live sig := by
  obtain rfl := taken
  exact not_live_initial sig

theorem nextEntry_insertRoute {routePlan : Json} {swapIxs : SwapInstructionsResponse}
    {inAmount : UInt64} {key : String} (fresh : ¬ w.Live (routeSig routePlan))
    (pair : pairKey routePlan = some key) (unindexed : w.store.hopPairIndex[key]? = none) :
    nextEntry w key (.insertRoute routePlan swapIxs inAmount) = some (routeSig routePlan) := by
  simp only [nextEntry, unindexed, Segments.find_eq_none_iff.mpr fresh, pair, if_true]

theorem Indexed.step (before : Indexed w) (taken : storeStep codec w call w') : Indexed w' where
  keyed := keyed_of_step before.keyed taken
  live sig routePlan key live created pair := by
    have running : call ≠ .restart := by
      intro same
      subst same
      exact not_live_restart taken sig live
    have index := hopPairIndex_of_step taken key
    rw [index]
    cases entry : w.store.hopPairIndex[key]? with
    | some indexed => exact ⟨indexed, nextEntry_of_indexed entry running⟩
    | none =>
        rcases origin_of_step taken live with
          ⟨old, same⟩ | ⟨plan, swapIxs, inAmount, rfl, rfl, fresh, new⟩ |
            ⟨file, tmpl, rfl, disk, member, -, loaded⟩
        · rw [same] at created
          rcases before.live sig routePlan key old created pair with ⟨indexed, indexedBefore⟩
          rw [entry] at indexedBefore
          cases indexedBefore
        · obtain rfl := Option.some.inj (new.symm.trans created)
          exact ⟨_, nextEntry_insertRoute fresh pair entry⟩
        · rw [loaded] at created
          rcases before.saved file disk sig tmpl member routePlan key created pair with
            ⟨indexed, saved⟩
          refine ⟨indexed, ?_⟩
          simp only [nextEntry, entry, disk, Option.bind_some, saved]
  saved file' disk' sig tmpl member routePlan key created pair := by
    rcases disk_of_step taken with ⟨file, -, snapshot, disk, creators⟩ | ⟨disk, creators⟩
    · rw [disk] at disk'
      obtain rfl := Option.some.inj disk'
      rcases snapshot.mem_entries.mp member with ⟨stored, t, holds, rfl, -⟩
      rw [creators, before.keyed stored t holds] at created
      rw [snapshot.pairSig]
      exact before.live stored routePlan key holds.live created pair
    · rw [creators] at created
      exact before.saved file' (disk ▸ disk') sig tmpl member routePlan key created pair

/-! ## One call -/

/-- Where the live routes, their creators and the entries stay, so do the pairs. -/
theorem PairServed.of_kept (before : PairServed w)
    (live : ∀ sig, w'.Live sig → w.Live sig) (alive : ∀ sig, w.Live sig → w'.Live sig)
    (creators : ∀ sig, w.Live sig → w'.creator sig = w.creator sig)
    (entries : ∀ key : String, w'.store.hopPairIndex[key]? = w.store.hopPairIndex[key]?) :
    PairServed w' := by
  rw [pairServed_iff_liveEntry]
  intro sig routePlan key live' created pair
  rw [creators sig (live sig live')] at created
  rcases pairServed_iff_liveEntry.mp before sig routePlan key (live sig live') created pair with
    ⟨indexed, entry, indexedLive⟩
  exact ⟨indexed, (entries key).trans entry, alive indexed indexedLive⟩

/-- A push keeps the pairs of the old routes served just when it strands none. -/
theorem liveEntry_push_iff {pushed : U128} (before : PairServed w)
    (live : ∀ sig, w'.Live sig ↔ w.Stays pushed sig)
    (creators : ∀ sig, w.Live sig → w'.creator sig = w.creator sig)
    (entries : ∀ (key : String) indexed, w.store.hopPairIndex[key]? = some indexed →
      w'.store.hopPairIndex[key]? = some indexed) :
    (∀ sig routePlan key, w.Live sig → w'.Live sig → w'.creator sig = some routePlan →
        pairKey routePlan = some key → LiveEntry w' key) ↔ ¬ Strands w pushed := by
  constructor
  · intro served stranded
    rcases stranded with ⟨sig, routePlan, key, indexed, old, stays, created, pair, entry, dropped⟩
    rcases served sig routePlan key old ((live sig).mpr stays)
      ((creators sig old).trans created) pair with ⟨indexed', entry', live'⟩
    obtain rfl := Option.some.inj ((entries key indexed entry).symm.trans entry')
    exact dropped ((live indexed).mp live')
  · intro kept sig routePlan key old stays created pair
    rw [creators sig old] at created
    rcases pairServed_iff_liveEntry.mp before sig routePlan key old created pair with
      ⟨indexed, entry, -⟩
    refine ⟨indexed, entries key indexed entry, ?_⟩
    by_contra dropped
    exact kept ⟨sig, routePlan, key, indexed, old, (live sig).mp stays, created, pair, entry,
      fun stays' => dropped ((live indexed).mpr stays')⟩

/-- A lookup keeps every pair served just when its promotion strands none. -/
theorem pairServed_fetch_iff {looked : U128} (before : PairServed w)
    (segments : w'.store.segments =
      (w.store.segments.fetch routeSegCap looked RouteTemplate.hit).2)
    (creators : ∀ sig, w'.creator sig = w.creator sig)
    (entries : ∀ key : String, w'.store.hopPairIndex[key]? = w.store.hopPairIndex[key]?) :
    PairServed w' ↔ (looked ∈ w.store.routesCold → looked ∉ w.store.routesHot →
      ¬ Strands w looked) := by
  have live : ∀ sig, w'.Live sig ↔
      if looked ∈ w.store.routesCold ∧ looked ∉ w.store.routesHot then w.Stays looked sig
      else w.Live sig := by
    intro sig
    rw [World.Live, segments]
    exact Segments.live_fetch
  by_cases promoted : looked ∈ w.store.routesCold ∧ looked ∉ w.store.routesHot
  · simp only [if_pos promoted] at live
    have pushes := liveEntry_push_iff before live (fun sig _ => creators sig)
      (fun key indexed entry => (entries key).trans entry)
    simp only [promoted.1, promoted.2, not_false_eq_true, forall_const]
    rw [pairServed_iff_liveEntry, ← pushes]
    constructor
    · intro served sig routePlan key _ live' created pair
      exact served sig routePlan key live' created pair
    · intro served sig routePlan key live' created pair
      refine served sig routePlan key ?_ live' created pair
      rcases (live sig).mp live' with rfl | survives
      · exact Or.inr promoted.1
      · exact survives.live
  · simp only [if_neg promoted] at live
    refine iff_of_true (before.of_kept (fun sig => (live sig).mp) (fun sig => (live sig).mpr)
      (fun sig _ => creators sig) entries) fun inCold notHot => ?_
    exact (promoted ⟨inCold, notHot⟩).elim

theorem pairServed_insertRoute_iff {routePlan : Json} {swapIxs : SwapInstructionsResponse}
    {inAmount : UInt64} (before : PairServed w) :
    PairServed (w.insertRoute codec routePlan swapIxs inAmount) ↔
      KeepsPairs w (.insertRoute routePlan swapIxs inAmount) := by
  have taken : storeStep codec w (.insertRoute routePlan swapIxs inAmount)
      (w.insertRoute codec routePlan swapIxs inAmount) := rfl
  generalize w.insertRoute codec routePlan swapIxs inAmount = w' at taken ⊢
  have segments := segments_of_step taken
  have index := hopPairIndex_of_step taken
  have creator := creator_of_step taken
  simp only [nextSegments, nextEntry, nextCreator] at segments index creator
  by_cases known : w.Live (routeSig routePlan)
  · rcases Segments.find_eq_some_of_live known with ⟨t, found⟩
    simp only [found] at segments index creator
    have live : ∀ sig, w'.Live sig ↔ w.Live sig := by
      intro sig
      rw [World.Live, segments]
      exact Segments.live_update
    refine iff_of_true (before.of_kept (fun sig => (live sig).mp) (fun sig => (live sig).mpr)
      (fun sig _ => creator sig) ?_) (Or.inl known)
    intro key
    rw [index key]
    cases w.store.hopPairIndex[key]? <;> rfl
  · have found := Segments.find_eq_none_iff.mpr known
    simp only [found] at segments creator
    have live : ∀ sig, w'.Live sig ↔ w.Stays (routeSig routePlan) sig := by
      intro sig
      rw [World.Live, segments]
      exact Segments.live_push
    have creators : ∀ sig, w.Live sig → w'.creator sig = w.creator sig := by
      intro sig old
      rw [creator sig, if_neg]
      intro same
      exact known (same ▸ old)
    have entries : ∀ (key : String) indexed, w.store.hopPairIndex[key]? = some indexed →
        w'.store.hopPairIndex[key]? = some indexed := by
      intro key indexed entry
      rw [index key, entry]
    have pushes := liveEntry_push_iff before live creators entries
    have created : w'.creator (routeSig routePlan) = some routePlan := by
      rw [creator, if_pos rfl]
    have pushed : w'.Live (routeSig routePlan) := (live _).mpr (Or.inl rfl)
    simp only [KeepsPairs, known, false_or]
    rw [pairServed_iff_liveEntry, ← pushes]
    constructor
    · intro served
      refine ⟨fun sig plan key _ live' => served sig plan key live', ?_⟩
      intro key indexed pair entry
      rcases served _ routePlan key pushed created pair with ⟨indexed', entry', live'⟩
      obtain rfl := Option.some.inj ((entries key indexed entry).symm.trans entry')
      exact (live indexed).mp live'
    · intro kept sig plan key live' created' pair
      rcases (live sig).mp live' with rfl | survives
      · obtain rfl := Option.some.inj (created.symm.trans created')
        cases entry : w.store.hopPairIndex[key]? with
        | some indexed =>
            exact ⟨indexed, entries key indexed entry,
              (live indexed).mpr (kept.2 key indexed pair entry)⟩
        | none =>
            refine ⟨routeSig routePlan, ?_, pushed⟩
            rw [index key, entry, found]
            exact if_pos pair
      · exact kept.1 sig plan key survives.live live' created' pair

theorem pairServed_load_iff (indexed : Indexed w) (before : PairServed w) :
    PairServed w.load ↔ KeepsPairs w .load := by
  have taken : storeStep Base64.standard w .load w.load := rfl
  cases disk : w.disk with
  | none =>
      have same : w.load = w := by rw [World.load, disk]
      rw [same]
      apply iff_of_true before
      intro file disk'
      rw [disk] at disk'
      cases disk'
  | some file =>
      generalize w.load = w' at taken ⊢
      have live : ∀ sig, w'.Live sig ↔ w.Live sig ∨ sig ∈ file.entries.map Prod.fst := by
        intro sig
        rw [World.Live, segments_of_step taken]
        simp only [nextSegments, disk]
        exact Segments.live_fillAll
      have index := hopPairIndex_of_step taken
      have creator := creator_of_step taken
      have entries : ∀ (key : String) indexed, w.store.hopPairIndex[key]? = some indexed →
          w'.store.hopPairIndex[key]? = some indexed := by
        intro key indexed entry
        rw [index key]
        exact nextEntry_of_indexed entry (by simp)
      have loadedCreator : ∀ sig, ¬ w.Live sig → w'.creator sig = w.savedCreator sig := by
        intro sig fresh
        rw [creator sig]
        simp only [nextCreator, disk, Segments.find_eq_none_iff.mpr fresh]
      have oldCreator : ∀ sig, w.Live sig → w'.creator sig = w.creator sig := by
        intro sig old
        rcases Segments.find_eq_some_of_live old with ⟨t, found⟩
        rw [creator sig]
        simp only [nextCreator, disk, found]
      simp only [KeepsPairs, disk, Option.some.injEq, forall_eq']
      rw [pairServed_iff_liveEntry]
      constructor
      · intro served sig tmpl member fresh routePlan key target created pair entry
        have loaded : w'.Live sig :=
          (live sig).mpr (Or.inr (List.mem_map.mpr ⟨_, member, rfl⟩))
        rcases served sig routePlan key loaded ((loadedCreator sig fresh).trans created) pair with
          ⟨target', entry', live'⟩
        rw [index key] at entry'
        obtain rfl := Option.some.inj (entry.symm.trans entry')
        exact (live target).mp live'
      · intro kept sig routePlan key live' created pair
        by_cases old : w.Live sig
        · rw [oldCreator sig old] at created
          rcases pairServed_iff_liveEntry.mp before sig routePlan key old created pair with
            ⟨target, entry, targetLive⟩
          exact ⟨target, entries key target entry, (live target).mpr (Or.inl targetLive)⟩
        · rw [loadedCreator sig old] at created
          rcases (live sig).mp live' with old' | loaded
          · exact (old old').elim
          · rcases List.mem_map.mp loaded with ⟨⟨sig', tmpl⟩, member, rfl⟩
            have known : ∃ target, nextEntry w key .load = some target := by
              cases present : w.store.hopPairIndex[key]? with
              | some target => exact ⟨target, nextEntry_of_indexed present (by simp)⟩
              | none =>
                  rcases indexed.saved file disk sig' tmpl member routePlan key created pair
                    with ⟨target, saved⟩
                  exact ⟨target, by simp only [nextEntry, present, disk, Option.bind_some, saved]⟩
            rcases known with ⟨target, next⟩
            exact ⟨target, (index key).trans next, (live target).mpr
              (kept sig' tmpl member old routePlan key target created pair next)⟩

/-- A call keeps every pair served just when it meets the condition. -/
theorem pairServed_step_iff (indexed : Indexed w) (before : PairServed w)
    (taken : storeStep codec w call w') : PairServed w' ↔ KeepsPairs w call := by
  have segments := segments_of_step taken
  have index := hopPairIndex_of_step taken
  have creators := creator_of_step taken
  cases call with
  | insertRoute routePlan swapIxs inAmount =>
      obtain rfl := taken
      exact pairServed_insertRoute_iff before
  | load =>
      obtain rfl := taken
      exact pairServed_load_iff indexed before
  | getRoute sig =>
      rw [pairServed_fetch_iff before segments creators index]
      simp [KeepsPairs, StoreCall.lookup]
  | getRouteForHops routePlan =>
      simp only [nextSegments] at segments
      simp only [KeepsPairs]
      cases looked : StoreCall.lookup w (.getRouteForHops routePlan) with
      | none =>
          rw [looked] at segments
          have same : ∀ sig, w'.Live sig ↔ w.Live sig := fun sig => by
            rw [World.Live, segments, World.Live]
          refine iff_of_true (before.of_kept (fun sig => (same sig).mp)
            (fun sig => (same sig).mpr) (fun sig _ => creators sig) index) ?_
          intro sig found
          cases found
      | some sig =>
          rw [looked] at segments
          rw [pairServed_fetch_iff before segments creators index]
          simp
  | restart =>
      refine iff_of_true ?_ ?_
      · intro sig _ _ live
        exact (not_live_restart taken sig live).elim
      · intro sig looked
        cases looked
  | recordRouteHit sig =>
      have same : ∀ sig, w'.Live sig ↔ w.Live sig := fun sig => by
        rw [World.Live, segments]
        exact Segments.live_update
      refine iff_of_true (before.of_kept (fun sig => (same sig).mp)
        (fun sig => (same sig).mpr) (fun sig _ => creators sig) index) ?_
      intro sig looked
      cases looked
  | recordHops routePlan contextSlot =>
      have same : ∀ sig, w'.Live sig ↔ w.Live sig := fun sig => by
        rw [World.Live, segments]
        exact Iff.rfl
      refine iff_of_true (before.of_kept (fun sig => (same sig).mp)
        (fun sig => (same sig).mpr) (fun sig _ => creators sig) index) ?_
      intro sig looked
      cases looked
  | flush file =>
      have same : ∀ sig, w'.Live sig ↔ w.Live sig := fun sig => by
        rw [World.Live, segments]
        exact Iff.rfl
      refine iff_of_true (before.of_kept (fun sig => (same sig).mp)
        (fun sig => (same sig).mpr) (fun sig _ => creators sig) index) ?_
      intro sig looked
      cases looked

end Step

/-! ## Runs -/

theorem indexed_initial : Indexed World.initial where
  keyed := all_initial _
  live sig _ _ live := (not_live_initial sig live).elim
  saved file disk := by cases disk

theorem pairServed_initial : PairServed World.initial := by
  intro sig _ _ live
  exact (not_live_initial sig live).elim

/-- **When Tier 2 is complete.** In a run from the first process on, Tier 2 finds every
live route of an indexable pair in every world just when every call meets
`KeepsPairs`. -/
theorem pairServed_iff {codec : TextCodec} {w : World} {steps : List (Machine.Entry _ _)}
    (trace : (storeMachine codec).Trace World.initial steps w) :
    (∀ entry ∈ steps, PairServed entry.after) ↔
      ∀ entry ∈ steps, KeepsPairs entry.before entry.label :=
  Machine.Trace.all_iff Indexed PairServed (fun _ _ _ indexed taken => indexed.step taken)
    (fun _ _ _ indexed before taken => pairServed_step_iff indexed before taken) trace
    indexed_initial pairServed_initial

theorem layout_raydiumWorld : Layout raydiumWorld [routeSig (circularPlan "Raydium")] [] :=
  layout_initial.insert_room (by simp) (by decide)

/-- In a run of one capture, the plan labelled Meteora is served from the one labelled
Raydium. -/
theorem pairServed_raydiumWorld :
    (getRouteForHops raydiumWorld.store (circularPlan "Meteora")).1.isSome := by
  have trace : (storeMachine Base64.standard).Trace World.initial
      ([] ++ [⟨World.initial, .insertRoute (circularPlan "Raydium") _ 5, raydiumWorld⟩])
      raydiumWorld := (Machine.Trace.nil _).snoc rfl
  have keeps : KeepsPairs World.initial (.insertRoute (circularPlan "Raydium")
      (bareService.respond Base64.standard () 5 (onChainFloor 5)) 5) := by
    right
    refine ⟨?_, ?_⟩
    · intro given
      rcases given with ⟨sig, -, -, -, live, -⟩
      exact not_live_initial sig live
    · intro key indexed _ entry
      simp [World.initial, StoreInner.new] at entry
  have served : PairServed raydiumWorld := by
    refine (pairServed_iff trace).mpr ?_ _ (List.mem_singleton_self _)
    intro entry member
    rcases List.mem_singleton.mp member with rfl
    exact keeps
  have live := layout_raydiumWorld.live_iff.mpr (Or.inl (List.mem_singleton_self _))
  exact served _ _ _ live raydiumWorld_creator pairKey_raydium _ pairKey_meteora

/-! ## A hidden route -/

set_option maxRecDepth 20000 in
/-- The states in which the first pass over the two labelled plans ends. -/
theorem fnv1a64_raydium : fnv1a64 (circularPlan "Raydium") 0xcbf29ce484222325 =
    231348985398626984 := by decide

set_option maxRecDepth 20000 in
theorem fnv1a64_meteora : fnv1a64 (circularPlan "Meteora") 0xcbf29ce484222325 =
    12389729762334522506 := by decide

set_option maxRecDepth 20000 in
theorem routeSig_poolPlan_ne_raydium {n : Nat} (short : n ≤ 4000) :
    routeSig (poolPlan n) ≠ routeSig (circularPlan "Raydium") :=
  routeSig_poolPlan_ne fnv1a64_raydium (by decide) (by decide) short

set_option maxRecDepth 20000 in
theorem routeSig_poolPlan_ne_meteora {n : Nat} (short : n ≤ 4000) :
    routeSig (poolPlan n) ≠ routeSig (circularPlan "Meteora") :=
  routeSig_poolPlan_ne fnv1a64_meteora (by decide) (by decide) short

/-- The world after two rotations, of which the second drops the plan labelled
Raydium. -/
def rotatedWorld (count : Nat) : World :=
  (raydiumWorld.refill 0 count).refill (count + 1) count

section Rotated

variable {count : Nat}

/-- The first rotation leaves the plan labelled Raydium cold. -/
theorem layout_refilledWorld (full : count + 1 = routeSegCap) (short : count < 2000) :
    Layout (raydiumWorld.refill 0 count) [routeSig (poolPlan (0 + count))]
      (((poolPlans 0 count).map routeSig).reverse ++ [routeSig (circularPlan "Raydium")]) := by
  refine layout_raydiumWorld.refill (by omega) ?_ ?_
  · rw [List.length_singleton, Nat.add_comm, full]
  · intro n _ last held
    rcases held with inHot | inCold
    · exact routeSig_poolPlan_ne_raydium (by omega) (List.mem_singleton.mp inHot)
    · cases inCold

theorem layout_rotatedWorld (full : count + 1 = routeSegCap) (short : count < 2000) :
    Layout (rotatedWorld count) [routeSig (poolPlan (count + 1 + count))]
      (((poolPlans (count + 1) count).map routeSig).reverse ++
        [routeSig (poolPlan (0 + count))]) := by
  refine (layout_refilledWorld full short).refill (by omega) ?_ ?_
  · rw [List.length_singleton, Nat.add_comm, full]
  · intro n after last held
    rcases held with inHot | inCold
    · have equal := routeSig_poolPlan_inj (by omega) (by omega) (List.mem_singleton.mp inHot)
      omega
    · rcases List.mem_append.mp inCold with inPlans | same
      · rcases mem_poolPlans.mp (List.mem_reverse.mp inPlans) with ⟨m, -, before, same⟩
        have equal := routeSig_poolPlan_inj (by omega) (by omega) same
        omega
      · exact routeSig_poolPlan_ne_raydium (by omega) (List.mem_singleton.mp same)

/-- A plan that is no pool plan is not live after the rotations. -/
theorem not_live_rotatedWorld (full : count + 1 = routeSegCap) (short : count < 2000)
    {routePlan : Json}
    (other : ∀ n ≤ 4000, routeSig (poolPlan n) ≠ routeSig routePlan) :
    ¬ (rotatedWorld count).Live (routeSig routePlan) := by
  rw [(layout_rotatedWorld full short).live_iff]
  intro held
  rcases held with inHot | inCold
  · exact other _ (by omega) (List.mem_singleton.mp inHot).symm
  · rcases List.mem_append.mp inCold with inPlans | same
    · rcases mem_poolPlans.mp (List.mem_reverse.mp inPlans) with ⟨n, -, before, same⟩
      exact other n (by omega) same
    · exact other _ (by omega) (List.mem_singleton.mp same).symm

theorem hopPairIndex_rotatedWorld :
    (rotatedWorld count).store.hopPairIndex["Alpha:Wsol:Token:none:0|Beta:Token:Wsol:none:0"]? =
      some (routeSig (circularPlan "Raydium")) := by
  have taken : storeStep Base64.standard World.initial (.insertRoute (circularPlan "Raydium")
      (bareService.respond Base64.standard () 5 (onChainFloor 5)) 5) raydiumWorld := rfl
  rw [rotatedWorld, hopPairIndex_refill, hopPairIndex_refill, hopPairIndex_of_step taken]
  apply nextEntry_insertRoute (not_live_initial _) pairKey_raydium
  simp [World.initial, StoreInner.new]

theorem pair_hidden_of_full (full : count + 1 = routeSegCap) (short : count < 2000) :
    let w := (rotatedWorld count).capture [circularPlan "Meteora"]
    (storeMachine Base64.standard).Reach Machine.anyStep w ∧
      w.Live (routeSig (circularPlan "Meteora")) ∧
      w.creator (routeSig (circularPlan "Meteora")) = some (circularPlan "Meteora") ∧
      (pairKey (circularPlan "Meteora")).isSome ∧
      ¬ (getRouteForHops w.store (circularPlan "Meteora")).1.isSome := by
  have fresh := not_live_rotatedWorld full short fun n => routeSig_poolPlan_ne_meteora
  have dropped := not_live_rotatedWorld full short fun n => routeSig_poolPlan_ne_raydium
  have captured : (storeMachine Base64.standard).Reach Machine.anyStep raydiumWorld :=
    (Machine.Reach.ofStart (M := storeMachine Base64.standard) rfl).step
      (i := .insertRoute (circularPlan "Raydium") _ 5) trivial rfl
  have reached : (storeMachine Base64.standard).Reach Machine.anyStep (rotatedWorld count) :=
    reach_refill (reach_refill captured)
  have entry := @hopPairIndex_rotatedWorld count
  unfold World.capture World.insertAll
  generalize rotatedWorld count = rotated at fresh dropped reached entry
  intro w
  have taken : storeStep Base64.standard rotated (.insertRoute (circularPlan "Meteora")
      (bareService.respond Base64.standard () 5 (onChainFloor 5)) 5) w := rfl
  have live : ∀ sig, w.Live sig ↔ sig = routeSig (circularPlan "Meteora") ∨
      rotated.store.segments.Survives routeSegCap sig := by
    intro sig
    rw [World.Live, segments_of_step taken]
    simp only [nextSegments, Segments.find_eq_none_iff.mpr fresh]
    exact Segments.live_push
  refine ⟨reached.step (i := .insertRoute (circularPlan "Meteora") _ 5) trivial taken,
    (live _).mpr (Or.inl rfl), ?_, ?_, ?_⟩
  · rw [creator_of_step taken]
    simp only [nextCreator, Segments.find_eq_none_iff.mpr fresh, if_pos]
  · rw [pairKey_meteora]
    rfl
  · intro served
    rcases (isSome_getRouteForHops _ _).mp served with ⟨key, indexed, pair, found, indexedLive⟩
    obtain rfl := Option.some.inj (pairKey_meteora.symm.trans pair)
    rw [hopPairIndex_of_step taken, nextEntry_of_indexed entry (by simp)] at found
    obtain rfl := Option.some.inj found
    rcases (live _).mp indexedLive with same | survives
    · exact routeSig_labels_ne same
    · exact dropped survives.live

end Rotated

/-- Both plans have the same pair. The one labelled Raydium is captured and dropped by two
rotations, the one labelled Meteora is captured after that: it is live, but Tier 2 looks
up the dropped one. -/
theorem pair_hidden :
    let w := (rotatedWorld 1999).capture [circularPlan "Meteora"]
    (storeMachine Base64.standard).Reach Machine.anyStep w ∧
      w.Live (routeSig (circularPlan "Meteora")) ∧
      w.creator (routeSig (circularPlan "Meteora")) = some (circularPlan "Meteora") ∧
      (pairKey (circularPlan "Meteora")).isSome ∧
      ¬ (getRouteForHops w.store (circularPlan "Meteora")).1.isSome := by
  exact pair_hidden_of_full (by decide) (by decide)

end ArbBot
