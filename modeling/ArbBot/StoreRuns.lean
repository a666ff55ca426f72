import ArbBot.Foundation.Runs
import ArbBot.RouteDisk

/-!
# Runs of the template store

A `World` is the store of the running process and the `routes.json` it shares with
its predecessors and successors. `storeMachine` lets the bot call the methods of the
store in any order, flush, restart and load, for any number of process lifetimes.
A flush or a load that fails changes nothing, so it is no step.

`creator` and `savedCreator` are history variables: they record the plan from which
`insert_route` created the template of a signature, and no step reads them.

* `reach_templates` is the rule for properties of every live and every saved template.
* `Provenance` says which plans stand behind the routes and the index entries of every
  reachable world.
-/

namespace ArbBot

open Foundation

/-! ## Amounts -/

def jitoTipLamports : UInt64 := 1600

def networkFeeLamports : UInt64 := 5000

/-- The minimum output `scan_all_tokens` asks for. -/
def onChainFloor (amount : UInt64) : UInt64 :=
  amount + jitoTipLamports + networkFeeLamports

theorem onChainFloor_eq (amount : UInt64) : onChainFloor amount = amount + 6600 := by
  have total : jitoTipLamports + networkFeeLamports = 6600 := by decide
  rw [onChainFloor, UInt64.add_assoc, total]

theorem onChainFloor_sub (amount : UInt64) : onChainFloor amount - amount = 6600 := by
  rw [onChainFloor_eq, UInt64.add_comm, UInt64.add_sub_cancel]

/-! ## Worlds -/

structure World where
  store : StoreInner
  disk : Option RouteFile
  creator : U128 → Option Json
  savedCreator : U128 → Option Json

/-- The calls the bot makes, with their arguments. -/
inductive StoreCall where
  | insertRoute (routePlan : Json) (swapIxs : SwapInstructionsResponse) (inAmount : UInt64)
  | getRoute (sig : U128)
  | getRouteForHops (routePlan : Json)
  | recordRouteHit (sig : U128)
  | recordHops (routePlan : Json) (contextSlot : Option UInt64)
  | flush (file : RouteFile)
  | restart
  | load

namespace World

/-- The route is held by the running process. -/
def Live (w : World) (sig : U128) : Prop := w.store.segments.Live sig

/-- A first process that finds no file. -/
def initial : World where
  store := .new
  disk := none
  creator _ := none
  savedCreator _ := none

/-- `insert_route` as the scan loop calls it. -/
def insertRoute (codec : TextCodec) (w : World) (routePlan : Json)
    (swapIxs : SwapInstructionsResponse) (inAmount : UInt64) : World :=
  let sig := routeSig routePlan
  { w with
    store :=
      ArbBot.insertRoute codec w.store sig swapIxs inAmount (onChainFloor inAmount) routePlan
    creator :=
      match w.store.segments.find sig with
      | some _ => w.creator
      | none => Function.update w.creator sig (some routePlan) }

/-- `load_routes_from_disk`. -/
def load (w : World) : World :=
  match w.disk with
  | none => w
  | some file =>
      { w with
        store := (loadRoutesFromDisk w.store file).2
        creator := fun sig =>
          match w.store.segments.find sig with
          | some _ => w.creator sig
          | none => w.savedCreator sig }

/-- A new process. -/
def restart (w : World) : World :=
  { w with store := .new, creator := fun _ => none }

/-- Every route record of the file satisfies the property. -/
def SavedAll (w : World) (P : U128 → RouteTemplate → Prop) : Prop :=
  ∀ file, w.disk = some file → ∀ sig tmpl, (sig, tmpl) ∈ file.entries → P sig tmpl

end World

/-- The effect of a call. -/
def storeStep (codec : TextCodec) (w : World) : StoreCall → World → Prop
  | .insertRoute routePlan swapIxs inAmount, w' =>
      w' = w.insertRoute codec routePlan swapIxs inAmount
  | .getRoute sig, w' => w' = { w with store := (getRoute w.store sig).2 }
  | .getRouteForHops routePlan, w' =>
      w' = { w with store := (getRouteForHops w.store routePlan).2 }
  | .recordRouteHit sig, w' => w' = { w with store := recordRouteHit w.store sig }
  | .recordHops routePlan contextSlot, w' =>
      w' = { w with store := recordHops w.store routePlan contextSlot }
  | .flush file, w' =>
      Snapshot w.store file ∧ w' = { w with disk := some file, savedCreator := w.creator }
  | .restart, w' => w' = w.restart
  | .load, w' => w' = w.load

/-- Any calls, from the first process on. -/
def storeMachine (codec : TextCodec) : Machine World StoreCall where
  start w := w = .initial
  step := storeStep codec

/-! ## Reading calls -/

/-- The signature a call looks up with the right to promote it. -/
def StoreCall.lookup (w : World) : StoreCall → Option U128
  | .getRoute sig => some sig
  | .getRouteForHops routePlan => (pairKey routePlan).bind (w.store.hopPairIndex[·]?)
  | _ => none

theorem getRouteForHops_eq (g : StoreInner) (routePlan : Json) :
    getRouteForHops g routePlan =
      match (pairKey routePlan).bind (g.hopPairIndex[·]?) with
      | some sig => getRoute g sig
      | none => (none, g) := rfl

/-- The routes after a call, as one operation on the segments. -/
def nextSegments (codec : TextCodec) (w : World) :
    StoreCall → Segments U128 RouteTemplate
  | .insertRoute routePlan swapIxs inAmount =>
      match w.store.segments.find (routeSig routePlan) with
      | some _ => w.store.segments.update (routeSig routePlan) fun t => t.seen inAmount swapIxs
      | none =>
          w.store.segments.push routeSegCap (routeSig routePlan)
            (newTemplate codec (routeSig routePlan) swapIxs inAmount (onChainFloor inAmount))
  | .recordRouteHit sig => w.store.segments.update sig RouteTemplate.hit
  | .restart => StoreInner.new.segments
  | .load =>
      match w.disk with
      | some file => w.store.segments.fillAll file.entries
      | none => w.store.segments
  | call =>
      match call.lookup w with
      | some sig => (w.store.segments.fetch routeSegCap sig RouteTemplate.hit).2
      | none => w.store.segments

/-- The index entry of a pair after a call. -/
def nextEntry (w : World) (key : String) : StoreCall → Option U128
  | .insertRoute routePlan _ _ =>
      match w.store.hopPairIndex[key]?, w.store.segments.find (routeSig routePlan) with
      | none, none => if pairKey routePlan = some key then some (routeSig routePlan) else none
      | entry, _ => entry
  | .restart => none
  | .load =>
      match w.store.hopPairIndex[key]? with
      | some sig => some sig
      | none => w.disk.bind (·.pairSig key)
  | _ => w.store.hopPairIndex[key]?

/-- The plan behind a live signature after a call. -/
def nextCreator (w : World) (sig : U128) : StoreCall → Option Json
  | .insertRoute routePlan _ _ =>
      match w.store.segments.find (routeSig routePlan) with
      | none => if sig = routeSig routePlan then some routePlan else w.creator sig
      | some _ => w.creator sig
  | .restart => none
  | .load =>
      match w.disk, w.store.segments.find sig with
      | some _, none => w.savedCreator sig
      | _, _ => w.creator sig
  | _ => w.creator sig

section Step

variable {codec : TextCodec} {w w' : World} {call : StoreCall}

/-- **The store refines the segments**: each method acts on the routes as one
operation of the cache. -/
theorem segments_of_step (taken : storeStep codec w call w') :
    w'.store.segments = nextSegments codec w call := by
  cases call with
  | insertRoute routePlan swapIxs inAmount =>
      subst taken
      exact segments_insertRoute ..
  | getRoute sig =>
      subst taken
      exact congrArg StoreInner.segments (congrArg Prod.snd (getRoute_eq w.store sig))
  | getRouteForHops routePlan =>
      subst taken
      simp only [nextSegments, getRouteForHops_eq, StoreCall.lookup]
      cases (pairKey routePlan).bind (w.store.hopPairIndex[·]?) with
      | none => rfl
      | some sig =>
          exact congrArg StoreInner.segments (congrArg Prod.snd (getRoute_eq w.store sig))
  | recordRouteHit sig =>
      subst taken
      exact congrArg StoreInner.segments (recordRouteHit_eq w.store sig)
  | recordHops routePlan contextSlot =>
      subst taken
      exact segments_recordHops ..
  | flush file =>
      rcases taken with ⟨-, rfl⟩
      rfl
  | restart =>
      subst taken
      rfl
  | load =>
      subst taken
      unfold World.load nextSegments
      rcases w.disk with _ | file
      · rfl
      · exact segments_loadRoutesFromDisk ..

theorem hopPairIndex_of_step (taken : storeStep codec w call w') (key : String) :
    w'.store.hopPairIndex[key]? = nextEntry w key call := by
  cases call with
  | insertRoute routePlan swapIxs inAmount =>
      subst taken
      unfold nextEntry World.insertRoute
      simp only [hopPairIndex_insertRoute]
      cases found : w.store.segments.find (routeSig routePlan) with
      | some t => cases w.store.hopPairIndex[key]? <;> rfl
      | none =>
          cases pair : pairKey routePlan with
          | none => cases w.store.hopPairIndex[key]? <;> simp
          | some key' =>
              simp only [Std.HashMap.getElem?_insertIfNew, Option.some.injEq, beq_iff_eq]
              cases entry : w.store.hopPairIndex[key]? with
              | some sig =>
                  have member : key ∈ w.store.hopPairIndex := Segments.mem_of_getElem? entry
                  rw [if_neg]
                  intro both
                  exact both.2 (both.1 ▸ member)
              | none =>
                  have absent : key ∉ w.store.hopPairIndex :=
                    Segments.notMem_of_getElem? entry
                  by_cases same : key' = key
                  · subst same
                    simp [absent]
                  · simp [same]
  | getRoute sig =>
      subst taken
      exact congrArg (·[key]?) (hopPairIndex_getRoute w.store sig)
  | getRouteForHops routePlan =>
      subst taken
      simp only [nextEntry, getRouteForHops_eq]
      cases (pairKey routePlan).bind (w.store.hopPairIndex[·]?) with
      | none => rfl
      | some sig => exact congrArg (·[key]?) (hopPairIndex_getRoute w.store sig)
  | recordRouteHit sig =>
      subst taken
      simp only [nextEntry, recordRouteHit_eq, StoreInner.hopPairIndex_withSegments]
  | recordHops routePlan contextSlot =>
      subst taken
      simp only [nextEntry, hopPairIndex_recordHops]
  | flush file =>
      rcases taken with ⟨-, rfl⟩
      rfl
  | restart =>
      subst taken
      exact Std.HashMap.getElem?_empty
  | load =>
      subst taken
      unfold World.load nextEntry
      rcases w.disk with _ | file
      · cases w.store.hopPairIndex[key]? <;> rfl
      · exact hopPairIndex_loadRoutesFromDisk w.store file key

theorem creator_of_step (taken : storeStep codec w call w') (sig : U128) :
    w'.creator sig = nextCreator w sig call := by
  cases call with
  | insertRoute routePlan swapIxs inAmount =>
      subst taken
      simp only [nextCreator, World.insertRoute]
      cases w.store.segments.find (routeSig routePlan) with
      | some t => rfl
      | none => exact Function.update_apply ..
  | load =>
      subst taken
      simp only [World.load, nextCreator]
      rcases w.disk with _ | file
      · rfl
      · dsimp only
        cases w.store.segments.find sig <;> rfl
  | flush file =>
      rcases taken with ⟨-, rfl⟩
      rfl
  | _ =>
      subst taken
      rfl

/-- Only a flush writes the file, and with it what is known of its routes. -/
theorem disk_of_step (taken : storeStep codec w call w') :
    (∃ file, call = .flush file ∧ Snapshot w.store file ∧ w'.disk = some file ∧
        w'.savedCreator = w.creator) ∨
      w'.disk = w.disk ∧ w'.savedCreator = w.savedCreator := by
  cases call with
  | flush file =>
      rcases taken with ⟨snapshot, rfl⟩
      exact Or.inl ⟨file, rfl, snapshot, rfl, rfl⟩
  | load =>
      subst taken
      right
      unfold World.load
      cases disk : w.disk with
      | none => exact ⟨disk, rfl⟩
      | some file => exact ⟨rfl, rfl⟩
  | _ =>
      subst taken
      exact Or.inr ⟨rfl, rfl⟩

/-! ## Where things come from -/

/-- A live route was live, with the same creator, or it was just created or loaded. -/
theorem origin_of_step (taken : storeStep codec w call w') {sig : U128} (live : w'.Live sig) :
    (w.Live sig ∧ w'.creator sig = w.creator sig) ∨
      (∃ routePlan swapIxs inAmount, call = .insertRoute routePlan swapIxs inAmount ∧
        sig = routeSig routePlan ∧ ¬ w.Live sig ∧ w'.creator sig = some routePlan) ∨
      ∃ file tmpl, call = .load ∧ w.disk = some file ∧ (sig, tmpl) ∈ file.entries ∧
        ¬ w.Live sig ∧ w'.creator sig = w.savedCreator sig := by
  rw [World.Live, segments_of_step taken] at live
  rw [creator_of_step taken]
  cases call with
  | insertRoute routePlan swapIxs inAmount =>
      simp only [nextSegments, nextCreator] at live ⊢
      cases found : w.store.segments.find (routeSig routePlan) with
      | some t =>
          rw [found] at live
          exact Or.inl ⟨Segments.live_update.mp live, rfl⟩
      | none =>
          have fresh := Segments.find_eq_none_iff.mp found
          rw [found] at live
          rcases Segments.live_push.mp live with rfl | survives
          · exact Or.inr (Or.inl ⟨_, _, _, rfl, rfl, fresh, if_pos rfl⟩)
          · refine Or.inl ⟨survives.live, if_neg fun same => fresh ?_⟩
            rw [← same]
            exact survives.live
  | load =>
      simp only [nextSegments, nextCreator] at live ⊢
      cases disk : w.disk with
      | none =>
          rw [disk] at live
          exact Or.inl ⟨live, rfl⟩
      | some file =>
          rw [disk] at live
          cases found : w.store.segments.find sig with
          | some t => exact Or.inl ⟨(Segments.holds_of_find found).live, rfl⟩
          | none =>
              have fresh := Segments.find_eq_none_iff.mp found
              rcases Segments.live_fillAll.mp live with old | loaded
              · exact (fresh old).elim
              · rcases List.mem_map.mp loaded with ⟨entry, member, rfl⟩
                exact Or.inr (Or.inr ⟨file, entry.2, trivial, rfl, member, fresh, rfl⟩)
  | restart =>
      have empty : ¬ StoreInner.new.segments.Live sig := by
        simp [Segments.Live, StoreInner.new, StoreInner.segments]
      exact (empty live).elim
  | recordRouteHit _ => exact Or.inl ⟨Segments.live_update.mp live, rfl⟩
  | getRoute key =>
      refine Or.inl ⟨?_, rfl⟩
      exact Segments.live_of_fetch live
  | getRouteForHops routePlan =>
      refine Or.inl ⟨?_, rfl⟩
      simp only [nextSegments] at live
      cases looked : StoreCall.lookup w (.getRouteForHops routePlan) with
      | none => rw [looked] at live; exact live
      | some key => rw [looked] at live; exact Segments.live_of_fetch live
  | recordHops _ _ => exact Or.inl ⟨live, rfl⟩
  | flush _ => exact Or.inl ⟨live, rfl⟩

/-- A flush. -/
def World.flushed (w : World) (file : RouteFile) : World :=
  { w with disk := some file, savedCreator := w.creator }

theorem step_flushed (codec : TextCodec) {file : RouteFile} (snapshot : Snapshot w.store file) :
    (storeMachine codec).step w (.flush file) (w.flushed file) := ⟨snapshot, rfl⟩

theorem step_restart (codec : TextCodec) (w : World) :
    (storeMachine codec).step w .restart w.restart := rfl

theorem step_load (codec : TextCodec) (w : World) :
    (storeMachine codec).step w .load w.load := rfl

/-- A route that was just created is found. -/
theorem getRoute_insertRoute_fresh {routePlan : Json} {swapIxs : SwapInstructionsResponse}
    {inAmount : UInt64} (fresh : ¬ w.Live (routeSig routePlan)) :
    (getRoute (w.insertRoute codec routePlan swapIxs inAmount).store (routeSig routePlan)).1 =
      some (newTemplate codec (routeSig routePlan) swapIxs inAmount (onChainFloor inAmount)) := by
  have absent := Segments.find_eq_none_iff.mpr fresh
  rw [getRoute_eq]
  simp only [World.insertRoute, segments_insertRoute, absent, Segments.fetch_push_self]

/-- A pair that was just indexed is found. -/
theorem getRouteForHops_insertRoute_fresh {routePlan routePlan' : Json}
    {swapIxs : SwapInstructionsResponse} {inAmount : UInt64} {key : String}
    (fresh : ¬ w.Live (routeSig routePlan)) (unindexed : w.store.hopPairIndex[key]? = none)
    (pair : pairKey routePlan = some key) (pair' : pairKey routePlan' = some key) :
    (getRouteForHops (w.insertRoute codec routePlan swapIxs inAmount).store routePlan').1 =
      some (newTemplate codec (routeSig routePlan) swapIxs inAmount (onChainFloor inAmount)) := by
  have taken : storeStep codec w (.insertRoute routePlan swapIxs inAmount)
      (w.insertRoute codec routePlan swapIxs inAmount) := rfl
  have entry := hopPairIndex_of_step taken key
  simp only [nextEntry, unindexed, Segments.find_eq_none_iff.mpr fresh, pair, if_true] at entry
  rw [getRouteForHops_eq, pair', Option.bind_some, entry]
  exact getRoute_insertRoute_fresh fresh

/-- An index entry is old, or it was just made for a new route or loaded. -/
theorem entry_of_step (taken : storeStep codec w call w') {key : String} {sig : U128}
    (entry : w'.store.hopPairIndex[key]? = some sig) :
    w.store.hopPairIndex[key]? = some sig ∨
      (∃ routePlan swapIxs inAmount, call = .insertRoute routePlan swapIxs inAmount ∧
        pairKey routePlan = some key ∧ routeSig routePlan = sig) ∨
      ∃ file, call = .load ∧ w.disk = some file ∧ file.pairSig key = some sig := by
  rw [hopPairIndex_of_step taken] at entry
  cases call with
  | insertRoute routePlan swapIxs inAmount =>
      simp only [nextEntry] at entry
      cases old : w.store.hopPairIndex[key]? with
      | some sig' =>
          rw [old] at entry
          exact Or.inl entry
      | none =>
          rw [old] at entry
          cases found : w.store.segments.find (routeSig routePlan) with
          | some t => rw [found] at entry; cases entry
          | none =>
              rw [found] at entry
              simp only [Option.ite_none_right_eq_some, Option.some.injEq] at entry
              exact Or.inr (Or.inl ⟨_, _, _, rfl, entry⟩)
  | load =>
      simp only [nextEntry] at entry
      cases old : w.store.hopPairIndex[key]? with
      | some sig' =>
          rw [old] at entry
          exact Or.inl entry
      | none =>
          rw [old] at entry
          rcases Option.bind_eq_some_iff.mp entry with ⟨file, disk, saved⟩
          exact Or.inr (Or.inr ⟨file, rfl, disk, saved⟩)
  | restart => cases entry
  | _ => exact Or.inl entry

/-- A property of templates is kept by a step if hits, reloads, further captures and
first captures keep it. -/
theorem templates_of_step {P : U128 → RouteTemplate → Prop}
    (onHit : ∀ sig t, P sig t → P sig t.hit)
    (onCold : ∀ sig t, P sig t → P sig t.cold)
    (onSeen : ∀ routePlan swapIxs inAmount t,
      call = .insertRoute routePlan swapIxs inAmount → P (routeSig routePlan) t →
        P (routeSig routePlan) (t.seen inAmount swapIxs))
    (onNew : ∀ routePlan swapIxs inAmount,
      call = .insertRoute routePlan swapIxs inAmount → ¬ w.Live (routeSig routePlan) →
        P (routeSig routePlan) (newTemplate codec (routeSig routePlan) swapIxs inAmount
          (onChainFloor inAmount)))
    (keyed : w.store.segments.All fun sig t => t.routeSignature = sig)
    (live : w.store.segments.All P) (saved : w.SavedAll P)
    (taken : storeStep codec w call w') : w'.store.segments.All P ∧ w'.SavedAll P := by
  constructor
  · rw [segments_of_step taken]
    cases call with
    | insertRoute routePlan swapIxs inAmount =>
        simp only [nextSegments]
        cases found : w.store.segments.find (routeSig routePlan) with
        | some t =>
            apply live.update
            intro t' found'
            exact onSeen _ _ _ t' rfl (live _ _ (Segments.holds_of_find found'))
        | none => exact live.push (onNew _ _ _ rfl (Segments.find_eq_none_iff.mp found))
    | recordRouteHit sig =>
        apply live.update
        intro t found
        exact onHit _ _ (live _ _ (Segments.holds_of_find found))
    | load =>
        simp only [nextSegments]
        cases disk : w.disk with
        | none => exact live
        | some file =>
            refine Segments.all_fillAll.mpr ⟨live, fun sig tmpl _ first => ?_⟩
            exact saved file disk sig tmpl (Segments.mem_of_lookup first)
    | restart =>
        intro sig t holds
        simp [Segments.Holds, nextSegments, StoreInner.new, StoreInner.segments] at holds
    | getRoute sig => exact live.fetch (onHit sig)
    | getRouteForHops routePlan =>
        simp only [nextSegments]
        cases StoreCall.lookup w (.getRouteForHops routePlan) with
        | none => exact live
        | some sig => exact live.fetch (onHit sig)
    | recordHops _ _ => exact live
    | flush _ => exact live
  · intro file' disk' sig tmpl member
    rcases disk_of_step taken with ⟨file, -, snapshot, disk, -⟩ | ⟨disk, -⟩
    · rw [disk] at disk'
      obtain rfl := Option.some.inj disk'
      rcases snapshot.mem_entries.mp member with ⟨key, t, holds, rfl, rfl⟩
      rw [keyed key t holds]
      exact onCold _ _ (live key t holds)
    · exact saved file' (disk ▸ disk') sig tmpl member

end Step

/-! ## Every reachable world -/

/-- The plans that are captured come from a given set. -/
def Captures (Seen : Set Json) (_ : World) : StoreCall → Prop
  | .insertRoute routePlan _ _ => routePlan ∈ Seen
  | _ => True

theorem not_live_initial (sig : U128) : ¬ World.initial.Live sig := by
  simp [World.Live, World.initial, Segments.Live, StoreInner.new, StoreInner.segments]

theorem all_initial (P : U128 → RouteTemplate → Prop) : World.initial.store.segments.All P :=
  fun sig _ holds => (not_live_initial sig holds.live).elim

theorem savedAll_initial (P : U128 → RouteTemplate → Prop) : World.initial.SavedAll P := by
  intro file disk
  cases disk

section Reach

variable {codec : TextCodec} {guard : World → StoreCall → Prop} {w : World}

theorem keyed_entries {file : RouteFile} {sig : U128} {tmpl : RouteTemplate}
    (member : (sig, tmpl) ∈ file.entries) : tmpl.routeSignature = sig := by
  rcases List.mem_filterMap.mp member with ⟨rec, -, entry⟩
  rcases Option.map_eq_some_iff.mp entry with ⟨sig', -, same⟩
  rcases Prod.mk.inj same with ⟨rfl, rfl⟩
  rfl

/-- Templates carry the signature they are stored under. -/
theorem keyed_of_step {w w' : World} {call : StoreCall}
    (keyed : w.store.segments.All fun sig t => t.routeSignature = sig)
    (taken : storeStep codec w call w') :
    w'.store.segments.All fun sig t => t.routeSignature = sig := by
  refine (templates_of_step ?_ ?_ ?_ ?_ keyed keyed ?_ taken).1
  · intro sig t same
    exact same
  · intro sig t same
    exact same
  · intro routePlan swapIxs inAmount t _ same
    exact same
  · intro routePlan swapIxs inAmount _ _
    rfl
  · intro file _ sig tmpl member
    exact keyed_entries member

theorem reach_keyed (reached : (storeMachine codec).Reach guard w) :
    w.store.segments.All fun sig t => t.routeSignature = sig := by
  refine reached.invariant
    (fun w => w.store.segments.All fun sig t => t.routeSignature = sig) ?_ ?_
  · intro w started
    obtain rfl := started
    exact all_initial _
  · intro w call w' keyed _ taken
    exact keyed_of_step keyed taken

/-- The rule for properties of every template, live or saved. -/
theorem reach_templates {P : U128 → RouteTemplate → Prop}
    (onHit : ∀ sig t, P sig t → P sig t.hit)
    (onCold : ∀ sig t, P sig t → P sig t.cold)
    (onSeen : ∀ w routePlan swapIxs inAmount t,
      guard w (.insertRoute routePlan swapIxs inAmount) → P (routeSig routePlan) t →
        P (routeSig routePlan) (t.seen inAmount swapIxs))
    (onNew : ∀ w routePlan swapIxs inAmount,
      guard w (.insertRoute routePlan swapIxs inAmount) →
        P (routeSig routePlan) (newTemplate codec (routeSig routePlan) swapIxs inAmount
          (onChainFloor inAmount)))
    (reached : (storeMachine codec).Reach guard w) : w.store.segments.All P := by
  have both : w.store.segments.All (fun sig t => t.routeSignature = sig) ∧
      w.store.segments.All P ∧ w.SavedAll P := by
    refine reached.invariant (fun w =>
      w.store.segments.All (fun sig t => t.routeSignature = sig) ∧
        w.store.segments.All P ∧ w.SavedAll P) ?_ ?_
    · intro w started
      obtain rfl := started
      exact ⟨all_initial _, all_initial _, savedAll_initial _⟩
    · intro w call w' before allowed taken
      rcases before with ⟨keyed, live, saved⟩
      refine ⟨keyed_of_step keyed taken, templates_of_step onHit onCold ?_ ?_ keyed live saved
        taken⟩
      · intro routePlan swapIxs inAmount t same
        subst same
        exact onSeen w routePlan swapIxs inAmount t allowed
      · intro routePlan swapIxs inAmount same _
        subst same
        exact onNew w routePlan swapIxs inAmount allowed
  exact both.2.1

/-- Which plans stand behind the routes and the index entries, live or saved. -/
structure Provenance (Seen : Set Json) (w : World) : Prop where
  live : ∀ sig, w.Live sig →
    ∃ routePlan ∈ Seen, w.creator sig = some routePlan ∧ routeSig routePlan = sig
  saved : ∀ file, w.disk = some file → ∀ sig tmpl, (sig, tmpl) ∈ file.entries →
    ∃ routePlan ∈ Seen, w.savedCreator sig = some routePlan ∧ routeSig routePlan = sig
  entry : ∀ key sig, w.store.hopPairIndex[key]? = some sig →
    ∃ routePlan ∈ Seen, pairKey routePlan = some key ∧ routeSig routePlan = sig
  savedEntry : ∀ file, w.disk = some file → ∀ key sig, file.pairSig key = some sig →
    ∃ routePlan ∈ Seen, pairKey routePlan = some key ∧ routeSig routePlan = sig

theorem Provenance.step {Seen : Set Json} {w w' : World} {call : StoreCall}
    (before : Provenance Seen w)
    (keyed : w.store.segments.All fun sig t => t.routeSignature = sig)
    (allowed : Captures Seen w call) (taken : storeStep codec w call w') :
    Provenance Seen w' where
  live sig live := by
    rcases origin_of_step taken live with
      ⟨old, same⟩ | ⟨routePlan, swapIxs, inAmount, rfl, rfl, -, created⟩ |
        ⟨file, tmpl, rfl, disk, member, -, loaded⟩
    · rw [same]
      exact before.live sig old
    · exact ⟨routePlan, allowed, created, rfl⟩
    · rw [loaded]
      exact before.saved file disk sig tmpl member
  saved file' disk' sig tmpl member := by
    rcases disk_of_step taken with ⟨file, -, snapshot, disk, creators⟩ | ⟨disk, creators⟩
    · rw [disk] at disk'
      obtain rfl := Option.some.inj disk'
      rcases snapshot.mem_entries.mp member with ⟨key, t, holds, rfl, -⟩
      rw [creators, keyed key t holds]
      exact before.live key holds.live
    · rw [creators]
      exact before.saved file' (disk ▸ disk') sig tmpl member
  entry key sig entry := by
    rcases entry_of_step taken entry with
      old | ⟨routePlan, swapIxs, inAmount, rfl, pair, same⟩ | ⟨file, rfl, disk, saved⟩
    · exact before.entry key sig old
    · exact ⟨routePlan, allowed, pair, same⟩
    · exact before.savedEntry file disk key sig saved
  savedEntry file' disk' key sig saved := by
    rcases disk_of_step taken with ⟨file, -, snapshot, disk, -⟩ | ⟨disk, -⟩
    · rw [disk] at disk'
      obtain rfl := Option.some.inj disk'
      rw [snapshot.pairSig] at saved
      exact before.entry key sig saved
    · exact before.savedEntry file' (disk ▸ disk') key sig saved

theorem reach_provenance {Seen : Set Json}
    (reached : (storeMachine codec).Reach (Captures Seen) w) : Provenance Seen w := by
  have both : w.store.segments.All (fun sig t => t.routeSignature = sig) ∧
      Provenance Seen w := by
    refine reached.invariant (fun w =>
      w.store.segments.All (fun sig t => t.routeSignature = sig) ∧ Provenance Seen w) ?_ ?_
    · intro w started
      obtain rfl := started
      refine ⟨all_initial _, ⟨fun sig live => (not_live_initial sig live).elim, ?_, ?_, ?_⟩⟩
      · intro file disk
        cases disk
      · intro key sig entry
        simp [World.initial, StoreInner.new] at entry
      · intro file disk
        cases disk
    · intro w call w' before allowed taken
      exact ⟨keyed_of_step before.1 taken, before.2.step before.1 allowed taken⟩
  exact both.2

end Reach

end ArbBot
