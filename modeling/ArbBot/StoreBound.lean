import ArbBot.FillRuns

/-!
# How many routes the store holds

Captures and promotions check the hot segment for room before they add a route;
`load_routes_from_disk` does not. `LoadFits` says when a load finds room, and
`bounded_iff` shows that a run stays within the capacity just when all its loads do.
-/

namespace ArbBot

open Foundation

/-- Neither segment holds more than its capacity. -/
def World.Bounded (w : World) : Prop :=
  w.store.segments.Bounded routeSegCap

theorem World.Bounded.hot {w : World} (bounded : w.Bounded) :
    w.store.routesHot.size ≤ routeSegCap := bounded.1

/-- A load finds room for the routes of the file that are not live yet; all other calls
make their own room. -/
def LoadFits (w : World) : StoreCall → Prop
  | .load =>
      ∀ file, w.disk = some file →
        w.store.routesHot.size + (w.store.segments.freshKeys file.entries).card ≤ routeSegCap
  | _ => True

theorem bounded_initial : World.initial.Bounded := by
  simp [World.Bounded, Segments.Bounded, World.initial, StoreInner.new, StoreInner.segments]

theorem routeSegCap_pos : 0 < routeSegCap := by decide

section Step

variable {codec : TextCodec} {w w' : World} {call : StoreCall}

/-- A call stays within the capacity just when it is no load or finds room. -/
theorem bounded_step_iff (before : w.Bounded) (taken : storeStep codec w call w') :
    w'.Bounded ↔ LoadFits w call := by
  rw [World.Bounded, segments_of_step taken]
  cases call with
  | insertRoute routePlan swapIxs inAmount =>
      refine iff_of_true ?_ trivial
      simp only [nextSegments]
      cases w.store.segments.find (routeSig routePlan) with
      | some t => exact Segments.bounded_update.mpr before
      | none => exact before.push routeSegCap_pos
  | load =>
      simp only [nextSegments, LoadFits]
      cases disk : w.disk with
      | none => simp [show w.store.segments.Bounded routeSegCap from before]
      | some file =>
          simp only [Segments.Bounded, Segments.size_hot_fillAll, Segments.cold_fillAll,
            Option.some.injEq, forall_eq']
          exact and_iff_left before.2
  | recordRouteHit sig => exact iff_of_true (Segments.bounded_update.mpr before) trivial
  | restart => exact iff_of_true bounded_initial trivial
  | getRoute sig => exact iff_of_true (before.fetch routeSegCap_pos) trivial
  | getRouteForHops routePlan =>
      refine iff_of_true ?_ trivial
      simp only [nextSegments]
      cases StoreCall.lookup w (.getRouteForHops routePlan) with
      | none => exact before
      | some sig => exact before.fetch routeSegCap_pos
  | recordHops _ _ => exact iff_of_true before trivial
  | flush _ => exact iff_of_true before trivial

/-- A new process starts empty, so its first load fits just when the file holds at most
one segment of distinct routes. -/
theorem loadFits_restart_iff {file : RouteFile} (disk : w.disk = some file) :
    LoadFits w.restart .load ↔
      (StoreInner.new.segments.freshKeys file.entries).card ≤ routeSegCap := by
  have empty : w.restart.store.routesHot.size = 0 := Std.HashMap.size_empty
  have sameDisk : w.restart.disk = some file := disk
  simp only [LoadFits, sameDisk, Option.some.injEq, forall_eq', empty, Nat.zero_add]
  rfl

end Step

/-! ## Runs -/

/-- **The bound of the store.** From an empty store and any file, a run stays within the
capacity in all its worlds just when every load of it finds room. -/
theorem bounded_iff {codec : TextCodec} {w w' : World} {steps : List (Machine.Entry _ _)}
    (started : w.store = .new) (trace : (storeMachine codec).Trace w steps w') :
    (∀ entry ∈ steps, entry.after.Bounded) ↔
      ∀ entry ∈ steps, LoadFits entry.before entry.label := by
  refine Machine.Trace.all_iff (fun _ => True) World.Bounded (fun _ _ _ _ _ => trivial)
    (fun _ _ _ _ before taken => bounded_step_iff before taken) trace trivial ?_
  rw [World.Bounded, started]
  exact bounded_initial

/-! ## Files of flushed stores -/

/-- A flushed file holds at most as many routes as the store did. -/
theorem card_freshKeys_snapshot_le {g : StoreInner} {file : RouteFile}
    (snapshot : Snapshot g file) (m : Segments U128 RouteTemplate) :
    (m.freshKeys file.entries).card ≤ g.routesHot.size + g.routesCold.size :=
  calc (m.freshKeys file.entries).card
      ≤ file.entries.length := Segments.card_freshKeys_le
    _ ≤ file.routes.length := List.length_filterMap_le _ _
    _ = g.routesHot.size + g.routesCold.size := by
        rw [snapshot.routes.length_eq, flushRoutes, List.length_map, List.length_append,
          Std.HashMap.length_toList, Std.HashMap.length_toList]

/-- Every live route of a flushed store is in its file. -/
theorem mem_entries_snapshot {g : StoreInner} {file : RouteFile} {sig : U128}
    (snapshot : Snapshot g file)
    (keyed : g.segments.All fun sig t => t.routeSignature = sig) (live : g.segments.Live sig) :
    sig ∈ file.entries.map Prod.fst := by
  rcases live.holds with ⟨t, holds⟩
  exact List.mem_map.mpr ⟨(sig, t.cold),
    snapshot.mem_entries.mpr ⟨sig, t, holds, keyed sig t holds, rfl⟩, rfl⟩

/-- A flush, a new process and its load. -/
def World.reload (w : World) (file : RouteFile) : World :=
  (w.flushed file).restart.load

theorem reach_reload {codec : TextCodec} {w : World} {file : RouteFile}
    (snapshot : Snapshot w.store file)
    (reached : (storeMachine codec).Reach Machine.anyStep w) :
    (storeMachine codec).Reach Machine.anyStep (w.reload file) := by
  have flushed := reached.step trivial (step_flushed codec snapshot)
  have restarted := flushed.step trivial (step_restart codec _)
  exact restarted.step trivial (step_load codec _)

/-- A new process holds every route of the flushed store in its hot segment. -/
theorem length_le_size_hot_reload {w : World} {file : RouteFile} {sigs : List U128}
    (snapshot : Snapshot w.store file)
    (keyed : w.store.segments.All fun sig t => t.routeSignature = sig)
    (distinct : sigs.Nodup) (live : ∀ sig ∈ sigs, w.Live sig) :
    sigs.length ≤ (w.reload file).store.routesHot.size := by
  have loaded : (w.reload file).store.segments =
      StoreInner.new.segments.fillAll file.entries :=
    segments_loadRoutesFromDisk _ _
  have size := (congrArg (fun m => m.hot.size) loaded).trans Segments.size_hot_fillAll
  have count := Segments.length_le_card_freshKeys (m := StoreInner.new.segments) distinct
    fun sig member =>
      ⟨mem_entries_snapshot snapshot keyed (live sig member), not_live_initial sig⟩
  calc sigs.length
      ≤ (StoreInner.new.segments.freshKeys file.entries).card := count
    _ ≤ StoreInner.new.segments.hot.size +
          (StoreInner.new.segments.freshKeys file.entries).card := Nat.le_add_left _ _
    _ = (w.reload file).store.routesHot.size := size.symm

/-- One capture, a flush, a new process and its load stay within the capacity. -/
theorem bounded_reload :
    let w := World.initial.capture [poolPlan 0]
    (w.reload (flushRoutes w.store)).Bounded := by
  intro w
  have snapshot := snapshot_flushRoutes w.store
  have trace : (storeMachine Base64.standard).Trace World.initial
      (((([] ++ [⟨World.initial, .insertRoute (poolPlan 0) _ 5, w⟩]) ++
        [⟨w, .flush (flushRoutes w.store), w.flushed (flushRoutes w.store)⟩]) ++
          [⟨w.flushed (flushRoutes w.store), .restart, _⟩]) ++ [⟨_, .load, _⟩])
      (w.reload (flushRoutes w.store)) :=
    ((((Machine.Trace.nil _).snoc rfl).snoc (step_flushed _ snapshot)).snoc
      (step_restart _ _)).snoc (step_load _ _)
  have layout : Layout w ((([poolPlan 0].map routeSig).reverse) ++ []) [] :=
    layout_initial.insertAll (List.nodup_singleton _) (by simp) (by decide)
  have fits : LoadFits (w.flushed (flushRoutes w.store)).restart .load := by
    rw [loadFits_restart_iff (w := w.flushed (flushRoutes w.store)) rfl]
    apply le_trans (card_freshKeys_snapshot_le snapshot _)
    rw [layout.size_hot, layout.size_cold]
    decide
  have kept := (bounded_iff rfl trace).mpr ?_
  · exact kept ⟨(w.flushed (flushRoutes w.store)).restart, .load, w.reload (flushRoutes w.store)⟩
      (List.mem_append_right _ (List.mem_singleton_self _))
  intro entry member
  simp only [List.nil_append, List.cons_append, List.mem_cons, List.not_mem_nil, or_false]
    at member
  rcases member with rfl | rfl | rfl | rfl
  · trivial
  · trivial
  · trivial
  · exact fits

section Overfull

variable {count : Nat}

theorem layout_overfull (full : count = routeSegCap) (short : count < 4000) :
    Layout (World.initial.refill 0 count) [routeSig (poolPlan (0 + count))]
      (((poolPlans 0 count).map routeSig).reverse ++ []) := by
  refine layout_initial.refill (by omega) ?_ ?_
  · rw [List.length_nil, Nat.zero_add, full]
  · intro n _ _ held
    rcases held with held | held <;> cases held

theorem live_overfull (full : count = routeSegCap) (short : count < 4000) :
    ∀ sig ∈ (poolPlans 0 (count + 1)).map routeSig, (World.initial.refill 0 count).Live sig := by
  intro sig member
  rcases mem_poolPlans.mp member with ⟨n, first, before, rfl⟩
  apply (layout_overfull full short).live_iff.mpr
  rw [List.append_nil]
  by_cases last : n = 0 + count
  · rw [last]
    exact Or.inl (List.mem_singleton_self _)
  · exact Or.inr (List.mem_reverse.mpr (mem_poolPlans.mpr ⟨n, first, by omega, rfl⟩))

theorem reach_overfull : (storeMachine Base64.standard).Reach Machine.anyStep
    (World.initial.refill 0 count) :=
  reach_refill (Machine.Reach.ofStart rfl)

/-- All of them end up in the hot segment of the next process. -/
theorem not_bounded_overfull (full : count = routeSegCap) (short : count < 4000) :
    ¬ ((World.initial.refill 0 count).reload
      (flushRoutes (World.initial.refill 0 count).store)).Bounded := by
  intro bounded
  have size := length_le_size_hot_reload (snapshot_flushRoutes (World.initial.refill 0 count).store)
    (reach_keyed reach_overfull) (nodup_poolPlans (by omega)) (live_overfull full short)
  have room := size.trans bounded.hot
  rw [List.length_map, length_poolPlans, ← full] at room
  exact Nat.not_succ_le_self count room

end Overfull

/-- One route more than fits into a segment is captured, flushed and loaded again. -/
theorem not_bounded_reload :
    let w := World.initial.refill 0 routeSegCap
    let reloaded := w.reload (flushRoutes w.store)
    (storeMachine Base64.standard).Reach Machine.anyStep reloaded ∧ ¬ reloaded.Bounded := by
  intro w reloaded
  have short : routeSegCap < 4000 := by decide
  exact ⟨reach_reload (snapshot_flushRoutes _) reach_overfull, not_bounded_overfull rfl short⟩

end ArbBot
