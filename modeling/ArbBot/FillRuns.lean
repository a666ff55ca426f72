import ArbBot.TierOne.Transparency
import Mathlib.Logic.Function.Iterate

/-!
# Runs that fill the store

`Layout` lists the signatures of both segments. Capturing new routes one after the other
extends the list of the hot segment until it is full (`Layout.insertAll`), and the next
capture rotates (`Layout.insert_full`). `poolPlan` is a family of plans with distinct
signatures to do so with: a pass of the hash does not merge states, so a run of equal
bytes only repeats a state once it is back at the first one. `Layout.refill` fills the hot
segment with them and rotates once.
-/

namespace ArbBot

open Foundation

/-! ## Layouts -/

/-- The signatures of the two segments, newest first. -/
structure Layout (w : World) (hot cold : List U128) : Prop where
  mem_hot : ∀ sig, sig ∈ w.store.routesHot ↔ sig ∈ hot
  mem_cold : ∀ sig, sig ∈ w.store.routesCold ↔ sig ∈ cold
  size_hot : w.store.routesHot.size = hot.length
  size_cold : w.store.routesCold.size = cold.length

/-- Capture the plans one after the other. -/
def World.insertAll (codec : TextCodec) (swapIxs : SwapInstructionsResponse)
    (inAmount : UInt64) (w : World) (plans : List Json) : World :=
  plans.foldl (fun w routePlan => w.insertRoute codec routePlan swapIxs inAmount) w

section Layout

variable {codec : TextCodec} {w : World} {hot cold : List U128} {routePlan : Json}
  {swapIxs : SwapInstructionsResponse} {inAmount : UInt64} {plans : List Json}

theorem Layout.live_iff (layout : Layout w hot cold) {sig : U128} :
    w.Live sig ↔ sig ∈ hot ∨ sig ∈ cold :=
  or_congr (layout.mem_hot sig) (layout.mem_cold sig)

theorem layout_initial : Layout World.initial [] [] where
  mem_hot sig := by simp [World.initial, StoreInner.new]
  mem_cold sig := by simp [World.initial, StoreInner.new]
  size_hot := by simp [World.initial, StoreInner.new]
  size_cold := by simp [World.initial, StoreInner.new]

theorem segments_insert_fresh (fresh : ¬ w.Live (routeSig routePlan)) :
    (w.insertRoute codec routePlan swapIxs inAmount).store.segments =
      w.store.segments.push routeSegCap (routeSig routePlan)
        (newTemplate codec (routeSig routePlan) swapIxs inAmount (onChainFloor inAmount)) := by
  have absent := Segments.find_eq_none_iff.mpr fresh
  simp only [World.insertRoute, segments_insertRoute, absent]

/-- A new route joins a hot segment with room. -/
theorem Layout.insert_room (layout : Layout w hot cold)
    (fresh : ¬ (routeSig routePlan ∈ hot ∨ routeSig routePlan ∈ cold))
    (room : hot.length < routeSegCap) :
    Layout (w.insertRoute codec routePlan swapIxs inAmount) (routeSig routePlan :: hot) cold := by
  have notLive : ¬ w.Live (routeSig routePlan) := by rwa [layout.live_iff]
  have hotRoom : w.store.segments.hot.size < routeSegCap := by
    rw [show w.store.segments.hot.size = hot.length from layout.size_hot]
    exact room
  have segments : (w.insertRoute codec routePlan swapIxs inAmount).store.segments = _ :=
    (segments_insert_fresh notLive).trans (Segments.push_of_room hotRoom)
  have hotEq := congrArg Segments.hot segments
  have coldEq := congrArg Segments.cold segments
  have absent : routeSig routePlan ∉ w.store.segments.hot := fun member => notLive (Or.inl member)
  refine ⟨fun sig => ?_, fun sig => ?_, ?_, ?_⟩
  · rw [show (w.insertRoute codec routePlan swapIxs inAmount).store.routesHot = _ from hotEq,
      Std.HashMap.mem_insert, beq_iff_eq, List.mem_cons]
    exact or_congr eq_comm (layout.mem_hot sig)
  · rw [show (w.insertRoute codec routePlan swapIxs inAmount).store.routesCold = _ from coldEq]
    exact layout.mem_cold sig
  · rw [show (w.insertRoute codec routePlan swapIxs inAmount).store.routesHot = _ from hotEq,
      Std.HashMap.size_insert, if_neg absent, List.length_cons]
    exact congrArg (· + 1) layout.size_hot
  · rw [show (w.insertRoute codec routePlan swapIxs inAmount).store.routesCold = _ from coldEq]
    exact layout.size_cold

/-- A new route finds the hot segment full: what was cold is dropped. -/
theorem Layout.insert_full (layout : Layout w hot cold)
    (fresh : ¬ (routeSig routePlan ∈ hot ∨ routeSig routePlan ∈ cold))
    (full : routeSegCap ≤ hot.length) :
    Layout (w.insertRoute codec routePlan swapIxs inAmount) [routeSig routePlan] hot := by
  have notLive : ¬ w.Live (routeSig routePlan) := by rwa [layout.live_iff]
  have hotFull : routeSegCap ≤ w.store.segments.hot.size := by
    rw [show w.store.segments.hot.size = hot.length from layout.size_hot]
    exact full
  have segments : (w.insertRoute codec routePlan swapIxs inAmount).store.segments = _ :=
    (segments_insert_fresh notLive).trans (Segments.push_of_full hotFull)
  have hotEq := congrArg Segments.hot segments
  have coldEq := congrArg Segments.cold segments
  refine ⟨fun sig => ?_, fun sig => ?_, ?_, ?_⟩
  · rw [show (w.insertRoute codec routePlan swapIxs inAmount).store.routesHot = _ from hotEq,
      Std.HashMap.mem_insert, beq_iff_eq, List.mem_singleton]
    constructor
    · intro member
      rcases member with same | inEmpty
      · exact same.symm
      · exact (Std.HashMap.not_mem_empty inEmpty).elim
    · intro same
      exact Or.inl same.symm
  · rw [show (w.insertRoute codec routePlan swapIxs inAmount).store.routesCold = _ from coldEq]
    exact layout.mem_hot sig
  · rw [show (w.insertRoute codec routePlan swapIxs inAmount).store.routesHot = _ from hotEq,
      Std.HashMap.size_insert, if_neg Std.HashMap.not_mem_empty, Std.HashMap.size_empty]
    rfl
  · rw [show (w.insertRoute codec routePlan swapIxs inAmount).store.routesCold = _ from coldEq]
    exact layout.size_hot

/-- New routes join a hot segment with room for all of them. -/
theorem Layout.insertAll (layout : Layout w hot cold)
    (distinct : (plans.map routeSig).Nodup)
    (fresh : ∀ sig ∈ plans.map routeSig, ¬ (sig ∈ hot ∨ sig ∈ cold))
    (room : hot.length + plans.length ≤ routeSegCap) :
    Layout (w.insertAll codec swapIxs inAmount plans)
      ((plans.map routeSig).reverse ++ hot) cold := by
  induction plans generalizing w hot with
  | nil => exact layout
  | cons routePlan rest ih =>
      rw [List.map_cons, List.nodup_cons] at distinct
      rw [List.length_cons] at room
      have first : Layout (w.insertRoute codec routePlan swapIxs inAmount)
          (routeSig routePlan :: hot) cold :=
        layout.insert_room (fresh _ List.mem_cons_self) (by omega)
      have later := ih first distinct.2 ?_ (by rw [List.length_cons]; omega)
      · rw [List.map_cons, List.reverse_cons, List.append_assoc]
        exact later
      · intro sig member held
        rcases held with inHot | inCold
        · rcases List.mem_cons.mp inHot with rfl | inHot
          · exact distinct.1 member
          · exact fresh sig (List.mem_cons_of_mem _ member) (Or.inl inHot)
        · exact fresh sig (List.mem_cons_of_mem _ member) (Or.inr inCold)

theorem reach_insertAll {guard : World → StoreCall → Prop}
    (allowed : ∀ w, ∀ routePlan ∈ plans, guard w (.insertRoute routePlan swapIxs inAmount))
    (reached : (storeMachine codec).Reach guard w) :
    (storeMachine codec).Reach guard (w.insertAll codec swapIxs inAmount plans) := by
  induction plans generalizing w with
  | nil => exact reached
  | cons routePlan rest ih =>
      refine ih (fun w plan member => allowed w plan (List.mem_cons_of_mem _ member)) ?_
      exact reached.step (allowed w routePlan List.mem_cons_self) rfl

/-- Plans that are not indexable leave the index alone. -/
theorem hopPairIndex_insertAll (unpaired : ∀ routePlan ∈ plans, pairKey routePlan = none)
    (key : String) : (w.insertAll codec swapIxs inAmount plans).store.hopPairIndex[key]? =
      w.store.hopPairIndex[key]? := by
  induction plans generalizing w with
  | nil => rfl
  | cons routePlan rest ih =>
      refine (ih fun plan member => unpaired plan (List.mem_cons_of_mem _ member)).trans ?_
      have taken : storeStep codec w (.insertRoute routePlan swapIxs inAmount)
          (w.insertRoute codec routePlan swapIxs inAmount) := rfl
      rw [hopPairIndex_of_step taken]
      simp only [nextEntry, unpaired routePlan List.mem_cons_self]
      cases w.store.hopPairIndex[key]? with
      | some sig => rfl
      | none => cases w.store.segments.find (routeSig routePlan) <;> rfl

end Layout

/-! ## A family of plans -/

def poolName : Nat → String
  | 0 => ""
  | n + 1 => poolName n ++ "a"

/-- A plan of one hop through the pool of the given name. -/
def poolPlan (n : Nat) : Json :=
  .array [.object [("swapInfo", .object [("ammKey", .string (poolName n))])]]

theorem pairKey_poolPlan (n : Nat) : pairKey (poolPlan n) = none := rfl

theorem asBytes_append (s t : String) : asBytes (s ++ t) = asBytes s ++ asBytes t := by
  simp [asBytes]

theorem feed_poolName (h : UInt64) (n : Nat) :
    feed h (asBytes (poolName n)) = (fun h => fnvStep h 97)^[n] h := by
  induction n with
  | zero => rfl
  | succ n ih =>
      have last : asBytes "a" = [97] := by decide
      rw [poolName, asBytes_append, feed_append, ih, last, Function.iterate_succ_apply']
      rfl

/-- The first pass up to the pool name. -/
def poolStart : UInt64 := 12037263849810735268

/-- The first pass over a pool plan. -/
theorem fnv1a64_poolPlan (n : Nat) :
    fnv1a64 (poolPlan n) 0xcbf29ce484222325 =
      fnvStep ((fun h => fnvStep h 97)^[n] poolStart) 59 := by
  have items : hopItems (.object [("swapInfo", .object [("ammKey", .string (poolName n))])]) =
      [("ammKey", asBytes (poolName n))] := rfl
  have start : feed 0xcbf29ce484222325 (asBytes "ammKey" ++ [61]) = poolStart := by
    decide
  have bytes : routeBytes (poolPlan n) =
      (asBytes "ammKey" ++ [61]) ++ (asBytes (poolName n) ++ [59]) := by
    simp [routeBytes, poolPlan, Json.asArray, hopBytes, items, itemBytes]
  rw [fnv1a64_eq, bytes, feed_append, start, feed_append, feed_poolName]
  rfl

/-- The first `n` states after `h` all pass the test. -/
def orbitPasses (test : UInt64 → Bool) : Nat → UInt64 → Bool
  | 0, _ => true
  | n + 1, h =>
      let next := fnvStep h 97
      test next && orbitPasses test n next

theorem test_of_orbitPasses {test : UInt64 → Bool} {n i : Nat} {h : UInt64}
    (passes : orbitPasses test n h = true) (inside : i < n) :
    test ((fun h => fnvStep h 97)^[i + 1] h) = true := by
  induction n generalizing h i with
  | zero => omega
  | succ n ih =>
      rw [orbitPasses, Bool.and_eq_true] at passes
      rw [Function.iterate_succ_apply]
      cases i with
      | zero => exact passes.1
      | succ i => exact ih passes.2 (by omega)

set_option maxRecDepth 20000 in
/-- The states do not return to the first one for a long time. -/
theorem poolStart_not_repeated : orbitPasses (· != poolStart) 4000 poolStart = true := by
  decide

/-- Pool plans have distinct signatures. -/
theorem routeSig_poolPlan_inj {i j : Nat} (short : i ≤ 4000) (short' : j ≤ 4000)
    (same : routeSig (poolPlan i) = routeSig (poolPlan j)) : i = j := by
  have ordered : ∀ {i j : Nat}, i < j → j ≤ 4000 →
      routeSig (poolPlan i) ≠ routeSig (poolPlan j) := by
    intro i j before short same
    have states := fnv1a64_eq_of_routeSig_eq same
    rw [fnv1a64_poolPlan, fnv1a64_poolPlan] at states
    have iterates := fnvStep_injective 59 states
    obtain ⟨k, rfl⟩ := Nat.exists_eq_add_of_lt before
    rw [show i + k + 1 = i + (k + 1) by omega, Function.iterate_add_apply] at iterates
    have returned := (fnvStep_injective 97).iterate i iterates
    have passed := test_of_orbitPasses poolStart_not_repeated (i := k) (by omega)
    rw [← returned, bne_self_eq_false] at passed
    cases passed
  rcases Nat.lt_trichotomy i j with before | rfl | after
  · exact (ordered before short' same).elim
  · rfl
  · exact (ordered after short same.symm).elim

/-- The pool plans of the given numbers. -/
def poolPlans (start count : Nat) : List Json :=
  (List.range' start count).map poolPlan

theorem length_poolPlans (start count : Nat) : (poolPlans start count).length = count := by
  rw [poolPlans, List.length_map, List.length_range']

theorem nodup_poolPlans {start count : Nat} (short : start + count ≤ 4001) :
    ((poolPlans start count).map routeSig).Nodup := by
  rw [poolPlans, List.map_map]
  refine List.Nodup.map_on ?_ List.nodup_range'
  intro i member j member' same
  rw [List.mem_range'_1] at member member'
  exact routeSig_poolPlan_inj (by omega) (by omega) same

theorem mem_poolPlans {start count : Nat} {sig : U128} :
    sig ∈ (poolPlans start count).map routeSig ↔
      ∃ n, start ≤ n ∧ n < start + count ∧ routeSig (poolPlan n) = sig := by
  simp only [poolPlans, List.mem_map, List.map_map, List.mem_range'_1, Function.comp, and_assoc]

/-- A plan whose first pass ends in a state the pool plans do not reach. -/
theorem routeSig_poolPlan_ne {routePlan : Json} {state : UInt64} {n : Nat}
    (ends : fnv1a64 routePlan 0xcbf29ce484222325 = state)
    (first : fnvStep poolStart 59 ≠ state)
    (later : orbitPasses (fun h => fnvStep h 59 != state) 4000 poolStart = true)
    (short : n ≤ 4000) : routeSig (poolPlan n) ≠ routeSig routePlan := by
  intro same
  have reaches := fnv1a64_eq_of_routeSig_eq same
  rw [fnv1a64_poolPlan, ends] at reaches
  cases n with
  | zero => exact first reaches
  | succ n =>
      have passed := test_of_orbitPasses later (i := n) (by omega)
      simp only [reaches, bne_self_eq_false] at passed
      cases passed

/-! ## Filling the hot segment -/

/-- Captures of bare answers. -/
def World.capture (w : World) (plans : List Json) : World :=
  w.insertAll Base64.standard (bareService.respond Base64.standard () 5 (onChainFloor 5)) 5 plans

/-- Captures of so many pool plans and of one more. -/
def World.refill (w : World) (start count : Nat) : World :=
  (w.capture (poolPlans start count)).capture [poolPlan (start + count)]

theorem reach_capture {w : World} {plans : List Json}
    (reached : (storeMachine Base64.standard).Reach Machine.anyStep w) :
    (storeMachine Base64.standard).Reach Machine.anyStep (w.capture plans) :=
  reach_insertAll (fun _ _ _ => trivial) reached

theorem reach_refill {w : World} {start count : Nat}
    (reached : (storeMachine Base64.standard).Reach Machine.anyStep w) :
    (storeMachine Base64.standard).Reach Machine.anyStep (w.refill start count) :=
  reach_capture (reach_capture reached)

theorem hopPairIndex_refill (w : World) (start count : Nat) (key : String) :
    (w.refill start count).store.hopPairIndex[key]? = w.store.hopPairIndex[key]? := by
  have unpaired : ∀ {w : World} {numbers : List Nat},
      (w.capture (numbers.map poolPlan)).store.hopPairIndex[key]? =
        w.store.hopPairIndex[key]? := by
    intro w numbers
    refine hopPairIndex_insertAll ?_ key
    intro routePlan member
    rcases List.mem_map.mp member with ⟨n, -, rfl⟩
    exact pairKey_poolPlan n
  exact (@unpaired _ [start + count]).trans unpaired

/-- The hot segment is filled up and becomes the cold one. -/
theorem Layout.refill {w : World} {hot cold : List U128} {start count : Nat}
    (layout : Layout w hot cold) (short : start + count ≤ 4000)
    (full : hot.length + count = routeSegCap)
    (fresh : ∀ n, start ≤ n → n ≤ start + count →
      ¬ (routeSig (poolPlan n) ∈ hot ∨ routeSig (poolPlan n) ∈ cold)) :
    Layout (w.refill start count) [routeSig (poolPlan (start + count))]
      (((poolPlans start count).map routeSig).reverse ++ hot) := by
  have filled : Layout (w.capture (poolPlans start count))
      (((poolPlans start count).map routeSig).reverse ++ hot) cold := by
    refine layout.insertAll (nodup_poolPlans (by omega)) ?_ ?_
    · intro sig member
      rcases mem_poolPlans.mp member with ⟨n, first, before, rfl⟩
      exact fresh n first (by omega)
    · rw [length_poolPlans, full]
  refine filled.insert_full ?_ ?_
  · intro held
    have last := fresh (start + count) (Nat.le_add_right _ _) (Nat.le_refl _)
    rcases held with inHot | inCold
    · rcases List.mem_append.mp inHot with inPlans | inHot
      · rcases mem_poolPlans.mp (List.mem_reverse.mp inPlans) with ⟨n, first, before, same⟩
        have equal := routeSig_poolPlan_inj (by omega) (by omega) same
        omega
      · exact last (Or.inl inHot)
    · exact last (Or.inr inCold)
  · rw [List.length_append, List.length_reverse, List.length_map, length_poolPlans, ← full]
    exact Nat.le_of_eq (Nat.add_comm _ _)

end ArbBot
