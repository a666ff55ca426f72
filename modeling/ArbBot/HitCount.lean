import ArbBot.Concurrent.Sections
import ArbBot.Pipeline.Funnel
import ArbBot.Pipeline.Request
import ArbBot.TierTwo.Completeness

/-!
# What `hit_count` counts

`HitBooks` keeps beside the store what the counters stand for: the `hit_count` with which a
template entered the store and the instructions from it that were served since. A run is
any requests of the scan loop with any calls of other tasks between them.

`record_route_hit` counts a served instruction (`counted_recordRouteHit_iff`), but a lookup
that promotes a cold template counts too, whether the template serves or not. So a run keeps
the count just when no request looks up a cold signature (`countsHits_iff`).
-/

namespace ArbBot

open Foundation

/-! ## What a request counts -/

/-- Each counter is what it entered with and the served instructions since. -/
def Counted (entered : U128 → UInt64) (served : U128 → Nat) (g : StoreInner) : Prop :=
  ∀ sig t, g.segments.find sig = some t → t.hitCount = entered sig + UInt64.ofNat (served sig)

/-- The served instructions after a request. -/
def book (served : U128 → Nat) : Option Served → U128 → Nat
  | none => served
  | some s =>
      Function.update served s.template.routeSignature (served s.template.routeSignature + 1)

/-- Tier 1 serves from the hot segment. -/
def ServesHot (codec : TextCodec) (g : StoreInner) (routePlan : Json) (amount : UInt64) : Prop :=
  ∃ tmpl patched, g.routesHot[routeSig routePlan]? = some tmpl ∧
    serveRoute codec tmpl amount (onChainFloor amount) = .ok (some patched)

/-- No signature that the request looks up is cold: the one of the plan, and the index
entry of its hops when Tier 1 does not serve and all hops are known. -/
def HotLookups (cfg : Settings) (g : StoreInner) (routePlan : Json) (amount : UInt64) : Prop :=
  cfg.serveRoute → routeSig routePlan ∉ g.routesCold ∧
    (¬ ServesHot cfg.codec g routePlan amount → (checkHops g routePlan).1 →
      ∀ sig, (pairKey routePlan).bind (g.hopPairIndex[·]?) = some sig → sig ∉ g.routesCold)

theorem ofNat_succ (n : Nat) : UInt64.ofNat (n + 1) = UInt64.ofNat n + 1 := UInt64.ofNat_add n 1

section Counts

variable {cfg : Settings} {codec : TextCodec} {entered : U128 → UInt64} {counts : U128 → Nat}
  {g g' : StoreInner} {sig key : U128} {tmpl : RouteTemplate} {served : Option Served}
  {routePlan : Json} {amount : UInt64}

/-- `record_route_hit` counts one served instruction. -/
theorem counted_recordRouteHit_iff :
    Counted entered (Function.update counts sig (counts sig + 1)) (recordRouteHit g sig) ↔
      Counted entered counts g := by
  rw [recordRouteHit_eq]
  unfold Counted
  simp only [StoreInner.segments_withSegments, Segments.find_update, beq_iff_eq]
  constructor
  · intro after key t found
    have counted := after key
    by_cases same : sig = key
    · subst same
      have hit := counted t.hit (by rw [if_pos rfl, found]; rfl)
      rw [Function.update_self, ofNat_succ, ← UInt64.add_assoc] at hit
      exact (UInt64.add_left_inj _).mp hit
    · rw [if_neg same, Function.update_of_ne (Ne.symm same)] at counted
      exact counted t found
  · intro before key t' found
    by_cases same : sig = key
    · subst same
      rw [if_pos rfl] at found
      rcases Option.map_eq_some_iff.mp found with ⟨t, old, rfl⟩
      rw [Function.update_self, ofNat_succ, ← UInt64.add_assoc, ← before sig t old]
      rfl
    · rw [if_neg same] at found
      rw [Function.update_of_ne (Ne.symm same)]
      exact before key t' found

/-- A lookup that does not promote changes nothing. -/
theorem getRoute_of_notMem_cold (notCold : sig ∉ g.routesCold) :
    getRoute g sig = (g.routesHot[sig]?, g) := by
  have unchanged : g.segments.fetch routeSegCap sig RouteTemplate.hit =
      (g.routesHot[sig]?, g.segments) := Segments.fetch_of_notMem_cold notCold
  rw [getRoute_eq, unchanged]
  rfl

/-- A lookup that promotes counts a hit that no instruction stands for. -/
theorem promoted_ahead (disjoint : g.segments.Disjoint) (before : Counted entered counts g)
    (cold : sig ∈ g.routesCold) :
    ∃ t, (getRoute g sig).2.routesHot[sig]? = some t ∧
      t.hitCount ≠ entered sig + UInt64.ofNat (counts sig) := by
  have notHot : sig ∉ g.segments.hot := fun hot => disjoint sig hot cold
  obtain ⟨t, inCold⟩ := Option.isSome_iff_exists.mp (Std.HashMap.mem_iff_isSome_getElem?.mp cold)
  have found : g.segments.find sig = some t :=
    (Segments.find_eq_some_iff disjoint).mpr (Or.inr inCold)
  refine ⟨t.hit, ?_, ?_⟩
  · rw [getRoute_eq]
    exact Segments.getElem?_hot_fetch_of_cold notHot inCold
  · rw [← before sig t found]
    show t.hitCount + 1 ≠ t.hitCount
    simp

/-- An uncounted hit stays through another lookup. -/
theorem not_counted_getRoute (hot : g.routesHot[sig]? = some tmpl)
    (ahead : tmpl.hitCount ≠ entered sig + UInt64.ofNat (counts sig)) :
    ¬ Counted entered counts (getRoute g key).2 := by
  intro counted
  refine ahead (counted sig tmpl ?_)
  rw [getRoute_eq]
  exact Segments.find_fetch_of_hot hot

theorem not_counted_of_hot (hot : g.routesHot[sig]? = some tmpl)
    (ahead : tmpl.hitCount ≠ entered sig + UInt64.ofNat (counts sig)) :
    ¬ Counted entered counts g := by
  intro counted
  refine ahead (counted sig tmpl ?_)
  have inHot : g.segments.hot[sig]? = some tmpl := hot
  rw [Segments.find, inHot]

theorem counted_getRoute_iff (disjoint : g.segments.Disjoint)
    (before : Counted entered counts g) :
    Counted entered counts (getRoute g sig).2 ↔ sig ∉ g.routesCold := by
  constructor
  · intro after cold
    rcases promoted_ahead disjoint before cold with ⟨t, hot, ahead⟩
    exact not_counted_of_hot hot ahead after
  · intro notCold
    rw [getRoute_of_notMem_cold notCold]
    exact before

/-- What is served after a lookup is counted. -/
theorem counted_serveFound_iff {signature : RouteTemplate → U128}
    {found : Option RouteTemplate × StoreInner}
    (keyed : ∀ t, found.1 = some t → t.routeSignature = signature t)
    (ran : serveFound codec amount signature found = some (served, g')) :
    Counted entered (book counts served) g' ↔ Counted entered counts found.2 := by
  rcases serveFound_cases ran with ⟨rfl, rfl⟩ | ⟨t, patched, looked, -, rfl, rfl⟩
  · exact Iff.rfl
  · rw [book, ← keyed t looked]
    exact counted_recordRouteHit_iff

theorem routeSignature_getRoute (keyed : g.segments.All fun sig t => t.routeSignature = sig)
    (found : (getRoute g sig).1 = some tmpl) : tmpl.routeSignature = sig := by
  rw [getRoute_eq] at found
  rcases Segments.fetch_fst found with holds | ⟨t, holds, rfl⟩
  · exact keyed sig tmpl holds
  · exact keyed sig t holds

theorem counted_tierOne_iff (keyed : g.segments.All fun sig t => t.routeSignature = sig)
    (disjoint : g.segments.Disjoint) (before : Counted entered counts g)
    (ran : tierOne cfg g routePlan amount = some (served, g')) :
    Counted entered (book counts served) g' ↔
      (cfg.serveRoute → routeSig routePlan ∉ g.routesCold) := by
  unfold tierOne at ran
  split at ran
  · rename_i enabled
    rw [counted_serveFound_iff (fun t found => routeSignature_getRoute keyed found) ran,
      counted_getRoute_iff disjoint before]
    exact ⟨fun notCold _ => notCold, fun notCold => notCold enabled⟩
  · rename_i disabled
    cases ran
    exact iff_of_true before fun enabled => (disabled enabled).elim

/-- The store of a Tier-2 lookup: nothing is looked up, or the index entry is. -/
theorem tierTwo_cases (ran : tierTwo cfg g routePlan amount = some (served, g')) :
    (served = none ∧ g' = g ∧ ((checkHops g routePlan).1 → cfg.serveRoute →
        (pairKey routePlan).bind (g.hopPairIndex[·]?) = none)) ∨
      ∃ sig, (checkHops g routePlan).1 ∧ cfg.serveRoute ∧
        (pairKey routePlan).bind (g.hopPairIndex[·]?) = some sig ∧
          serveFound cfg.codec amount RouteTemplate.routeSignature (getRoute g sig) =
            some (served, g') := by
  unfold tierTwo at ran
  split at ran
  · rename_i both
    rw [Bool.and_eq_true] at both
    rw [getRouteForHops_eq] at ran
    cases entry : (pairKey routePlan).bind (g.hopPairIndex[·]?) with
    | none =>
        rw [entry] at ran
        cases ran
        exact Or.inl ⟨rfl, rfl, fun _ _ => rfl⟩
    | some sig =>
        rw [entry] at ran
        exact Or.inr ⟨sig, both.1, both.2, rfl, ran⟩
  · rename_i notBoth
    cases ran
    refine Or.inl ⟨rfl, rfl, fun known enabled => ?_⟩
    rw [known, enabled] at notBoth
    exact (notBoth rfl).elim

theorem counted_tierTwo_iff (disjoint : g.segments.Disjoint) (before : Counted entered counts g)
    (ran : tierTwo cfg g routePlan amount = some (served, g')) :
    Counted entered (book counts served) g' ↔
      ((checkHops g routePlan).1 → cfg.serveRoute → ∀ sig,
        (pairKey routePlan).bind (g.hopPairIndex[·]?) = some sig → sig ∉ g.routesCold) := by
  rcases tierTwo_cases ran with ⟨rfl, rfl, noEntry⟩ | ⟨sig, known, enabled, entry, looked⟩
  · refine iff_of_true before fun known enabled sig entry => ?_
    rw [noEntry known enabled] at entry
    cases entry
  · rw [counted_serveFound_iff (fun _ _ => rfl) looked, counted_getRoute_iff disjoint before]
    constructor
    · intro notCold _ _ other found
      rw [entry] at found
      exact Option.some.inj found ▸ notCold
    · intro notCold
      exact notCold known enabled sig entry

/-- Tier 2 does not make up for an uncounted hit. -/
theorem not_counted_tierTwo (hot : g.routesHot[sig]? = some tmpl)
    (ahead : tmpl.hitCount ≠ entered sig + UInt64.ofNat (counts sig))
    (ran : tierTwo cfg g routePlan amount = some (served, g')) :
    ¬ Counted entered (book counts served) g' := by
  rcases tierTwo_cases ran with ⟨rfl, rfl, -⟩ | ⟨key, -, -, -, looked⟩
  · exact not_counted_of_hot hot ahead
  · rw [counted_serveFound_iff (fun _ _ => rfl) looked]
    exact not_counted_getRoute hot ahead

/-- Tier 1 serves a template that is not cold from the hot segment. -/
theorem servesHot_iff_of_tierOne (enabled : cfg.serveRoute)
    (notCold : routeSig routePlan ∉ g.routesCold)
    (ran : tierOne cfg g routePlan amount = some (served, g')) :
    ServesHot cfg.codec g routePlan amount ↔ served.isSome := by
  rw [tierOne, if_pos enabled, getRoute_of_notMem_cold notCold] at ran
  rcases serveFound_cases ran with ⟨rfl, rfl⟩ | ⟨t, patched, looked, answered, rfl, -⟩
  · refine iff_of_false ?_ (by simp)
    intro given
    rcases given with ⟨t, patched, hot, answered⟩
    simp only [serveFound, hot, answered] at ran
    cases ran
  · exact iff_of_true ⟨t, patched, looked, answered⟩ rfl

/-- Where Tier 1 does not serve, Tier 2 goes on with the store of its lookup. -/
theorem store_of_tierOne (enabled : cfg.serveRoute)
    (ran : tierOne cfg g routePlan amount = some (none, g')) :
    g' = (getRoute g (routeSig routePlan)).2 := by
  rw [tierOne, if_pos enabled] at ran
  rcases serveFound_cases ran with ⟨-, same⟩ | ⟨t, patched, -, -, impossible, -⟩
  · exact same
  · cases impossible

/-- **The count of a request** is kept just when it looks up no cold signature. -/
theorem counted_scanTiers_iff (keyed : g.segments.All fun sig t => t.routeSignature = sig)
    (disjoint : g.segments.Disjoint) (before : Counted entered counts g)
    (ran : scanTiers cfg g routePlan amount = some (served, g')) :
    Counted entered (book counts served) g' ↔ HotLookups cfg g routePlan amount := by
  rcases scanTiers_cases ran with ⟨s, rfl, first⟩ | ⟨g₁, first, second⟩
  · rw [counted_tierOne_iff keyed disjoint before first]
    refine forall_congr' fun enabled => ?_
    refine (and_iff_left_of_imp fun notCold notServed => ?_).symm
    exact (notServed ((servesHot_iff_of_tierOne enabled notCold first).mpr rfl)).elim
  · by_cases enabled : cfg.serveRoute
    · obtain rfl := store_of_tierOne enabled first
      by_cases cold : routeSig routePlan ∈ g.routesCold
      · rcases promoted_ahead disjoint before cold with ⟨t, hot, ahead⟩
        exact iff_of_false (not_counted_tierTwo hot ahead second) fun hotOnly =>
          (hotOnly enabled).1 cold
      · have notServed : ¬ ServesHot cfg.codec g routePlan amount := by
          rw [servesHot_iff_of_tierOne enabled cold first]
          simp
        rw [getRoute_of_notMem_cold cold] at second
        rw [counted_tierTwo_iff disjoint before second]
        constructor
        · intro notCold _
          exact ⟨cold, fun _ known => notCold known enabled⟩
        · intro hotOnly known _
          exact (hotOnly enabled).2 notServed known
    · rw [tierOne, if_neg enabled] at first
      cases first
      rw [counted_tierTwo_iff disjoint before second]
      exact iff_of_true (fun _ on => (enabled on).elim) fun on => (enabled on).elim

/-- What every lookup and every recorded hit keeps, a request keeps. -/
theorem scanTiers_keeps {P : StoreInner → Prop}
    (onLookup : ∀ g sig, P g → P (getRoute g sig).2)
    (onHit : ∀ g sig, P g → P (recordRouteHit g sig)) (before : P g)
    (ran : scanTiers cfg g routePlan amount = some (served, g')) : P g' := by
  have onServe : ∀ {signature : RouteTemplate → U128} {g : StoreInner} {key : U128}
      {served : Option Served} {g' : StoreInner}, P g →
      serveFound cfg.codec amount signature (getRoute g key) = some (served, g') → P g' := by
    intro signature g key served g' before ran
    rcases serveFound_cases ran with ⟨-, rfl⟩ | ⟨t, patched, -, -, -, rfl⟩
    · exact onLookup g key before
    · exact onHit _ _ (onLookup g key before)
  have first : ∀ {served : Option Served} {g' : StoreInner},
      tierOne cfg g routePlan amount = some (served, g') → P g' := by
    intro served g' ran
    unfold tierOne at ran
    split at ran
    · exact onServe before ran
    · cases ran
      exact before
  rcases scanTiers_cases ran with ⟨s, -, only⟩ | ⟨g₁, looked, second⟩
  · exact first only
  · rcases tierTwo_cases second with ⟨-, rfl, -⟩ | ⟨sig, -, -, -, answered⟩
    · exact first looked
    · exact onServe (first looked) answered

end Counts

/-! ## Runs -/

/-- The store with what its counters stand for. -/
structure HitBooks where
  world : World
  /-- The `hit_count` with which the template of a signature entered the store. -/
  entered : U128 → UInt64
  /-- The instructions from it that were served since. -/
  served : U128 → Nat

/-- A request of the scan loop, or a call of another task between two requests. -/
inductive HitStep where
  | request (routePlan : Json) (amount : UInt64)
  | between (call : StoreCall)

/-- Not one of the calls of the scan loop. -/
def StoreCall.Outside : StoreCall → Prop
  | .getRoute _ | .getRouteForHops _ | .recordRouteHit _ => False
  | _ => True

namespace HitBooks

def CountsHits (b : HitBooks) : Prop := Counted b.entered b.served b.world.store

def initial : HitBooks where
  world := .initial
  entered _ := 0
  served _ := 0

/-- Another store, in which new templates start a count. -/
def enter (b : HitBooks) (w : World) : HitBooks where
  world := w
  entered sig :=
    match b.world.store.segments.find sig, w.store.segments.find sig with
    | none, some t => t.hitCount
    | _, _ => b.entered sig
  served sig :=
    match b.world.store.segments.find sig, w.store.segments.find sig with
    | none, some _ => 0
    | _, _ => b.served sig

/-- The store after a request and what it served. -/
def serve (b : HitBooks) (served : Option Served) (g : StoreInner) : HitBooks where
  world := { b.world with store := g }
  entered := b.entered
  served := book b.served served

end HitBooks

def hitStep (cfg : Settings) (b : HitBooks) : HitStep → HitBooks → Prop
  | .request routePlan amount, b' =>
      ∃ served g, scanTiers cfg b.world.store routePlan amount = some (served, g) ∧
        b' = b.serve served g
  | .between call, b' =>
      call.Outside ∧ ∃ w, storeStep cfg.codec b.world call w ∧ b' = b.enter w

/-- Any requests, with any calls between them, from the first process on. -/
def hitMachine (cfg : Settings) : Machine HitBooks HitStep where
  start b := b = .initial
  step := hitStep cfg

/-- The lookups of a request are hot. -/
def RequestsHot (cfg : Settings) (b : HitBooks) : HitStep → Prop
  | .request routePlan amount => HotLookups cfg b.world.store routePlan amount
  | .between _ => True

section Step

variable {cfg : Settings} {b b' : HitBooks} {label : HitStep}

/-- Calls of other tasks keep the count of a live template. -/
theorem hitCount_of_outside {codec : TextCodec} {w w' : World} {call : StoreCall} {sig : U128}
    {t t' : RouteTemplate} (outside : call.Outside) (taken : storeStep codec w call w')
    (before : w.store.segments.find sig = some t)
    (after : w'.store.segments.find sig = some t') : t'.hitCount = t.hitCount := by
  rw [segments_of_step taken] at after
  have unchanged : w.store.segments.find sig = some t' → t'.hitCount = t.hitCount := by
    intro same
    rw [before] at same
    rw [Option.some.inj same]
  cases call with
  | insertRoute routePlan swapIxs inAmount =>
      simp only [nextSegments] at after
      cases old : w.store.segments.find (routeSig routePlan) with
      | some t₀ =>
          rw [old] at after
          simp only [Segments.find_update, beq_iff_eq] at after
          split at after
          · rename_i same
            rw [same, before, Option.map_some] at after
            rw [← Option.some.inj after]
            rfl
          · exact unchanged after
      | none =>
          rw [old] at after
          refine unchanged (Segments.find_of_push ?_ after)
          rintro rfl
          rw [before] at old
          cases old
  | load =>
      simp only [nextSegments] at after
      cases disk : w.disk with
      | none =>
          rw [disk] at after
          exact unchanged after
      | some file =>
          rw [disk] at after
          simp only [Segments.find_fillAll, before] at after
          exact unchanged (before.trans after)
  | restart =>
      have empty : StoreInner.new.segments.find sig = none :=
        Segments.find_eq_none_iff.mpr (not_live_initial sig)
      simp only [nextSegments, empty] at after
      cases after
  | recordHops _ _ => exact unchanged after
  | flush _ => exact unchanged after
  | getRoute _ => exact outside.elim
  | getRouteForHops _ => exact outside.elim
  | recordRouteHit _ => exact outside.elim

theorem countsHits_enter {codec : TextCodec} {w : World} {call : StoreCall}
    (before : b.CountsHits) (outside : call.Outside) (taken : storeStep codec b.world call w) :
    (b.enter w).CountsHits := by
  intro sig t' after
  have found : w.store.segments.find sig = some t' := after
  simp only [HitBooks.enter]
  cases old : b.world.store.segments.find sig with
  | none =>
      simp only [found]
      exact (UInt64.add_zero _).symm
  | some t =>
      rw [hitCount_of_outside outside taken old found]
      exact before sig t old

/-- What the count of a request rests on. -/
structure HitBooks.Sound (b : HitBooks) : Prop where
  keyed : b.world.store.segments.All fun sig t => t.routeSignature = sig
  disjoint : b.world.store.segments.Disjoint

theorem HitBooks.Sound.step (sound : b.Sound) (taken : hitStep cfg b label b') : b'.Sound := by
  cases label with
  | request routePlan amount =>
      rcases taken with ⟨served, g, ran, rfl⟩
      constructor
      · refine scanTiers_keeps (P := fun g => g.segments.All fun sig t => t.routeSignature = sig)
          ?_ ?_ sound.keyed ran
        · intro g sig keyed
          rw [getRoute_eq]
          exact keyed.fetch fun t same => same
        · intro g sig keyed
          rw [recordRouteHit_eq]
          exact keyed.update fun t found => keyed sig t (Segments.holds_of_find found)
      · refine scanTiers_keeps (P := fun g => g.segments.Disjoint) ?_ ?_ sound.disjoint ran
        · intro g sig disjoint
          rw [getRoute_eq]
          exact disjoint.fetch
        · intro g sig disjoint
          rw [recordRouteHit_eq]
          exact disjoint.update
  | between call =>
      rcases taken with ⟨-, w, called, rfl⟩
      exact ⟨keyed_of_step sound.keyed called, disjoint_of_step sound.disjoint called⟩

theorem sound_initial : HitBooks.initial.Sound where
  keyed := all_initial _
  disjoint := Segments.disjoint_new

theorem countsHits_initial : HitBooks.initial.CountsHits := by
  intro sig t found
  exact (not_live_initial sig (Segments.holds_of_find found).live).elim

theorem countsHits_step_iff (sound : b.Sound) (before : b.CountsHits)
    (taken : hitStep cfg b label b') : b'.CountsHits ↔ RequestsHot cfg b label := by
  cases label with
  | request routePlan amount =>
      rcases taken with ⟨served, g, ran, rfl⟩
      exact counted_scanTiers_iff sound.keyed sound.disjoint before ran
  | between call =>
      rcases taken with ⟨outside, w, called, rfl⟩
      exact iff_of_true (countsHits_enter before outside called) trivial

end Step

/-- **When `hit_count` counts served requests.** In a run of requests with any calls of other
tasks between them, every live template counts the instructions from it that were served
since it entered the store just when no request looks up a cold signature. -/
theorem countsHits_iff {cfg : Settings} {b : HitBooks} {steps : List (Machine.Entry _ _)}
    (trace : (hitMachine cfg).Trace HitBooks.initial steps b) :
    (∀ entry ∈ steps, entry.after.CountsHits) ↔
      ∀ entry ∈ steps, RequestsHot cfg entry.before entry.label :=
  Machine.Trace.all_iff HitBooks.Sound HitBooks.CountsHits
    (fun _ _ _ sound taken => sound.step taken)
    (fun _ _ _ sound before taken => countsHits_step_iff sound before taken) trace
    sound_initial countsHits_initial

/-! ### A cold hit

One capture is served while it is hot, and again after a rotation. -/

/-- Captures of bare answers, none of them served yet. -/
structure HitBooks.Fresh (b : HitBooks) : Prop where
  reached : (hitMachine twoWorkers).Reach Machine.anyStep b
  counts : b.CountsHits
  unserved : ∀ sig, b.served sig = 0
  templates : b.world.store.segments.All fun _ t => t.hitCount = 0 ∧ 5 ∈ t.amountVariants

theorem fresh_initial : HitBooks.initial.Fresh where
  reached := .ofStart rfl
  counts := countsHits_initial
  unserved _ := rfl
  templates := all_initial _

theorem step_capture (b : HitBooks) (routePlan : Json) :
    (hitMachine twoWorkers).step b (.between (.insertRoute routePlan
      (bareService.respond Base64.standard () 5 (onChainFloor 5)) 5))
      (b.enter (b.world.capture [routePlan])) := ⟨trivial, _, rfl, rfl⟩

theorem HitBooks.Fresh.capture {b : HitBooks} (fresh : b.Fresh) (routePlan : Json) :
    (b.enter (b.world.capture [routePlan])).Fresh where
  reached := fresh.reached.step (i := .between _) trivial (step_capture b routePlan)
  counts := by
    rcases step_capture b routePlan with ⟨outside, w, called, same⟩
    rw [same]
    exact countsHits_enter fresh.counts outside called
  unserved sig := by
    simp only [HitBooks.enter]
    split
    · rfl
    · exact fresh.unserved sig
  templates := by
    have called : storeStep Base64.standard b.world (.insertRoute routePlan
        (bareService.respond Base64.standard () 5 (onChainFloor 5)) 5)
        (b.world.capture [routePlan]) := rfl
    show (b.world.capture [routePlan]).store.segments.All _
    rw [segments_of_step called]
    simp only [nextSegments]
    cases found : b.world.store.segments.find (routeSig routePlan) with
    | some t =>
        refine fresh.templates.update fun t₀ old => ?_
        have before := fresh.templates _ t₀ (Segments.holds_of_find old)
        exact ⟨before.1, Std.HashMap.mem_insertIfNew.mpr (Or.inr before.2)⟩
    | none => exact fresh.templates.push ⟨rfl, Std.HashMap.mem_insert_self⟩

theorem HitBooks.Fresh.captureAll {b : HitBooks} (fresh : b.Fresh) (plans : List Json) :
    ∃ b' : HitBooks, b'.Fresh ∧ b'.world = b.world.capture plans := by
  induction plans generalizing b with
  | nil => exact ⟨b, fresh, rfl⟩
  | cons routePlan rest ih => exact ih (fresh.capture routePlan)

/-- A template with a variant of the amount serves in Tier 1. -/
theorem tierOne_of_variant {g : StoreInner} {routePlan : Json} {t : RouteTemplate}
    {amount : UInt64} (looked : (getRoute g (routeSig routePlan)).1 = some t)
    (variant : amount ∈ t.amountVariants) :
    ∃ patched, tierOne twoWorkers g routePlan amount =
      some (some { template := t, instruction := patched },
        recordRouteHit (getRoute g (routeSig routePlan)).2 (routeSig routePlan)) := by
  obtain ⟨patched, cached⟩ :=
    Option.isSome_iff_exists.mp (Std.HashMap.mem_iff_isSome_getElem?.mp variant)
  have answered : serveRoute twoWorkers.codec t amount (onChainFloor amount) =
      .ok (some patched) := serveRoute_eq_ok_some_iff.mpr (Or.inl cached)
  have enabled : twoWorkers.serveRoute = true := rfl
  exact ⟨patched, by simp only [tierOne, enabled, if_true, serveFound, looked, answered]⟩

theorem step_served {b : HitBooks} {routePlan : Json} {amount : UInt64} {s : Served}
    {g : StoreInner}
    (first : tierOne twoWorkers b.world.store routePlan amount = some (some s, g)) :
    (hitMachine twoWorkers).step b (.request routePlan amount) (b.serve (some s) g) :=
  ⟨some s, g, by rw [scanTiers, first], rfl⟩

theorem served_serve {b : HitBooks} {s : Served} {g : StoreInner} {sig : U128}
    (keyed : s.template.routeSignature = sig) :
    (b.serve (some s) g).served sig = b.served sig + 1 := by
  subst keyed
  exact Function.update_self ..

/-- The capture is served while it is hot. -/
theorem countsHits_captured :
    ∃ b steps, (hitMachine twoWorkers).Trace HitBooks.initial steps b ∧ b.CountsHits ∧
      b.served (routeSig (circularPlan "Raydium")) = 1 := by
  have looked : (getRoute raydiumWorld.store (routeSig (circularPlan "Raydium"))).1 =
      some (newTemplate Base64.standard (routeSig (circularPlan "Raydium"))
        (bareService.respond Base64.standard () 5 (onChainFloor 5)) 5 (onChainFloor 5)) :=
    getRoute_insertRoute_fresh (not_live_initial _)
  have notCold : routeSig (circularPlan "Raydium") ∉ raydiumWorld.store.routesCold := by
    rw [layout_raydiumWorld.mem_cold]
    exact List.not_mem_nil
  have variant : 5 ∈ (newTemplate Base64.standard (routeSig (circularPlan "Raydium"))
      (bareService.respond Base64.standard () 5 (onChainFloor 5)) 5
        (onChainFloor 5)).amountVariants := Std.HashMap.mem_insert_self
  rcases tierOne_of_variant looked variant with ⟨patched, first⟩
  have served : ServesHot twoWorkers.codec raydiumWorld.store (circularPlan "Raydium") 5 :=
    (servesHot_iff_of_tierOne rfl notCold first).mpr rfl
  have captured := step_capture HitBooks.initial (circularPlan "Raydium")
  have requested := step_served (b := HitBooks.initial.enter raydiumWorld) first
  have trace := ((Machine.Trace.nil _).snoc captured).snoc requested
  refine ⟨_, _, trace, (countsHits_iff trace).mpr ?_ _
    (List.mem_append_right _ (List.mem_singleton_self _)), ?_⟩
  · have hot : HotLookups twoWorkers raydiumWorld.store (circularPlan "Raydium") 5 :=
      fun _ => ⟨notCold, fun notServed => (notServed served).elim⟩
    refine List.forall_mem_append.mpr ⟨?_, List.forall_mem_singleton.mpr hot⟩
    exact List.forall_mem_singleton.mpr trivial
  · have unserved := (fresh_initial.capture (circularPlan "Raydium")).unserved
    exact (served_serve rfl).trans (congrArg (· + 1) (unserved _))

/-- A cold template with a variant of the amount is promoted and served. -/
theorem step_promoted {b : HitBooks} {routePlan : Json} (fresh : b.Fresh)
    (disjoint : b.world.store.segments.Disjoint)
    (keyed : b.world.store.segments.All fun sig t => t.routeSignature = sig)
    (cold : routeSig routePlan ∈ b.world.store.routesCold) :
    ∃ b' t, (hitMachine twoWorkers).step b (.request routePlan 5) b' ∧
      b'.world.store.segments.find (routeSig routePlan) = some t ∧ t.hitCount = 2 ∧
      b'.entered (routeSig routePlan) = 0 ∧ b'.served (routeSig routePlan) = 1 := by
  obtain ⟨t, inCold⟩ := Option.isSome_iff_exists.mp (Std.HashMap.mem_iff_isSome_getElem?.mp cold)
  have holds : b.world.store.segments.Holds (routeSig routePlan) t := Or.inr inCold
  have found : b.world.store.segments.find (routeSig routePlan) = some t :=
    (Segments.find_eq_some_iff disjoint).mpr holds
  have promoted : (getRoute b.world.store (routeSig routePlan)).1 = some t.hit := by
    have hot : (b.world.store.segments.fetch routeSegCap (routeSig routePlan)
        RouteTemplate.hit).2.hot[routeSig routePlan]? = some t.hit :=
      Segments.getElem?_hot_fetch_of_cold (fun inHot => disjoint _ inHot cold) inCold
    rw [getRoute_eq, ← Segments.find_fetch_self, Segments.find, hot]
  rcases fresh.templates _ t holds with ⟨unhit, variant⟩
  rcases tierOne_of_variant promoted variant with ⟨patched, first⟩
  refine ⟨_, t.hit.hit, step_served first, ?_, ?_, ?_, ?_⟩
  · show (recordRouteHit (getRoute b.world.store _).2 _).segments.find _ = _
    rw [recordRouteHit_eq, StoreInner.segments_withSegments, Segments.find_update, if_pos BEq.rfl]
    rw [getRoute_eq] at promoted ⊢
    rw [StoreInner.segments_withSegments, Segments.find_fetch_self, promoted]
    rfl
  · show t.hitCount + 1 + 1 = 2
    rw [unhit]
    rfl
  · have counted := fresh.counts _ t found
    rw [unhit, fresh.unserved] at counted
    exact (UInt64.add_zero _).symm.trans counted.symm
  · exact (served_serve (keyed _ t holds)).trans (congrArg (· + 1) (fresh.unserved _))

/-- The capture is cold after a rotation, and one served request counts two hits. -/
theorem promoted_counted_twice :
    ∃ b b' t, (hitMachine twoWorkers).Reach Machine.anyStep b ∧
      (hitMachine twoWorkers).step b (.request (circularPlan "Raydium") 5) b' ∧
      b'.world.store.segments.find (routeSig (circularPlan "Raydium")) = some t ∧
      t.hitCount = 2 ∧ b'.entered (routeSig (circularPlan "Raydium")) = 0 ∧
      b'.served (routeSig (circularPlan "Raydium")) = 1 := by
  obtain ⟨count, full, short⟩ : ∃ count, count + 1 = routeSegCap ∧ count < 2000 :=
    ⟨1999, rfl, by decide⟩
  rcases (fresh_initial.capture (circularPlan "Raydium")).captureAll (poolPlans 0 count) with
    ⟨filled, fresh, same⟩
  rcases fresh.captureAll [poolPlan (0 + count)] with ⟨rotated, fresh', same'⟩
  have world : rotated.world = raydiumWorld.refill 0 count := by
    rw [same', same]
    rfl
  have reached : (storeMachine Base64.standard).Reach Machine.anyStep
      (raydiumWorld.refill 0 count) :=
    reach_refill (reach_raydiumWorld.mono fun _ _ _ => trivial)
  have cold : routeSig (circularPlan "Raydium") ∈ rotated.world.store.routesCold := by
    rw [world, (layout_refilledWorld full short).mem_cold]
    exact List.mem_append_right _ (List.mem_singleton_self _)
  have disjoint := reach_disjoint reached
  have keyed := reach_keyed reached
  rw [← world] at disjoint keyed
  rcases step_promoted fresh' disjoint keyed cold with ⟨b', t, taken, outcome⟩
  exact ⟨rotated, b', t, fresh'.reached, taken, outcome⟩

end ArbBot
