import ArbBot.Concurrent.Sections

/-!
# How long a route stays

`pushed` is the signature a step hands to `push_hot_route`. A route that a lookup found
is in `routes_hot`, and so it outlives `ROUTE_SEG_CAP` pushes of other routes
(`route_retained`).

A capture of a new or a hot route has the same effect; a capture of a cold one leaves it
in `routes_cold`, where as many pushes as `routes_hot` has free places and one more drop
it (`capture_kept_iff`).
-/

namespace ArbBot

open Foundation

/-! ## Pushes -/

/-- The signature a step hands to `push_hot_route`: a capture that creates a route, or a
write section that promotes one. -/
def pushed (p : Process) : ProcessStep → Option U128
  | .call (.insertRoute routePlan _ _) =>
      match p.world.store.segments.find (routeSig routePlan) with
      | none => some (routeSig routePlan)
      | some _ => none
  | .resume i =>
      match p.lookups[i]? with
      | some { sig := sig, start := _, stage := .write } =>
          if sig ∈ p.world.store.routesCold then some sig else none
      | _ => none
  | _ => none

/-- The step hands another signature to `push_hot_route`. -/
def pushesOther (sig : U128) (p : Process) (label : ProcessStep) : Bool :=
  match pushed p label with
  | some other => other != sig
  | none => false

/-- The calls of `push_hot_route` for other signatures. -/
def otherPushes (sig : U128) (steps : List (Machine.Entry Process ProcessStep)) : Nat :=
  steps.countP fun entry => pushesOther sig entry.before entry.label

/-- The process serves: it neither starts anew nor loads. The bot loads once, before it
starts its tasks. -/
def Serving : ProcessStep → Prop
  | .call .restart | .call .load => False
  | _ => True

section Step

variable {codec : TextCodec} {p p' : Process} {label : ProcessStep} {sig : U128} {n : Nat}

/-- What a serving step does to a recent route. -/
theorem recent_of_step (serving : Serving label) (taken : processStep codec p label p')
    (recent : p.world.store.segments.Recent n sig)
    (room : pushesOther sig p label = true → n < routeSegCap) :
    p'.world.store.segments.Recent (n + if pushesOther sig p label then 1 else 0) sig := by
  have later : p.world.store.segments.Recent
      (n + if pushesOther sig p label then 1 else 0) sig :=
    recent.mono (Nat.le_add_right _ _)
  rcases process_step_cases taken with
    ⟨key, rfl⟩ | rfl | ⟨rfl, -⟩ | ⟨call, w, rfl, single, called, rfl⟩ |
      ⟨i, lookup, rfl, found, resumed⟩
  · exact later
  · exact later
  · exact serving.elim
  · show w.store.segments.Recent _ sig
    rw [segments_of_step called]
    cases call with
    | insertRoute routePlan swapIxs inAmount =>
        simp only [nextSegments]
        cases old : p.world.store.segments.find (routeSig routePlan) with
        | some t => exact later.update
        | none =>
            by_cases same : routeSig routePlan = sig
            · rw [same]
              exact Or.inl Segments.mem_hot_push
            · have other : pushesOther sig p
                  (.call (.insertRoute routePlan swapIxs inAmount)) = true := by
                simp only [pushesOther, pushed, old, bne_iff_ne]
                exact same
              rw [if_pos other]
              exact recent.push (room other)
    | recordRouteHit key => exact later.update
    | recordHops _ _ => exact later
    | flush _ => exact later
    | load => exact serving.elim
    | getRoute _ => exact single.elim
    | getRouteForHops _ => exact single.elim
    | restart => exact single.elim
  · rcases resume_cases resumed with ⟨answer, -, -, rfl⟩ | ⟨-, -, rfl⟩ | ⟨writing, rfl⟩
    · exact later
    · exact later
    · rcases lookup with ⟨key, start, stage⟩
      obtain rfl : stage = .write := writing
      show (getRouteWrite p.world.store key).2.segments.Recent _ sig
      rw [getRouteWrite_eq]
      show (p.world.store.segments.promote routeSegCap key RouteTemplate.hit).2.Recent _ sig
      unfold Segments.promote
      cases inCold : p.world.store.segments.cold[key]? with
      | none => exact later
      | some t =>
          have member : key ∈ p.world.store.routesCold := Segments.mem_of_getElem? inCold
          by_cases same : key = sig
          · rw [same]
            exact Or.inl Segments.mem_hot_push
          · have other : pushesOther sig p (.resume i) = true := by
              simp only [pushesOther, pushed, found, member, if_true, bne_iff_ne]
              exact same
            rw [if_pos other]
            exact (recent.erase same).push (room other)

end Step

section Run

variable {codec : TextCodec} {p p' p'' : Process} {sig : U128} {i : Nat} {lookup : Lookup}
  {steps : List (Machine.Entry Process ProcessStep)}

theorem otherPushes_append (sig : U128) (steps steps' : List (Machine.Entry Process ProcessStep)) :
    otherPushes sig (steps ++ steps') = otherPushes sig steps + otherPushes sig steps' :=
  List.countP_append

theorem otherPushes_le_length (sig : U128)
    (steps : List (Machine.Entry Process ProcessStep)) :
    otherPushes sig steps ≤ steps.length := List.countP_le_length

/-- What a serving run does to a hot route. -/
theorem recent_of_trace (trace : (processMachine codec).Trace p steps p')
    (serving : ∀ entry ∈ steps, Serving entry.label) (hot : sig ∈ p.world.store.routesHot)
    (few : otherPushes sig steps ≤ routeSegCap) :
    p'.world.store.segments.Recent (otherPushes sig steps) sig := by
  induction trace with
  | nil => exact Or.inl hot
  | @snoc p₂ p₃ label steps trace taken ih =>
      rw [otherPushes_append] at few ⊢
      have last : otherPushes sig [⟨p₂, label, p₃⟩] =
          if pushesOther sig p₂ label then 1 else 0 := List.countP_singleton
      rw [last] at few ⊢
      have earlier := ih (fun entry member => serving entry (List.mem_append_left _ member))
        (le_trans (Nat.le_add_right _ _) few)
      refine recent_of_step (serving _ (List.mem_append_right _ (List.mem_singleton_self _))) taken
        earlier fun other => ?_
      rw [if_pos other] at few
      exact few

/-- A lookup that found its route left it in `routes_hot`. -/
theorem mem_hot_of_answered {finish : Nat} {t : RouteTemplate}
    (found : p.lookups[i]? = some lookup) (taken : processStep codec p (.resume i) p')
    (answered : p'.lookups[i]? = some { lookup with stage := .done finish (some t) }) :
    lookup.sig ∈ p'.world.store.routesHot := by
  rcases taken with ⟨lookup', found', resumed⟩
  obtain rfl := Option.some.inj (found.symm.trans found')
  have inside : i < p.lookups.length := (List.getElem?_eq_some_iff.mp found).1
  rcases resume_cases resumed with ⟨answer, -, read, rfl⟩ | ⟨-, -, rfl⟩ | ⟨-, rfl⟩
  · have same := (List.getElem?_set_self inside).symm.trans answered
    simp only [Option.some.injEq, Lookup.mk.injEq, LookupStage.done.injEq, true_and] at same
    rw [same.2] at read
    unfold getRouteRead at read
    cases inHot : p.world.store.routesHot[lookup.sig]? with
    | some t' => exact Segments.mem_of_getElem? inHot
    | none =>
        rw [inHot] at read
        dsimp only at read
        split at read <;> cases read
  · have same := (List.getElem?_set_self inside).symm.trans answered
    simp at same
  · have same := (List.getElem?_set_self inside).symm.trans answered
    simp only [Option.some.injEq, Lookup.mk.injEq, LookupStage.done.injEq, true_and] at same
    show lookup.sig ∈ (getRouteWrite p.world.store lookup.sig).2.routesHot
    have answer := same.2
    unfold getRouteWrite at answer ⊢
    cases inCold : p.world.store.routesCold[lookup.sig]? with
    | some t' => exact Std.HashMap.mem_insert_self
    | none =>
        rw [inCold] at answer
        exact Segments.mem_of_getElem? answer

/-- **A route that was found stays.** From any state of any process, through the next
`ROUTE_SEG_CAP` calls of `push_hot_route` for other signatures. -/
theorem route_retained {finish : Nat} {t : RouteTemplate}
    (found : p.lookups[i]? = some lookup) (taken : processStep codec p (.resume i) p')
    (answered : p'.lookups[i]? = some { lookup with stage := .done finish (some t) })
    (trace : (processMachine codec).Trace p' steps p'')
    (serving : ∀ entry ∈ steps, Serving entry.label)
    (few : otherPushes lookup.sig steps ≤ routeSegCap) : p''.world.Live lookup.sig :=
  (recent_of_trace trace serving (mem_hot_of_answered found taken answered) few).live

/-- A route is captured and found, and then another one is captured. -/
theorem route_retained_captured :
    ∃ p steps p', (processMachine Base64.standard).Trace p steps p' ∧ steps.length = 1 ∧
      p'.world.Live (routeSig (.array [])) := by
  rcases exists_found Base64.standard (.array [])
    (bareService.respond Base64.standard () 5 (onChainFloor 5)) 5 with
    ⟨p, p', lookup, finish, t, -, sig, found, taken, answered⟩
  have captured : (processMachine Base64.standard).step p' (.call (.insertRoute (poolPlan 0)
      (bareService.respond Base64.standard () 5 (onChainFloor 5)) 5)) _ := ⟨_, rfl, rfl⟩
  have trace := (Machine.Trace.nil p').snoc captured
  have live := route_retained found taken answered trace
    (fun entry member => by obtain rfl := List.mem_singleton.mp member; trivial)
    ((otherPushes_le_length _ _).trans routeSegCap_pos)
  rw [sig] at live
  exact ⟨_, _, _, trace, rfl, live⟩

end Run

/-! ## Captures -/

section Capture

variable {codec : TextCodec} {p p' p'' : Process} {routePlan : Json}
  {swapIxs : SwapInstructionsResponse} {inAmount : UInt64} {sig : U128}
  {steps : List (Machine.Entry Process ProcessStep)}

/-- Every template under the signature has a variant for the amount. -/
def HasAmount (p : Process) (sig : U128) (amount : UInt64) : Prop :=
  ∀ t, p.world.store.segments.find sig = some t → amount ∈ t.amountVariants

theorem segments_of_capture
    (taken : processStep codec p (.call (.insertRoute routePlan swapIxs inAmount)) p') :
    p'.world.store.segments =
      nextSegments codec p.world (.insertRoute routePlan swapIxs inAmount) := by
  rcases taken with ⟨w, called, rfl⟩
  exact segments_of_step called

theorem hasAmount_capture
    (taken : processStep codec p (.call (.insertRoute routePlan swapIxs inAmount)) p') :
    HasAmount p' (routeSig routePlan) inAmount := by
  intro t found
  rw [segments_of_capture taken] at found
  simp only [nextSegments] at found
  cases old : p.world.store.segments.find (routeSig routePlan) with
  | some t₀ =>
      rw [old] at found
      simp only [Segments.find_update, BEq.rfl, if_true, old, Option.map_some,
        Option.some.injEq] at found
      rw [← found]
      show inAmount ∈ t₀.amountVariants.insertIfNew inAmount swapIxs
      exact Std.HashMap.mem_insertIfNew_self
  | none =>
      rw [old] at found
      simp only [Segments.find_push_self, Option.some.injEq] at found
      rw [← found]
      exact Std.HashMap.mem_insert_self

/-- A capture of a route that is not cold leaves it hot. -/
theorem mem_hot_capture
    (taken : processStep codec p (.call (.insertRoute routePlan swapIxs inAmount)) p')
    (notCold : routeSig routePlan ∉ p.world.store.routesCold) :
    routeSig routePlan ∈ p'.world.store.routesHot := by
  have segments := segments_of_capture taken
  simp only [nextSegments] at segments
  show routeSig routePlan ∈ p'.world.store.segments.hot
  rw [segments]
  cases old : p.world.store.segments.find (routeSig routePlan) with
  | none => exact Segments.mem_hot_push
  | some t =>
      dsimp only
      rcases Segments.holds_of_find old with inHot | inCold
      · have found : p.world.store.segments.hot[routeSig routePlan]? = some t := inHot
        simp only [Segments.update, found]
        exact Std.HashMap.mem_insert_self
      · exact (notCold (Segments.mem_of_getElem? inCold)).elim

/-- A serving step takes no variant from a live template. -/
theorem hasAmount_of_step {label : ProcessStep} {amount : UInt64}
    (disjoint : p.world.store.segments.Disjoint) (serving : Serving label)
    (live : p.world.Live sig) (before : HasAmount p sig amount)
    (taken : processStep codec p label p') : HasAmount p' sig amount := by
  intro t' found
  rcases template_of_step disjoint taken found with
    ⟨-, t, old, same | hit⟩ | ⟨-, swapIxs, inAmount, t, -, -, old, seen, -⟩ |
      ⟨-, -, -, -, -, fresh, -⟩ | ⟨-, rfl, -⟩
  · rw [same]
    exact before t old
  · rw [hit]
    exact before t old
  · rw [seen]
    show amount ∈ t.amountVariants.insertIfNew inAmount swapIxs
    exact Std.HashMap.mem_insertIfNew.mpr (Or.inr (before t old))
  · exact (Segments.find_eq_none_iff.mp fresh live).elim
  · exact serving.elim

theorem hasAmount_of_trace {amount : UInt64}
    (reached : (processMachine codec).Reach Machine.anyStep p)
    (trace : (processMachine codec).Trace p steps p')
    (serving : ∀ entry ∈ steps, Serving entry.label) (hot : sig ∈ p.world.store.routesHot)
    (few : otherPushes sig steps ≤ routeSegCap) (before : HasAmount p sig amount) :
    HasAmount p' sig amount ∧ (processMachine codec).Reach Machine.anyStep p' := by
  induction trace with
  | nil => exact ⟨before, reached⟩
  | @snoc p₂ p₃ label steps trace taken ih =>
      rw [otherPushes_append] at few
      have fewer : otherPushes sig steps ≤ routeSegCap := le_trans (Nat.le_add_right _ _) few
      have served : ∀ entry ∈ steps, Serving entry.label :=
        fun entry member => serving entry (List.mem_append_left _ member)
      rcases ih served fewer with ⟨kept, reached'⟩
      have live : p₂.world.Live sig := (recent_of_trace trace served hot fewer).live
      refine ⟨hasAmount_of_step (reach_disjoint (reach_world reached')) ?_ live kept taken,
        reached'.step (i := label) trivial taken⟩
      exact serving _ (List.mem_append_right _ (List.mem_singleton_self _))

/-- The captured amount is found through the next `ROUTE_SEG_CAP` pushes of other
signatures. -/
def CaptureKept (codec : TextCodec) (p : Process) (sig : U128) (amount : UInt64) : Prop :=
  ∀ steps p', (processMachine codec).Trace p steps p' →
    (∀ entry ∈ steps, Serving entry.label) → otherPushes sig steps ≤ routeSegCap →
      ∃ t, (getRoute p'.world.store sig).1 = some t ∧ amount ∈ t.amountVariants

theorem hasAmount_getRoute {amount : UInt64} (live : p.world.Live sig)
    (kept : HasAmount p sig amount) :
    ∃ t, (getRoute p.world.store sig).1 = some t ∧ amount ∈ t.amountVariants := by
  rcases Segments.find_eq_some_of_live live with ⟨t, found⟩
  have answered : (p.world.store.segments.fetch routeSegCap sig RouteTemplate.hit).1 = some t ∨
      (p.world.store.segments.fetch routeSegCap sig RouteTemplate.hit).1 = some t.hit :=
    Segments.fetch_of_find found
  rw [getRoute_eq]
  rcases answered with same | hit
  · exact ⟨t, same, kept t found⟩
  · exact ⟨t.hit, hit, kept t found⟩

theorem captureKept_of_hot (reached : (processMachine codec).Reach Machine.anyStep p)
    (taken : processStep codec p (.call (.insertRoute routePlan swapIxs inAmount)) p')
    (notCold : routeSig routePlan ∉ p.world.store.routesCold) :
    CaptureKept codec p' (routeSig routePlan) inAmount := by
  intro steps p'' trace serving few
  have hot := mem_hot_capture taken notCold
  have after : (processMachine codec).Reach Machine.anyStep p' :=
    reached.step (i := .call (.insertRoute routePlan swapIxs inAmount)) trivial taken
  exact hasAmount_getRoute (recent_of_trace trace serving hot few).live
    (hasAmount_of_trace after trace serving hot few (hasAmount_capture taken)).1

end Capture

/-! ## Captures of cold routes -/

section Cold

variable {codec : TextCodec} {guard : World → StoreCall → Prop} {w w' : World}
  {call : StoreCall} {p p' : Process} {routePlan : Json} {swapIxs : SwapInstructionsResponse}
  {inAmount : UInt64} {sig : U128}

theorem fronted_of_step (fronted : w.store.segments.Fronted)
    (taken : storeStep codec w call w') : w'.store.segments.Fronted := by
  rw [segments_of_step taken]
  cases call with
  | insertRoute routePlan swapIxs inAmount =>
      simp only [nextSegments]
      cases w.store.segments.find (routeSig routePlan) with
      | some t => exact fronted.update
      | none => exact Segments.fronted_push
  | recordRouteHit sig => exact fronted.update
  | load =>
      simp only [nextSegments]
      cases w.disk with
      | none => exact fronted
      | some file => exact fronted.fillAll
  | restart => exact Segments.fronted_new
  | getRoute sig => exact fronted.fetch
  | getRouteForHops routePlan =>
      simp only [nextSegments]
      cases StoreCall.lookup w (.getRouteForHops routePlan) with
      | none => exact fronted
      | some sig => exact fronted.fetch
  | recordHops _ _ => exact fronted
  | flush _ => exact fronted

theorem reach_fronted (reached : (storeMachine codec).Reach guard w) :
    w.store.segments.Fronted := by
  refine reached.invariant (fun w => w.store.segments.Fronted) ?_ ?_
  · intro w started
    obtain rfl := started
    exact Segments.fronted_new
  · exact fun _ _ _ fronted _ taken => fronted_of_step fronted taken

/-- There is always a route that a store within its capacity does not hold. -/
theorem exists_fresh_plan (bounded : w.Bounded) : ∃ n, ¬ w.Live (routeSig (poolPlan n)) := by
  by_contra! live
  have distinct : ((poolPlans 0 4001).map routeSig).Nodup := nodup_poolPlans (Nat.le_refl _)
  have held : (poolPlans 0 4001).map routeSig ⊆
      w.store.routesHot.keys ++ w.store.routesCold.keys := by
    intro sig member
    rcases mem_poolPlans.mp member with ⟨n, -, -, rfl⟩
    rw [List.mem_append, Std.HashMap.mem_keys, Std.HashMap.mem_keys]
    exact live n
  have count := (List.subperm_of_subset distinct held).length_le
  rw [List.length_map, length_poolPlans, List.length_append, Std.HashMap.length_keys,
    Std.HashMap.length_keys] at count
  have hot : w.store.routesHot.size ≤ 2000 := bounded.1
  have cold : w.store.routesCold.size ≤ 2000 := bounded.2
  omega

/-- A process within its capacity may capture a new route next. -/
theorem exists_fresh_capture (codec : TextCodec) (bounded : p.world.Bounded) :
    ∃ label p' other t, Serving label ∧ (processMachine codec).step p label p' ∧
      ¬ p.world.Live other ∧
        p'.world.store.segments = p.world.store.segments.push routeSegCap other t := by
  rcases exists_fresh_plan bounded with ⟨n, fresh⟩
  let ixs := bareService.respond Base64.standard () 5 (onChainFloor 5)
  exact ⟨.call (.insertRoute (poolPlan n) ixs 5), _, routeSig (poolPlan n), _, trivial,
    ⟨_, rfl, rfl⟩, fresh, segments_insert_fresh fresh⟩

/-- A cold route is dropped by as many new captures as `routes_hot` has free places and
one more. -/
theorem exists_eviction {room : Nat} (disjoint : p.world.store.segments.Disjoint)
    (bounded : p.world.Bounded) (cold : sig ∈ p.world.store.segments.cold)
    (places : p.world.store.segments.hot.size + room = routeSegCap) :
    ∃ steps p', (processMachine codec).Trace p steps p' ∧
      (∀ entry ∈ steps, Serving entry.label) ∧ steps.length = room + 1 ∧
        ¬ p'.world.Live sig := by
  induction room generalizing p with
  | zero =>
      rcases exists_fresh_capture codec bounded with
        ⟨label, p', other, t, serving, taken, fresh, pushed⟩
      rw [Segments.push_of_full (Nat.le_of_eq places.symm)] at pushed
      refine ⟨_, p', (Machine.Trace.nil p).snoc taken, ?_, rfl, ?_⟩
      · intro entry member
        obtain rfl := List.mem_singleton.mp member
        exact serving
      · rw [World.Live, pushed]
        intro given
        rcases given with hot | dropped
        · rcases Std.HashMap.mem_insert.mp hot with same | inEmpty
          · rw [eq_of_beq same] at fresh
            exact fresh (Or.inr cold)
          · exact Std.HashMap.not_mem_empty inEmpty
        · exact disjoint sig dropped cold
  | succ room ih =>
      rcases exists_fresh_capture codec bounded with
        ⟨label, p', other, t, serving, taken, fresh, pushed⟩
      have disjoint' : p'.world.store.segments.Disjoint := by
        rw [pushed]
        exact disjoint.push fresh
      have bounded' : p'.world.Bounded := by
        rw [World.Bounded, pushed]
        exact Segments.Bounded.push bounded routeSegCap_pos
      rw [Segments.push_of_room (by omega)] at pushed
      have notHot : other ∉ p.world.store.segments.hot := fun hot => fresh (Or.inl hot)
      rcases ih disjoint' bounded' (by rw [pushed]; exact cold)
        (by rw [pushed, Std.HashMap.size_insert, if_neg notHot]; omega) with
        ⟨steps, p'', trace, served, length, dropped⟩
      refine ⟨_, p'', trace.cons taken, List.forall_mem_cons.mpr ⟨serving, served⟩, ?_, dropped⟩
      rw [List.length_cons, length]

/-- A capture of a cold route leaves it where it is. -/
theorem not_captureKept_of_cold (reached : (processMachine codec).Reach Machine.anyStep p)
    (taken : processStep codec p (.call (.insertRoute routePlan swapIxs inAmount)) p')
    (bounded : p.world.Bounded) (cold : routeSig routePlan ∈ p.world.store.routesCold) :
    ¬ CaptureKept codec p' (routeSig routePlan) inAmount := by
  have disjoint := reach_disjoint (reach_world reached)
  have notHot : routeSig routePlan ∉ p.world.store.segments.hot :=
    fun hot => disjoint _ hot cold
  rcases Option.isSome_iff_exists.mp (Std.HashMap.mem_iff_isSome_getElem?.mp cold) with
    ⟨t, inCold⟩
  have segments := segments_of_capture taken
  have found : p.world.store.segments.find (routeSig routePlan) = some t :=
    (Segments.find_eq_some_iff disjoint).mpr (Or.inr inCold)
  simp only [nextSegments, found] at segments
  have bounded' : p'.world.Bounded := by
    rw [World.Bounded, segments]
    exact Segments.bounded_update.mpr bounded
  have disjoint' : p'.world.store.segments.Disjoint := by
    rw [segments]
    exact disjoint.update
  rw [Segments.update_of_cold notHot inCold] at segments
  have hot : 0 < p.world.store.segments.hot.size := reach_fronted (reach_world reached) _ cold
  have full : p.world.store.segments.hot.size ≤ routeSegCap := bounded.1
  have cold' : routeSig routePlan ∈ p'.world.store.segments.cold := by
    rw [segments]
    exact Std.HashMap.mem_insert_self
  have places : p'.world.store.segments.hot.size +
      (routeSegCap - p.world.store.segments.hot.size) = routeSegCap := by
    rw [segments]
    exact Nat.add_sub_cancel' full
  have evicted : ∃ steps p'', (processMachine codec).Trace p' steps p'' ∧
      (∀ entry ∈ steps, Serving entry.label) ∧
        steps.length = routeSegCap - p.world.store.segments.hot.size + 1 ∧
          ¬ p''.world.Live (routeSig routePlan) :=
    exists_eviction disjoint' bounded' cold' places
  rcases evicted with ⟨steps, p'', trace, serving, length, dropped⟩
  intro kept
  rcases kept steps p'' trace serving
    ((otherPushes_le_length _ _).trans (by rw [length]; omega)) with ⟨t', answered, -⟩
  rw [getRoute_eq] at answered
  exact dropped (Segments.isSome_fetch.mp (Option.isSome_iff_exists.mpr ⟨t', answered⟩))

/-- **When a capture is kept.** A capture of a route that is not cold is found through the
next `ROUTE_SEG_CAP` pushes of other signatures, from every state of every process; a
capture of a cold one is not, in any store within its capacity. -/
theorem capture_kept_iff (reached : (processMachine codec).Reach Machine.anyStep p)
    (taken : processStep codec p (.call (.insertRoute routePlan swapIxs inAmount)) p') :
    (routeSig routePlan ∉ p.world.store.routesCold →
      CaptureKept codec p' (routeSig routePlan) inAmount) ∧
    (p.world.Bounded → (CaptureKept codec p' (routeSig routePlan) inAmount ↔
      routeSig routePlan ∉ p.world.store.routesCold)) := by
  refine ⟨captureKept_of_hot reached taken, fun bounded => ⟨fun kept cold => ?_,
    captureKept_of_hot reached taken⟩⟩
  exact not_captureKept_of_cold reached taken bounded cold kept

/-- A first capture is kept. -/
theorem capture_kept_initial :
    ∃ p', processStep Base64.standard .initial (.call (.insertRoute (.array [])
        (bareService.respond Base64.standard () 5 (onChainFloor 5)) 5)) p' ∧
      CaptureKept Base64.standard p' (routeSig (.array [])) 5 := by
  have taken : processStep Base64.standard .initial (.call (.insertRoute (.array [])
      (bareService.respond Base64.standard () 5 (onChainFloor 5)) 5)) _ := ⟨_, rfl, rfl⟩
  refine ⟨_, taken, (capture_kept_iff (.ofStart rfl) taken).1 fun cold => ?_⟩
  exact not_live_initial _ (Or.inr cold)

theorem capture_lost_of_full {count : Nat} (full : count = routeSegCap) (short : count < 4000)
    (some' : 0 < count) :
    ¬ ∀ (p p' : Process) (routePlan : Json) (swapIxs : SwapInstructionsResponse)
      (inAmount : UInt64), (processMachine Base64.standard).Reach Machine.anyStep p →
        processStep Base64.standard p (.call (.insertRoute routePlan swapIxs inAmount)) p' →
          CaptureKept Base64.standard p' (routeSig routePlan) inAmount := by
  intro kept
  rcases exists_refill count with ⟨p, reached, -, world⟩
  have layout := layout_overfull full short
  rw [← world] at layout
  have bounded : p.world.Bounded := by
    refine ⟨?_, ?_⟩
    · exact (Nat.le_of_eq layout.size_hot).trans routeSegCap_pos
    · refine (Nat.le_of_eq layout.size_cold).trans (Nat.le_of_eq ?_)
      rw [List.append_nil, List.length_reverse, List.length_map, length_poolPlans, full]
  have cold : routeSig (poolPlan 0) ∈ p.world.store.routesCold := by
    rw [layout.mem_cold, List.append_nil, List.mem_reverse]
    exact mem_poolPlans.mpr ⟨0, Nat.le_refl 0, by omega, rfl⟩
  have taken : processStep Base64.standard p (.call (.insertRoute (poolPlan 0)
      (bareService.respond Base64.standard () 5 (onChainFloor 5)) 5)) _ := ⟨_, rfl, rfl⟩
  exact not_captureKept_of_cold reached taken bounded cold (kept _ _ _ _ _ reached taken)

/-- The oldest cold route is captured again. -/
theorem capture_lost :
    ¬ ∀ (p p' : Process) (routePlan : Json) (swapIxs : SwapInstructionsResponse)
      (inAmount : UInt64), (processMachine Base64.standard).Reach Machine.anyStep p →
        processStep Base64.standard p (.call (.insertRoute routePlan swapIxs inAmount)) p' →
          CaptureKept Base64.standard p' (routeSig routePlan) inAmount :=
  capture_lost_of_full rfl (by decide) routeSegCap_pos

end Cold

end ArbBot
