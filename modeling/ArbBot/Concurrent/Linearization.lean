import ArbBot.Concurrent.Sections
import ArbBot.TierOne.Transparency

/-!
# Lookups are linearizable

The last section of a `get_route` call is a whole lookup at its own instant, so its
answer is right for the content of the store just after it (`rightFor_getRoute`). The
write section decides anew where the route is: whatever other threads did since the
read section, a promotion leaves the route in one segment, and a second promotion finds
it in `routes_hot`.
-/

namespace ArbBot

open Foundation

/-- The answer is right for the content of the store. -/
def RightFor (store : StoreInner) (sig : U128) : Option RouteTemplate → Prop
  | some t => store.segments.Holds sig t
  | none => ¬ store.segments.Live sig

/-- The template is stored under the signature in exactly one segment. -/
def HeldOnce (store : StoreInner) (sig : U128) (t : RouteTemplate) : Prop :=
  store.routesHot[sig]? = some t ∧ sig ∉ store.routesCold ∨
    sig ∉ store.routesHot ∧ store.routesCold[sig]? = some t

/-- The lookup has started, and if it has ended its answer was right at an instant
between its start and its end. -/
def Lookup.Right (p : Process) (lookup : Lookup) : Prop :=
  lookup.start ≤ p.now ∧ ∀ finish answer, lookup.stage = .done finish answer →
    ∃ n store, lookup.start ≤ n ∧ n ≤ finish ∧ p.instant n = some store ∧
      RightFor store lookup.sig answer

theorem rightFor_getRoute (g : StoreInner) (sig : U128) :
    RightFor (getRoute g sig).2 sig (getRoute g sig).1 := by
  rw [getRoute_eq]
  have after : (g.segments.fetch routeSegCap sig RouteTemplate.hit).2.find sig =
      (g.segments.fetch routeSegCap sig RouteTemplate.hit).1 := Segments.find_fetch_self
  cases answer : (g.segments.fetch routeSegCap sig RouteTemplate.hit).1 with
  | some t => exact Segments.holds_of_find (after.trans answer)
  | none => exact Segments.find_eq_none_iff.mp (after.trans answer)

theorem heldOnce_iff {g : StoreInner} (disjoint : g.segments.Disjoint) {sig : U128}
    {t : RouteTemplate} : HeldOnce g sig t ↔ g.segments.find sig = some t := by
  rw [Segments.find_eq_some_iff disjoint]
  constructor
  · intro given
    rcases given with ⟨inHot, -⟩ | ⟨-, inCold⟩
    · exact Or.inl inHot
    · exact Or.inr inCold
  · intro given
    rcases given with inHot | inCold
    · exact Or.inl ⟨inHot, disjoint sig (Segments.mem_of_getElem? inHot)⟩
    · have member : sig ∈ g.routesCold := Segments.mem_of_getElem? inCold
      exact Or.inr ⟨fun inHot => disjoint sig inHot member, inCold⟩

section Instants

variable {p p' : Process} {n : Nat} {store : StoreInner} {lookup : Lookup}

theorem instant_now (p : Process) : p.instant p.now = some p.world.store := by
  rw [Process.instant, Process.now, List.getElem?_append_right (Nat.le_refl _), Nat.sub_self]
  rfl

/-- The past stays as it was. -/
theorem instant_later (later : p'.past = p.past ++ [p.world.store])
    (past : p.instant n = some store) : p'.instant n = some store := by
  have inside : n < (p.past ++ [p.world.store]).length :=
    (List.getElem?_eq_some_iff.mp past).1
  rw [Process.instant, later, List.getElem?_append_left inside]
  exact past

theorem Lookup.Right.later (right : lookup.Right p)
    (later : p'.past = p.past ++ [p.world.store]) : lookup.Right p' := by
  rcases right with ⟨started, answered⟩
  have now : p'.now = p.now + 1 := by
    rw [Process.now, later, List.length_append]
    rfl
  refine ⟨by omega, fun finish answer done => ?_⟩
  rcases answered finish answer done with ⟨n, store, since, until', past, right⟩
  exact ⟨n, store, since, until', instant_later later past, right⟩

/-- A lookup that answers what the store holds just after is right. -/
theorem Lookup.Right.answer {answer : Option RouteTemplate} (started : lookup.start ≤ p.now)
    (later : p'.past = p.past ++ [p.world.store])
    (right : RightFor p'.world.store lookup.sig answer) :
    Lookup.Right p' { lookup with stage := .done (p.now + 1) answer } := by
  have now : p'.now = p.now + 1 := by
    rw [Process.now, later, List.length_append]
    rfl
  refine ⟨by dsimp only; omega, ?_⟩
  rintro finish answer' ⟨⟩
  refine ⟨p'.now, p'.world.store, ?_, ?_, instant_now p', right⟩
  · dsimp only
    omega
  · omega

end Instants

section Reach

variable {codec : TextCodec} {p p' : Process} {i : Nat} {lookup : Lookup}

theorem right_set {lookups : List Lookup} {lookup' : Lookup}
    (before : ∀ lookup ∈ lookups, lookup.Right p') (new : lookup'.Right p') :
    ∀ lookup ∈ lookups.set i lookup', lookup.Right p' := by
  intro lookup member
  rcases List.mem_or_eq_of_mem_set member with old | rfl
  · exact before lookup old
  · exact new

theorem right_of_step {label : ProcessStep} (disjoint : p.world.store.segments.Disjoint)
    (before : ∀ lookup ∈ p.lookups, lookup.Right p) (taken : processStep codec p label p') :
    ∀ lookup ∈ p'.lookups, lookup.Right p' := by
  have kept : p'.past = p.past ++ [p.world.store] → ∀ lookup ∈ p.lookups, lookup.Right p' :=
    fun later lookup member => (before lookup member).later later
  rcases process_step_cases taken with
    ⟨sig, rfl⟩ | rfl | ⟨-, rfl⟩ | ⟨call, w, -, -, -, rfl⟩ | ⟨i, lookup, -, found, resumed⟩
  · intro lookup member
    rcases List.mem_append.mp member with old | new
    · exact kept rfl lookup old
    · obtain rfl := List.mem_singleton.mp new
      refine ⟨?_, fun finish answer done => by cases done⟩
      show p.past.length ≤ (p.past ++ [p.world.store]).length
      rw [List.length_append]
      exact Nat.le_add_right _ _
  · exact kept rfl
  · intro lookup member
    cases member
  · exact kept rfl
  · have started := (before lookup (List.mem_of_getElem? found)).1
    rcases resume_cases resumed with ⟨answer, -, read, rfl⟩ | ⟨-, -, rfl⟩ | ⟨-, rfl⟩
    · apply right_set (kept rfl)
      apply Lookup.Right.answer started rfl
      have right := rightFor_getRoute p.world.store lookup.sig
      rw [getRoute_of_read read] at right
      exact right
    · refine right_set (kept rfl) ⟨?_, fun finish answer done => by cases done⟩
      show lookup.start ≤ (p.past ++ [p.world.store]).length
      rw [List.length_append]
      exact started.trans (Nat.le_add_right _ _)
    · apply right_set (kept rfl)
      apply Lookup.Right.answer started rfl
      have right := rightFor_getRoute p.world.store lookup.sig
      rw [← getRouteWrite_eq_getRoute disjoint] at right
      exact right

theorem reach_right (reached : (processMachine codec).Reach Machine.anyStep p) :
    ∀ lookup ∈ p.lookups, lookup.Right p := by
  refine reached.invariant_of_reach (fun p => ∀ lookup ∈ p.lookups, lookup.Right p) ?_ ?_
  · intro p started lookup member
    obtain rfl := started
    cases member
  · exact fun _ _ _ reached before _ taken =>
      right_of_step (reach_disjoint (reach_world reached)) before taken

theorem resume_write (found : p.lookups[i]? = some lookup) (writing : lookup.stage = .write)
    (taken : processStep codec p (.resume i) p') :
    p' = p.advance (getRouteWrite p.world.store lookup.sig).2 (p.lookups.set i
      { lookup with
        stage := .done (p.now + 1) (getRouteWrite p.world.store lookup.sig).1 }) := by
  rcases taken with ⟨lookup', found', resumed⟩
  obtain rfl := Option.some.inj (found.symm.trans found')
  rcases resume_cases resumed with ⟨answer, reading, -⟩ | ⟨reading, -⟩ | ⟨-, same⟩
  · rw [writing] at reading
    cases reading
  · rw [writing] at reading
    cases reading
  · exact same

/-- A write section leaves a live route with its template in one segment. -/
theorem heldOnce_write (disjoint : p.world.store.segments.Disjoint)
    (found : p.lookups[i]? = some lookup) (writing : lookup.stage = .write)
    (taken : processStep codec p (.resume i) p') {t : RouteTemplate}
    (holds : p.world.store.segments.Holds lookup.sig t) :
    HeldOnce p'.world.store lookup.sig t ∨ HeldOnce p'.world.store lookup.sig t.hit := by
  have written : p'.world.store.segments =
      (p.world.store.segments.fetch routeSegCap lookup.sig RouteTemplate.hit).2 := by
    rw [resume_write found writing taken, getRouteWrite_eq_getRoute disjoint, getRoute_eq]
    rfl
  have after : p'.world.store.segments.Disjoint := by
    rw [written]
    exact disjoint.fetch
  have before := (Segments.find_eq_some_iff disjoint).mpr holds
  rw [heldOnce_iff after, heldOnce_iff after, written, Segments.find_fetch_self]
  exact Segments.fetch_of_find before

/-- A write section that finds the route cold leaves it hot, and answers it. -/
theorem write_of_cold {g : StoreInner} {sig : U128} {t : RouteTemplate}
    (cold : g.routesCold[sig]? = some t) :
    (getRouteWrite g sig).1 = some t.hit ∧
      (getRouteWrite g sig).2.routesHot[sig]? = some t.hit := by
  rw [getRouteWrite, cold]
  refine ⟨rfl, ?_⟩
  show (pushHotRoute _ sig t.hit).routesHot[sig]? = some t.hit
  exact Std.HashMap.getElem?_insert_self

/-- A write section that finds the route hot leaves everything alone, and answers it. -/
theorem write_of_hot {g : StoreInner} (disjoint : g.segments.Disjoint) {sig : U128}
    {t : RouteTemplate} (hot : g.routesHot[sig]? = some t) : getRouteWrite g sig = (some t, g) := by
  have member : sig ∈ g.routesHot := Segments.mem_of_getElem? hot
  have absent : g.routesCold[sig]? = none :=
    Std.HashMap.getElem?_eq_none (disjoint sig member)
  rw [getRouteWrite, absent, hot]

/-- Of two promotions of one cold route the second finds what the first left. -/
theorem promoted_twice {p'' : Process} {j : Nat} {lookup' : Lookup} {t : RouteTemplate}
    (reached : (processMachine codec).Reach Machine.anyStep p) (apart : i ≠ j)
    (found : p.lookups[i]? = some lookup) (writing : lookup.stage = .write)
    (found' : p.lookups[j]? = some lookup') (writing' : lookup'.stage = .write)
    (same : lookup'.sig = lookup.sig) (cold : p.world.store.routesCold[lookup.sig]? = some t)
    (first : processStep codec p (.resume i) p')
    (second : processStep codec p' (.resume j) p'') :
    p''.world.store = p'.world.store ∧ HeldOnce p''.world.store lookup.sig t.hit ∧
      p''.lookups[i]? = some { lookup with stage := .done (p.now + 1) (some t.hit) } ∧
      p''.lookups[j]? = some { lookup' with stage := .done (p.now + 2) (some t.hit) } := by
  have disjoint' := reach_disjoint (reach_world (reached.step (i := .resume i) trivial first))
  rcases write_of_cold cold with ⟨answered, hot⟩
  have promoted := resume_write found writing first
  have store : p'.world.store = (getRouteWrite p.world.store lookup.sig).2 := by
    rw [promoted]
    rfl
  rw [← store] at hot
  have lookups : p'.lookups = p.lookups.set i
      { lookup with stage := .done (p.now + 1) (some t.hit) } := by
    rw [promoted, answered]
    rfl
  have now : p'.now = p.now + 1 := by
    rw [promoted]
    exact List.length_append
  have waiting : p'.lookups[j]? = some lookup' := by
    rw [lookups, List.getElem?_set_ne apart]
    exact found'
  have again : getRouteWrite p'.world.store lookup'.sig = (some t.hit, p'.world.store) := by
    rw [same]
    exact write_of_hot disjoint' hot
  have inside : i < p.lookups.length := (List.getElem?_eq_some_iff.mp found).1
  have inside' : j < p'.lookups.length := (List.getElem?_eq_some_iff.mp waiting).1
  rw [resume_write waiting writing' second, again, now]
  refine ⟨rfl, Or.inl ⟨hot, disjoint' _ (Segments.mem_of_getElem? hot)⟩, ?_, ?_⟩
  · show (p'.lookups.set j _)[i]? = _
    rw [List.getElem?_set_ne (Ne.symm apart), lookups, List.getElem?_set_self inside]
  · show (p'.lookups.set j _)[j]? = _
    rw [List.getElem?_set_self inside']

/-- Two threads find one route cold, and both come back for the write lock. -/
structure Raced (p p' p'' : Process) (first second : Lookup) (t : RouteTemplate) : Prop where
  reached : (processMachine Base64.standard).Reach Machine.anyStep p
  found : p.lookups[0]? = some first
  writing : first.stage = .write
  found' : p.lookups[1]? = some second
  writing' : second.stage = .write
  same : second.sig = first.sig
  before : first.start < second.start
  within : second.start < p.now
  cold : p.world.store.routesCold[first.sig]? = some t
  promoted : processStep Base64.standard p (.resume 0) p'
  again : processStep Base64.standard p' (.resume 1) p''

theorem Raced.reached_again {p p' p'' : Process} {first second : Lookup} {t : RouteTemplate}
    (raced : Raced p p' p'' first second t) :
    (processMachine Base64.standard).Reach Machine.anyStep p'' :=
  have reached' : (processMachine Base64.standard).Reach Machine.anyStep p' :=
    raced.reached.step (i := .resume 0) trivial raced.promoted
  reached'.step (i := .resume 1) trivial raced.again

theorem exists_raced : ∃ p p' p'' first second t, Raced p p' p'' first second t := by
  rcases exists_between with ⟨p, sig, start, t, reached, lookups, begun, cold⟩
  have found := congrArg (·[0]?) lookups
  have found' := congrArg (·[1]?) lookups
  have promoted : processStep Base64.standard p (.resume 0) _ := ⟨_, found, rfl⟩
  have waiting : (p.advance (getRouteWrite p.world.store sig).2 (p.lookups.set 0
      { sig := sig, start := start,
        stage := .done (p.now + 1) (getRouteWrite p.world.store sig).1 })).lookups[1]? =
      some { sig := sig, start := start + 1, stage := .write } := by
    show (p.lookups.set 0 _)[1]? = _
    rw [List.getElem?_set_ne (by decide)]
    exact found'
  have again : processStep Base64.standard _ (.resume 1) _ := ⟨_, waiting, rfl⟩
  exact ⟨p, _, _, _, _, t, reached, found, rfl, found', rfl, rfl, Nat.lt_succ_self start, begun,
    cold, promoted, again⟩

/-- **Lookups are linearizable.** In every process, whatever its threads did:

* a `get_route` call that has ended gave an answer that was right at an instant between
  its start and its end;
* a write section, wherever the route is by then, leaves a live route with its template
  in exactly one segment;
* of two promotions of one cold route the second finds what the first left in
  `routes_hot`. -/
theorem getRoute_linearizable (reached : (processMachine codec).Reach Machine.anyStep p) :
    (∀ lookup ∈ p.lookups, ∀ finish answer, lookup.stage = .done finish answer →
      ∃ n store, lookup.start ≤ n ∧ n ≤ finish ∧ p.instant n = some store ∧
        RightFor store lookup.sig answer) ∧
    (∀ i lookup p' t, p.lookups[i]? = some lookup → lookup.stage = .write →
      processStep codec p (.resume i) p' → p.world.store.segments.Holds lookup.sig t →
        HeldOnce p'.world.store lookup.sig t ∨ HeldOnce p'.world.store lookup.sig t.hit) ∧
    ∀ i j lookup lookup' p' p'' t, i ≠ j →
      p.lookups[i]? = some lookup → lookup.stage = .write →
      p.lookups[j]? = some lookup' → lookup'.stage = .write → lookup'.sig = lookup.sig →
      p.world.store.routesCold[lookup.sig]? = some t →
      processStep codec p (.resume i) p' → processStep codec p' (.resume j) p'' →
        p''.world.store = p'.world.store ∧ HeldOnce p''.world.store lookup.sig t.hit ∧
          p''.lookups[i]? = some { lookup with stage := .done (p.now + 1) (some t.hit) } ∧
          p''.lookups[j]? = some { lookup' with stage := .done (p.now + 2) (some t.hit) } := by
  have disjoint := reach_disjoint (reach_world reached)
  refine ⟨fun lookup member => (reach_right reached lookup member).2, ?_, ?_⟩
  · intro i lookup p' t found writing taken holds
    exact heldOnce_write disjoint found writing taken holds
  · intro i j lookup lookup' p' p'' t apart found writing found' writing' same cold first second
    exact promoted_twice reached apart found writing found' writing' same cold first second

/-- Two lookups of one cold route overlap and promote it one after the other: both answer
what the first left, and the store holds it once. -/
theorem getRoute_linearizable_raced :
    ∃ (p : Process) (first second : Lookup) (finish finish' : Nat) (t : RouteTemplate),
      p.lookups[0]? = some first ∧ p.lookups[1]? = some second ∧ second.sig = first.sig ∧
      first.start < second.start ∧ second.start < finish ∧ finish < finish' ∧
      first.stage = .done finish (some t) ∧ second.stage = .done finish' (some t) ∧
      HeldOnce p.world.store first.sig t ∧
      (∃ n store, first.start ≤ n ∧ n ≤ finish ∧ p.instant n = some store ∧
        RightFor store first.sig (some t)) ∧
      ∃ n store, second.start ≤ n ∧ n ≤ finish' ∧ p.instant n = some store ∧
        RightFor store second.sig (some t) := by
  rcases exists_raced with ⟨p, p', p'', first, second, t, raced⟩
  rcases (getRoute_linearizable raced.reached).2.2 0 1 first second p' p'' t (by decide)
      raced.found raced.writing raced.found' raced.writing' raced.same raced.cold raced.promoted
      raced.again with ⟨-, once, ended, ended'⟩
  have right := (getRoute_linearizable raced.reached_again).1
  exact ⟨p'', _, _, p.now + 1, p.now + 2, t.hit, ended, ended', raced.same, raced.before,
    Nat.lt_succ_of_lt raced.within, Nat.lt_succ_self _, rfl, rfl, once,
    right _ (List.mem_of_getElem? ended) _ _ rfl, right _ (List.mem_of_getElem? ended') _ _ rfl⟩

end Reach

end ArbBot
