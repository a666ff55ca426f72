import ArbBot.Foundation.Counting
import ArbBot.Persistence.RoundTrip
import ArbBot.TierOne.Transparency

/-!
# What the store counts

`route_count` and `patchable_route_count` are read off the two segments. `store_statistics` says
what they count: the signatures that are held, and the routes that `serve_route` answers at every
amount, without the variants it has seen. There is nothing in between: any other route is
answered at no amount.
-/

namespace ArbBot

open Foundation

variable {codec : TextCodec} {t : RouteTemplate} {w : World}

/-! ## The offsets of a template -/

/-- A buffer is shorter than the address space. -/
def DecodesShort (codec : TextCodec) (_ : World) : StoreCall → Prop
  | .insertRoute _ swapIxs _ =>
      ∀ data, codec.decode swapIxs.swapInstruction.data = some data → data.length < 2 ^ 64
  | _ => True

/-- Both offsets are there and fit the data, or none is. -/
def OffsetsFit (codec : TextCodec) (t : RouteTemplate) : Prop :=
  (t.inAmountOffset = none ∧ t.quotedOutOffset = none) ∨
    ∃ inOff outOff data, t.inAmountOffset = some inOff ∧ t.quotedOutOffset = some outOff ∧
      codec.decode t.swapIxs.swapInstruction.data = some data ∧ Fits data inOff outOff

theorem fits_of_discoverOffsets {data : List UInt8} {inAmount quotedOut : UInt64}
    {inOff outOff : Nat} (found : discoverOffsets data inAmount quotedOut = some (inOff, outOff))
    (short : data.length < 2 ^ 64) : Fits data inOff outOff := by
  rcases discoverOffsets_eq_some_iff.mp found with ⟨long, rfl, place⟩
  have member : inOff ∈ positions data := by
    rcases place with pair | ⟨-, alone⟩
    · exact (List.mem_filter.mp (pair ▸ List.mem_singleton_self inOff)).1
    · exact (List.mem_filter.mp (alone ▸ List.mem_singleton_self inOff)).1
  have inside := (mem_positions (by omega)).mp member
  unfold Fits
  omega

theorem offsetsFit_newTemplate {sig : U128} {swapIxs : SwapInstructionsResponse}
    {inAmount quotedOut : UInt64}
    (short : ∀ data, codec.decode swapIxs.swapInstruction.data = some data →
      data.length < 2 ^ 64) :
    OffsetsFit codec (newTemplate codec sig swapIxs inAmount quotedOut) := by
  cases offsets : captureOffsets codec swapIxs inAmount quotedOut with
  | none => exact Or.inl ⟨by simp [newTemplate, offsets], by simp [newTemplate, offsets]⟩
  | some found =>
      rcases Option.bind_eq_some_iff.mp offsets with ⟨data, decoded, discovered⟩
      exact Or.inr ⟨found.1, found.2, data, by simp [newTemplate, offsets],
        by simp [newTemplate, offsets], decoded,
        fits_of_discoverOffsets discovered (short data decoded)⟩

/-- The offsets fit, over all calls, flushes and restarts. -/
theorem reach_offsetsFit (reached : (storeMachine codec).Reach (DecodesShort codec) w) :
    w.store.segments.All fun _ t => OffsetsFit codec t := by
  refine reach_templates ?_ ?_ ?_ ?_ reached
  · exact fun _ _ fit => fit
  · exact fun _ _ fit => fit
  · exact fun _ _ _ _ _ _ fit => fit
  · exact fun _ _ _ _ short => offsetsFit_newTemplate short

/-! ## Serving without variants -/

/-- Every amount is answered by a patch. -/
def ServesAll (codec : TextCodec) (t : RouteTemplate) : Prop :=
  ∀ amount floor, ∃ ixs, serveRoute codec t.cold amount floor = .ok (some ixs)

/-- No amount is. -/
def ServesNone (codec : TextCodec) (t : RouteTemplate) : Prop :=
  ∀ amount floor, serveRoute codec t.cold amount floor = .ok none

theorem serveRoute_of_unpatchable (absent : t.inAmountOffset = none) : ServesNone codec t := by
  intro amount floor
  simp [serveRoute, RouteTemplate.cold, absent]

theorem servesAll_iff (fit : OffsetsFit codec t) :
    ServesAll codec t ↔ t.inAmountOffset.isSome = true := by
  rcases fit with ⟨absent, -⟩ | ⟨inOff, outOff, data, inAt, outAt, decoded, fits⟩
  · refine iff_of_false (fun serves => ?_) (by simp [absent])
    rcases serves 0 0 with ⟨ixs, served⟩
    rw [serveRoute_of_unpatchable absent] at served
    cases served
  · refine iff_of_true (fun amount floor => ?_) (by simp [inAt])
    exact ⟨_, serveRoute_eq_ok_some_iff.mpr (Or.inr ⟨by simp [RouteTemplate.cold], inOff, outOff,
      data, inAt, outAt, decoded, fits, rfl⟩)⟩

theorem servesNone_iff (fit : OffsetsFit codec t) :
    ServesNone codec t ↔ (!t.inAmountOffset.isSome) = true := by
  cases offset : t.inAmountOffset with
  | none => exact iff_of_true (serveRoute_of_unpatchable offset) (by simp)
  | some inOff =>
      refine iff_of_false (fun serves => ?_) (by simp)
      rcases (servesAll_iff fit).mpr (by simp [offset]) 0 0 with ⟨ixs, served⟩
      rw [serves 0 0] at served
      cases served

/-! ## The counts -/

theorem patchableRouteCount_eq {g : StoreInner} (disjoint : g.segments.Disjoint) :
    g.patchableRouteCount =
      {sig | ∃ t, g.segments.Holds sig t ∧ t.inAmountOffset.isSome = true}.ncard :=
  Segments.countP_values disjoint _

/-- A reload keeps the routes, -/
theorem routeCount_reload {g : StoreInner} {file : RouteFile} (disjoint : g.segments.Disjoint)
    (keyed : g.segments.All fun sig t => t.routeSignature = sig) (snapshot : Snapshot g file) :
    (loadRoutesFromDisk .new file).2.routeCount = g.routeCount := by
  have count := count_loadRoutesFromDisk .new file
  have loaded := count_reload disjoint keyed snapshot
  have hot : StoreInner.new.routesHot.size = 0 := Std.HashMap.size_empty
  have cold : (loadRoutesFromDisk .new file).2.routesCold.size = 0 := by
    rw [(keeps_loadRoutesFromDisk .new file).2.1]
    exact Std.HashMap.size_empty
  unfold StoreInner.routeCount
  omega

/-- with their offsets. -/
theorem patchable_reload {g : StoreInner} {file : RouteFile} (disjoint : g.segments.Disjoint)
    (keyed : g.segments.All fun sig t => t.routeSignature = sig) (snapshot : Snapshot g file)
    (disjoint' : (loadRoutesFromDisk .new file).2.segments.Disjoint) :
    (loadRoutesFromDisk .new file).2.patchableRouteCount = g.patchableRouteCount := by
  rw [patchableRouteCount_eq disjoint, patchableRouteCount_eq disjoint']
  congr
  ext sig
  constructor
  · rintro ⟨t', holds, patchable⟩
    rcases (find_reload disjoint keyed snapshot).mp
      ((Segments.find_eq_some_iff disjoint').mpr holds) with ⟨t, held, rfl⟩
    exact ⟨t, held, patchable⟩
  · rintro ⟨t, holds, patchable⟩
    exact ⟨t.cold, (Segments.find_eq_some_iff disjoint').mp
      ((find_reload disjoint keyed snapshot).mpr ⟨t, holds, rfl⟩), patchable⟩

/-- **What the store counts.** In every run, `route_count` is the number of signatures held, and
`patchable_route_count` that of the routes which are served at every amount without a variant;
all others are served at none, and no route panics. A flush, a new process and its load keep
both counts. -/
theorem store_statistics (reached : (storeMachine codec).Reach (DecodesShort codec) w) :
    w.store.routeCount = {sig | w.Live sig}.ncard ∧
      w.store.patchableRouteCount =
        {sig | ∃ t, w.store.segments.Holds sig t ∧ ServesAll codec t}.ncard ∧
      w.store.routeCount - w.store.patchableRouteCount =
        {sig | ∃ t, w.store.segments.Holds sig t ∧ ServesNone codec t}.ncard ∧
      ∀ file, Snapshot w.store file →
        (w.reload file).store.routeCount = w.store.routeCount ∧
          (w.reload file).store.patchableRouteCount = w.store.patchableRouteCount := by
  have disjoint := reach_disjoint reached
  have fit := reach_offsetsFit reached
  have keyed := reach_keyed reached
  have routes := Segments.size_add_size disjoint
  have patchable := patchableRouteCount_eq disjoint
  have others := Segments.countP_values disjoint fun t => !t.inAmountOffset.isSome
  refine ⟨routes, ?_, ?_, fun file snapshot => ?_⟩
  · rw [patchable]
    congr
    ext sig
    exact exists_congr fun t => and_congr_right fun holds =>
      (servesAll_iff (fit sig t holds)).symm
  · have total : w.store.routeCount = w.store.patchableRouteCount +
        (w.store.segments.hot.values ++ w.store.segments.cold.values).countP
          fun t => !t.inAmountOffset.isSome := by
      have length := Segments.length_values w.store.segments
      rw [List.length_eq_countP_add_countP fun t : RouteTemplate => t.inAmountOffset.isSome]
        at length
      simp only [Bool.decide_eq_false, Bool.not_eq_true] at length
      exact length.symm
    rw [total, Nat.add_sub_cancel_left, others]
    congr
    ext sig
    exact exists_congr fun t => and_congr_right fun holds =>
      (servesNone_iff (fit sig t holds)).symm
  · have anyReached := reached.mono fun _ _ _ => trivial
    have disjoint' := reach_disjoint (reach_reload snapshot anyReached)
    exact ⟨routeCount_reload disjoint keyed snapshot,
      patchable_reload disjoint keyed snapshot disjoint'⟩

/-- One route, which is served at every amount. -/
theorem store_statistics_bareService :
    let captured := bareService.respond Base64.standard () 5 (onChainFloor 5)
    let w := World.initial.insertRoute Base64.standard (.array []) captured 5
    w.store.routeCount = 1 ∧ w.store.patchableRouteCount = 1 := by
  intro captured w
  have decoded : Base64.standard.decode captured.swapInstruction.data =
      some (bareService.data () 5 (onChainFloor 5)) := Base64.standard.decode_encode _
  have short : ∀ data, Base64.standard.decode captured.swapInstruction.data = some data →
      data.length < 2 ^ 64 := by
    intro data same
    obtain rfl := Option.some.inj (decoded.symm.trans same)
    rw [SwapService.length_data]
    decide
  have taken : storeStep Base64.standard World.initial (.insertRoute (.array []) captured 5) w :=
    rfl
  have reached : (storeMachine Base64.standard).Reach (DecodesShort Base64.standard) w :=
    (Machine.Reach.ofStart (M := storeMachine Base64.standard) rfl).step
      (i := .insertRoute (.array []) captured 5) short taken
  have fresh : World.initial.store.segments.find (routeSig (.array [])) = none :=
    Segments.find_eq_none_iff.mpr (not_live_initial _)
  have pushed := segments_of_step taken
  simp only [nextSegments, fresh] at pushed
  have live : {sig | w.Live sig} = {routeSig (.array [])} := by
    ext sig
    show w.store.segments.Live sig ↔ sig = routeSig (.array [])
    rw [pushed, Segments.live_push]
    exact or_iff_left fun survives => not_live_initial sig survives.live
  have serves : {sig | ∃ t, w.store.segments.Holds sig t ∧ ServesAll Base64.standard t} =
      {routeSig (.array [])} := by
    refine Set.Subset.antisymm ?_ ?_
    · rintro sig ⟨t, holds, -⟩
      exact live ▸ holds.live
    · rintro sig rfl
      refine ⟨_, pushed ▸ Segments.holds_push_self, ?_⟩
      rw [servesAll_iff (offsetsFit_newTemplate short)]
      simp only [newTemplate, captureOffsets, decoded]
      decide
  rcases store_statistics reached with ⟨routes, patchable, -⟩
  rw [routes, patchable, live, serves]
  exact ⟨Set.ncard_singleton _, Set.ncard_singleton _⟩

end ArbBot
