import ArbBot.TierOne.Transparency

/-!
# The minimum output of what Tier 1 serves

`serve_route` never reads the floor it is passed. Whether the served instruction holds
that floor depends on what was captured: `FloorEmbedded` for a first capture, the bytes
at the stored offset for a further one, the amounts of the record for a reload.
`KeepsFloor` states these conditions call by call, and `floorServed_iff` shows that they
are the exact ones, from any file an earlier build may have left.
-/

namespace ArbBot

open Foundation

/-- The instruction data holds the floor of the amount at the offset. -/
def HoldsFloor (codec : TextCodec) (ixs : SwapInstructionsResponse) (outOff : Nat)
    (amount : UInt64) : Prop :=
  ∃ data, codec.decode ixs.swapInstruction.data = some data ∧
    window data outOff 8 = le64 (onChainFloor amount)

/-- Whatever the template serves holds the floor of the amount it is served for. -/
def FloorServed (codec : TextCodec) (t : RouteTemplate) : Prop :=
  ∀ outOff, t.quotedOutOffset = some outOff → ∀ amount ixs,
    serveRoute codec t amount (onChainFloor amount) = .ok (some ixs) →
      HoldsFloor codec ixs outOff amount

/-- The response holds the amount and its floor next to each other or, failing that,
does not hold the amount at exactly one place. -/
def FloorEmbedded (codec : TextCodec) (ixs : SwapInstructionsResponse) (amount : UInt64) :
    Prop :=
  ∀ data, codec.decode ixs.swapInstruction.data = some data → 16 ≤ data.length →
    (∃ p, p + 16 ≤ data.length ∧ pairAt data amount (onChainFloor amount) p = true) ∨
      ¬ ∃! p, p + 16 ≤ data.length ∧ amountAt data amount p = true

/-- Both amounts of the template can be written in place. -/
def Patchable (codec : TextCodec) (t : RouteTemplate) : Prop :=
  ∃ inOff outOff data, t.inAmountOffset = some inOff ∧ t.quotedOutOffset = some outOff ∧
    codec.decode t.swapIxs.swapInstruction.data = some data ∧ Fits data inOff outOff

/-- The calls that keep every template serving its floor. -/
def KeepsFloor (codec : TextCodec) (w : World) : StoreCall → Prop
  | .insertRoute routePlan swapIxs amount =>
      match w.store.segments.find (routeSig routePlan) with
      | some t =>
          ∀ outOff, t.quotedOutOffset = some outOff →
            amount ∈ t.amountVariants ∨ HoldsFloor codec swapIxs outOff amount
      | none => FloorEmbedded codec swapIxs amount
  | .load =>
      ∀ file, w.disk = some file → ∀ sig t, ¬ w.Live sig → file.entries.lookup sig = some t →
        Patchable codec t → t.templateQuotedOut = onChainFloor t.templateInAmount
  | _ => True

/-! ## One template -/

section Template

variable {codec : TextCodec} {t : RouteTemplate} {amount : UInt64}
  {ixs : SwapInstructionsResponse}

theorem FloorServed.hit (served : FloorServed codec t) : FloorServed codec t.hit := by
  intro outOff outAt amount ixs answer
  exact served outOff outAt amount ixs answer

/-- A patch writes the floor just when the base was captured with its own floor. -/
theorem holdsFloor_patch_iff {data : List UInt8} {inOff outOff : Nat}
    (fits : Fits data inOff outOff) :
    HoldsFloor codec (t.swapIxs.withData (codec.encode
        (patched data inOff outOff amount (amount + t.delta)))) outOff amount ↔
      t.templateQuotedOut = onChainFloor t.templateInAmount := by
  unfold HoldsFloor
  simp only [SwapInstructionsResponse.data_withData, codec.decode_encode, Option.some.injEq,
    exists_eq_left', window_patched_out fits]
  have cancel : t.templateInAmount + t.delta = t.templateQuotedOut := by
    rw [RouteTemplate.delta, UInt64.add_comm, UInt64.sub_add_cancel]
  constructor
  · intro same
    have delta : t.delta = 6600 := by
      have sums := le64_inj same
      rw [onChainFloor_eq] at sums
      exact UInt64.add_right_inj amount |>.mp sums
    rw [← cancel, delta, onChainFloor_eq]
  · intro quoted
    rw [RouteTemplate.delta, quoted, onChainFloor_sub, onChainFloor_eq]

/-- A template without variants serves only patches. -/
theorem floorServed_iff_of_unwarmed (unwarmed : ∀ amount : UInt64, t.amountVariants[amount]? = none) :
    FloorServed codec t ↔
      (Patchable codec t → t.templateQuotedOut = onChainFloor t.templateInAmount) := by
  constructor
  · intro served patchable
    rcases patchable with ⟨inOff, outOff, data, inAt, outAt, decoded, fits⟩
    have answer := served outOff outAt 0 _ (serveRoute_eq_ok_some_iff.mpr
      (Or.inr ⟨unwarmed 0, inOff, outOff, data, inAt, outAt, decoded, fits, rfl⟩))
    exact (holdsFloor_patch_iff fits).mp answer
  · intro quoted outOff outAt amount ixs answer
    rcases serveRoute_eq_ok_some_iff.mp answer with
      variant | ⟨-, inOff, outOff', data, inAt, outAt', decoded, fits, rfl⟩
    · rw [unwarmed] at variant
      cases variant
    · obtain rfl := Option.some.inj (outAt.symm.trans outAt')
      exact (holdsFloor_patch_iff fits).mpr
        (quoted ⟨inOff, outOff, data, inAt, outAt, decoded, fits⟩)

/-- A further capture keeps the floor just when its own bytes hold it, unless the amount
is already cached and the capture is dropped. -/
theorem floorServed_seen_iff (served : FloorServed codec t) :
    FloorServed codec (t.seen amount ixs) ↔
      ∀ outOff, t.quotedOutOffset = some outOff →
        amount ∈ t.amountVariants ∨ HoldsFloor codec ixs outOff amount := by
  constructor
  · intro servedAfter outOff outAt
    by_cases cached : amount ∈ t.amountVariants
    · exact Or.inl cached
    · right
      apply servedAfter outOff outAt amount ixs
      rw [serveRoute_eq_ok_some_iff]
      left
      rw [RouteTemplate.seen, Std.HashMap.getElem?_insertIfNew, if_pos ⟨BEq.rfl, cached⟩]
  · intro captured outOff outAt amount' ixs' answer
    rcases serveRoute_eq_ok_some_iff.mp answer with variant | ⟨absent, patch⟩
    · simp only [RouteTemplate.seen, Std.HashMap.getElem?_insertIfNew, beq_iff_eq] at variant
      split at variant
      · rename_i new
        rcases new with ⟨rfl, uncached⟩
        obtain rfl := Option.some.inj variant
        rcases captured outOff outAt with cached | holds
        · exact (uncached cached).elim
        · exact holds
      · exact served outOff outAt amount' ixs'
          (serveRoute_eq_ok_some_iff.mpr (Or.inl variant))
    · refine served outOff outAt amount' ixs' (serveRoute_eq_ok_some_iff.mpr (Or.inr ⟨?_, patch⟩))
      simp only [RouteTemplate.seen, Std.HashMap.getElem?_insertIfNew, beq_iff_eq] at absent
      split at absent
      · cases absent
      · exact absent

/-- The only match of a pass is a unique position, and conversely. -/
theorem filter_positions_eq_singleton_iff {data : List UInt8} {isMatch : Nat → Bool}
    (long : 16 ≤ data.length) :
    (∃ p, (positions data).filter isMatch = [p]) ↔
      ∃! p, p + 16 ≤ data.length ∧ isMatch p = true := by
  simp only [filter_positions_eq_singleton long]
  rfl

/-- The discovered offset holds the floor just when the search found the pair or
nothing. -/
theorem discoverOffsets_floor_iff {data : List UInt8} {floor : UInt64} :
    (∀ inOff outOff, discoverOffsets data amount floor = some (inOff, outOff) →
        window data outOff 8 = le64 floor) ↔
      (16 ≤ data.length →
        (∃ p, p + 16 ≤ data.length ∧ pairAt data amount floor p = true) ∨
          ¬ ∃! p, p + 16 ≤ data.length ∧ amountAt data amount p = true) := by
  constructor
  · intro holds long
    by_contra neither
    rcases not_or.mp neither with ⟨noPair, unique⟩
    rcases (filter_positions_eq_singleton_iff long).mpr (not_not.mp unique) with ⟨p, only⟩
    have none : (positions data).filter (pairAt data amount floor) = [] := by
      apply List.filter_eq_nil_iff.mpr
      intro q member isMatch
      exact noPair ⟨q, (mem_positions long).mp member, isMatch⟩
    have floorAt := holds p (p + 8)
      (discoverOffsets_eq_some_iff.mpr ⟨long, rfl, Or.inr ⟨none, only⟩⟩)
    rcases mem_of_filter_eq_singleton only with ⟨member, amountMatch⟩
    refine noPair ⟨p, (mem_positions long).mp member, ?_⟩
    rw [pairAt, Bool.and_eq_true, beq_iff_eq, beq_iff_eq]
    exact ⟨beq_iff_eq.mp amountMatch, floorAt⟩
  · intro embedded inOff outOff found
    rcases discoverOffsets_eq_some_iff.mp found with ⟨long, rfl, pair | ⟨noPair, only⟩⟩
    · have isMatch := (mem_of_filter_eq_singleton pair).2
      rw [pairAt, Bool.and_eq_true, beq_iff_eq, beq_iff_eq] at isMatch
      exact isMatch.2
    · exfalso
      rcases embedded long with ⟨p, inside, isMatch⟩ | ambiguous
      · exact List.filter_eq_nil_iff.mp noPair p ((mem_positions long).mpr inside) isMatch
      · exact ambiguous ((filter_positions_eq_singleton_iff long).mp ⟨inOff, only⟩)

/-- A first capture serves its floor just when the floor is embedded in it. -/
theorem floorServed_newTemplate_iff (sig : U128) :
    FloorServed codec (newTemplate codec sig ixs amount (onChainFloor amount)) ↔
      FloorEmbedded codec ixs amount := by
  unfold FloorEmbedded
  simp only [← discoverOffsets_floor_iff]
  have variant : (newTemplate codec sig ixs amount (onChainFloor amount)).amountVariants[amount]? =
      some ixs := Std.HashMap.getElem?_insert_self
  constructor
  · intro served data decoded inOff outOff found
    have outAt : (newTemplate codec sig ixs amount (onChainFloor amount)).quotedOutOffset =
        some outOff := by
      rw [newTemplate, captureOffsets, decoded, Option.bind_some, found]
      rfl
    rcases served outOff outAt amount ixs (serveRoute_eq_ok_some_iff.mpr (Or.inl variant)) with
      ⟨data', decoded', holds⟩
    obtain rfl := Option.some.inj (decoded.symm.trans decoded')
    exact holds
  · intro embedded outOff outAt amount' ixs' answer
    rcases serveRoute_eq_ok_some_iff.mp answer with
      found | ⟨-, inOff, outOff', data, -, outAt', -, fits, rfl⟩
    · simp only [newTemplate, Std.HashMap.getElem?_insert, Std.HashMap.getElem?_empty, beq_iff_eq]
        at found
      split at found
      · rename_i same
        subst same
        obtain rfl := Option.some.inj found
        rcases Option.map_eq_some_iff.mp outAt with ⟨offsets, captured, rfl⟩
        rcases Option.bind_eq_some_iff.mp captured with ⟨data, decoded, search⟩
        exact ⟨data, decoded, embedded data decoded offsets.1 offsets.2 search⟩
      · cases found
    · obtain rfl := Option.some.inj (outAt.symm.trans outAt')
      exact (holdsFloor_patch_iff fits).mpr rfl

end Template

/-! ## One call -/

section Step

variable {codec : TextCodec} {w w' : World} {call : StoreCall}

theorem unwarmed_entries {file : RouteFile} {sig : U128} {t : RouteTemplate}
    (member : (sig, t) ∈ file.entries) (amount : UInt64) : t.amountVariants[amount]? = none := by
  rcases List.mem_filterMap.mp member with ⟨rec, -, entry⟩
  rcases Option.map_eq_some_iff.mp entry with ⟨sig', -, same⟩
  rcases Prod.mk.inj same with ⟨rfl, rfl⟩
  exact Std.HashMap.getElem?_empty

/-- A call keeps every live template serving its floor just when it meets the
condition. -/
theorem floorServed_step_iff (before : w.store.segments.All fun _ t => FloorServed codec t)
    (taken : storeStep codec w call w') :
    (w'.store.segments.All fun _ t => FloorServed codec t) ↔ KeepsFloor codec w call := by
  have hits : ∀ sig : U128, ∀ t, FloorServed codec t → FloorServed codec t.hit :=
    fun _ _ served => served.hit
  rw [segments_of_step taken]
  cases call with
  | insertRoute routePlan swapIxs amount =>
      simp only [nextSegments, KeepsFloor]
      cases found : w.store.segments.find (routeSig routePlan) with
      | some t =>
          have served := before _ _ (Segments.holds_of_find found)
          simp only [← floorServed_seen_iff served]
          constructor
          · intro after
            exact after _ _ (Segments.holds_update found)
          · intro new
            apply before.update
            intro t' found'
            obtain rfl := Option.some.inj (found.symm.trans found')
            exact new
      | none =>
          simp only [← floorServed_newTemplate_iff (routeSig routePlan)]
          constructor
          · intro after
            exact after _ _ Segments.holds_push_self
          · intro new
            exact before.push new
  | load =>
      simp only [nextSegments, KeepsFloor]
      cases disk : w.disk with
      | none => simp [before]
      | some file =>
          simp only [Segments.all_fillAll, before, true_and, Option.some.injEq, forall_eq']
          refine forall_congr' fun sig => forall_congr' fun t => ?_
          refine forall_congr' fun fresh => forall_congr' fun first => ?_
          exact floorServed_iff_of_unwarmed (unwarmed_entries (Segments.mem_of_lookup first))
  | recordRouteHit sig =>
      refine iff_of_true (before.update fun t found => ?_) trivial
      exact (before _ _ (Segments.holds_of_find found)).hit
  | restart => exact iff_of_true (all_initial _) trivial
  | getRoute sig => exact iff_of_true (before.fetch (hits sig)) trivial
  | getRouteForHops routePlan =>
      refine iff_of_true ?_ trivial
      simp only [nextSegments]
      cases StoreCall.lookup w (.getRouteForHops routePlan) with
      | none => exact before
      | some sig => exact before.fetch (hits sig)
  | recordHops _ _ => exact iff_of_true before trivial
  | flush _ => exact iff_of_true before trivial

end Step

/-! ## Runs -/

/-- **The floor on chain.** From an empty store and any file, all templates of all
worlds of a run serve the floor of the amount they are served for just when every call
of the run meets `KeepsFloor`. -/
theorem floorServed_iff {codec : TextCodec} {w w' : World} {steps : List (Machine.Entry _ _)}
    (started : w.store = .new) (trace : (storeMachine codec).Trace w steps w') :
    (∀ entry ∈ steps, entry.after.store.segments.All fun _ t => FloorServed codec t) ↔
      ∀ entry ∈ steps, KeepsFloor codec entry.before entry.label := by
  refine Machine.Trace.all_iff (fun _ => True)
    (fun w => w.store.segments.All fun _ t => FloorServed codec t) (fun _ _ _ _ _ => trivial)
    (fun _ _ _ _ before taken => floorServed_step_iff before taken) trace trivial ?_
  rw [started]
  exact all_initial _

/-- A run that captures the bare amounts once. -/
theorem floorServed_bareService :
    let captured := bareService.respond Base64.standard () 5 (onChainFloor 5)
    let w := World.initial.insertRoute Base64.standard (.array []) captured 5
    w.store.segments.All fun _ t => FloorServed Base64.standard t := by
  intro captured w
  have trace : (storeMachine Base64.standard).Trace World.initial
      ([] ++ [⟨World.initial, .insertRoute (.array []) captured 5, w⟩]) w :=
    (Machine.Trace.nil _).snoc rfl
  have decoded : Base64.standard.decode captured.swapInstruction.data =
      some (bareService.data () 5 (onChainFloor 5)) := Base64.standard.decode_encode _
  have kept : KeepsFloor Base64.standard World.initial
      (.insertRoute (.array []) captured 5) := by
    have absent := Segments.find_eq_none_iff.mpr (not_live_initial (routeSig (.array [])))
    simp only [KeepsFloor, absent]
    intro data found _
    obtain rfl := Option.some.inj (decoded.symm.trans found)
    exact Or.inl ⟨0, by decide, by decide⟩
  refine (floorServed_iff rfl trace).mpr ?_ _ (List.mem_singleton_self _)
  intro entry member
  rw [List.nil_append, List.mem_singleton] at member
  rw [member]
  exact kept

/-- The service embedded 9999 where 6605 was asked for: the search falls back to the
amount alone, and the instruction is served again with 9999 as its minimum. -/
theorem floor_not_served :
    let captured := bareService.respond Base64.standard () 5 9999
    let w := World.initial.insertRoute Base64.standard (.array []) captured 5
    (storeMachine Base64.standard).Reach Machine.anyStep w ∧
      ∃ t outOff ixs, (getRoute w.store (routeSig (.array []))).1 = some t ∧
        t.quotedOutOffset = some outOff ∧
        serveRoute Base64.standard t 5 (onChainFloor 5) = .ok (some ixs) ∧
        ¬ HoldsFloor Base64.standard ixs outOff 5 := by
  intro captured w
  have decoded : Base64.standard.decode captured.swapInstruction.data =
      some (bareService.data () 5 9999) := Base64.standard.decode_encode _
  have offsets : captureOffsets Base64.standard captured 5 (onChainFloor 5) = some (0, 8) := by
    rw [captureOffsets, decoded]
    decide
  refine ⟨(Machine.Reach.ofStart (M := storeMachine Base64.standard) rfl).step
    (i := .insertRoute (.array []) captured 5) trivial rfl, _, 8, captured,
    getRoute_insertRoute_fresh (not_live_initial _), ?_, ?_, ?_⟩
  · simp [newTemplate, offsets]
  · rw [serveRoute_eq_ok_some_iff]
    exact Or.inl Std.HashMap.getElem?_insert_self
  · intro holds
    rcases holds with ⟨data, found, floorAt⟩
    obtain rfl := Option.some.inj (decoded.symm.trans found)
    revert floorAt
    decide

end ArbBot
