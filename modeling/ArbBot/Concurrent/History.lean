import ArbBot.Concurrent.Sections
import ArbBot.TierOne.Transparency

/-!
# What a template is made of

A live template is determined by its life: how it entered the store and the captures
since (`template_history`). No section rebuilds, swaps or forgets an instruction: a
capture adds a variant for a new amount, a hit counts, and a promotion moves the
template as it is.

From it the representation of the store follows (`reach_represented`): one entry a
signature, under the signature the template carries, with offsets inside the captured
data, and with the base instruction among the variants of every template that was
created here.
-/

namespace ArbBot

open Foundation

/-! ## Lives -/

/-- The template a life began with. -/
def Life.origin (codec : TextCodec) (sig : U128) (life : Life) : Option RouteTemplate :=
  match life.saved with
  | some t => some t
  | none =>
      life.captures.head?.map fun capture =>
        newTemplate codec sig capture.2 capture.1 (onChainFloor capture.1)

/-- The count the life began with: 0 for a template created here. -/
def Life.persisted (life : Life) : UInt64 :=
  (life.saved.map RouteTemplate.seenCount).getD 0

/-- Two templates with the same base instruction, amounts and offsets. -/
structure RouteTemplate.SameBase (t t₀ : RouteTemplate) : Prop where
  routeSignature : t.routeSignature = t₀.routeSignature
  swapIxs : t.swapIxs = t₀.swapIxs
  templateInAmount : t.templateInAmount = t₀.templateInAmount
  templateQuotedOut : t.templateQuotedOut = t₀.templateQuotedOut
  inAmountOffset : t.inAmountOffset = t₀.inAmountOffset
  quotedOutOffset : t.quotedOutOffset = t₀.quotedOutOffset

/-- What the life of a template says of it. -/
structure Life.Determines (codec : TextCodec) (sig : U128) (life : Life) (t : RouteTemplate) :
    Prop where
  base : ∃ t₀, life.origin codec sig = some t₀ ∧ t.SameBase t₀
  seenCount : t.seenCount = life.persisted + UInt64.ofNat life.captures.length
  variants : ∀ amount, t.amountVariants[amount]? = life.captures.lookup amount

theorem RouteTemplate.SameBase.refl (t : RouteTemplate) : t.SameBase t :=
  ⟨rfl, rfl, rfl, rfl, rfl, rfl⟩

theorem RouteTemplate.SameBase.trans {t t₁ t₂ : RouteTemplate} (first : t.SameBase t₁)
    (second : t₁.SameBase t₂) : t.SameBase t₂ where
  routeSignature := first.routeSignature.trans second.routeSignature
  swapIxs := first.swapIxs.trans second.swapIxs
  templateInAmount := first.templateInAmount.trans second.templateInAmount
  templateQuotedOut := first.templateQuotedOut.trans second.templateQuotedOut
  inAmountOffset := first.inAmountOffset.trans second.inAmountOffset
  quotedOutOffset := first.quotedOutOffset.trans second.quotedOutOffset

section Life

variable {codec : TextCodec} {sig : U128} {life : Life} {t : RouteTemplate} {amount : UInt64}
  {swapIxs : SwapInstructionsResponse}

theorem RouteTemplate.sameBase_hit (t : RouteTemplate) : t.hit.SameBase t :=
  ⟨rfl, rfl, rfl, rfl, rfl, rfl⟩

theorem RouteTemplate.sameBase_seen (t : RouteTemplate) (amount : UInt64)
    (swapIxs : SwapInstructionsResponse) : (t.seen amount swapIxs).SameBase t :=
  ⟨rfl, rfl, rfl, rfl, rfl, rfl⟩

theorem Life.Determines.hit (determines : life.Determines codec sig t) :
    life.Determines codec sig t.hit where
  base := by
    rcases determines.base with ⟨t₀, began, same⟩
    exact ⟨t₀, began, t.sameBase_hit.trans same⟩
  seenCount := determines.seenCount
  variants := determines.variants

/-- A life that began keeps its beginning. -/
theorem Life.origin_capture {t₀ : RouteTemplate} (began : life.origin codec sig = some t₀) :
    Life.origin codec sig { life with captures := life.captures ++ [(amount, swapIxs)] } =
      some t₀ := by
  unfold Life.origin at began ⊢
  cases saved : life.saved with
  | some t =>
      rw [saved] at began
      exact began
  | none =>
      rw [saved] at began
      rcases captures : life.captures with _ | ⟨first, rest⟩
      · rw [captures] at began
        cases began
      · rw [captures] at began
        exact began

theorem Life.Determines.capture (determines : life.Determines codec sig t) :
    Life.Determines codec sig { life with captures := life.captures ++ [(amount, swapIxs)] }
      (t.seen amount swapIxs) where
  base := by
    rcases determines.base with ⟨t₀, began, same⟩
    exact ⟨t₀, origin_capture began, (t.sameBase_seen amount swapIxs).trans same⟩
  seenCount := by
    have one : UInt64.ofNat (life.captures.length + 1) =
        UInt64.ofNat life.captures.length + 1 := UInt64.ofNat_add _ 1
    show t.seenCount + 1 = life.persisted + UInt64.ofNat (life.captures ++ _).length
    rw [List.length_append, List.length_singleton, one, determines.seenCount, UInt64.add_assoc]
  variants amount' := by
    show (t.amountVariants.insertIfNew amount swapIxs)[amount']? = _
    rw [Std.HashMap.getElem?_insertIfNew, List.lookup_append, determines.variants amount']
    cases found : life.captures.lookup amount' with
    | some ixs =>
        have member : amount' ∈ t.amountVariants :=
          Segments.mem_of_getElem? ((determines.variants amount').trans found)
        rw [if_neg, Option.some_or]
        intro given
        rcases given with ⟨same, absent⟩
        rw [eq_of_beq same] at absent
        exact absent member
    | none =>
        have absent : amount' ∉ t.amountVariants :=
          Segments.notMem_of_getElem? ((determines.variants amount').trans found)
        by_cases same : amount = amount'
        · subst same
          simp [absent]
        · have apart : (amount' == amount) = false := beq_eq_false_iff_ne.mpr (Ne.symm same)
          simp [same, List.lookup_cons, apart]

theorem Life.determines_new :
    Life.Determines codec sig { saved := none, captures := [(amount, swapIxs)] }
      (newTemplate codec sig swapIxs amount (onChainFloor amount)) where
  base := ⟨_, rfl, .refl _⟩
  seenCount := rfl
  variants amount' := by
    show ((∅ : Std.HashMap UInt64 SwapInstructionsResponse).insert amount swapIxs)[amount']? = _
    rw [Std.HashMap.getElem?_insert, Std.HashMap.getElem?_empty]
    by_cases same : amount = amount'
    · subst same
      simp
    · have apart : (amount' == amount) = false := beq_eq_false_iff_ne.mpr (Ne.symm same)
      simp [same, List.lookup_cons, apart]

theorem Life.determines_saved (bare : t.amountVariants = ∅) :
    Life.Determines codec sig { saved := some t, captures := [] } t where
  base := ⟨t, rfl, .refl t⟩
  seenCount := (UInt64.add_zero t.seenCount).symm
  variants amount' := by
    rw [bare, Std.HashMap.getElem?_empty]
    rfl

/-- The variants of a template created here hold its base instruction. -/
theorem Life.Determines.created (determines : life.Determines codec sig t)
    (here : life.saved = none) : t.amountVariants[t.templateInAmount]? = some t.swapIxs := by
  rcases determines.base with ⟨t₀, began, same⟩
  rw [Life.origin, here] at began
  rcases captures : life.captures with _ | ⟨first, rest⟩
  · rw [captures] at began
    cases began
  · rw [captures] at began
    obtain rfl := Option.some.inj began
    rw [same.templateInAmount, same.swapIxs, determines.variants, captures]
    exact Segments.lookup_cons_self

end Life

/-- A record of the file has no variants. -/
theorem bare_entries {file : RouteFile} {sig : U128} {tmpl : RouteTemplate}
    (member : (sig, tmpl) ∈ file.entries) : tmpl.amountVariants = ∅ := by
  rcases List.mem_filterMap.mp member with ⟨rec, -, entry⟩
  rcases Option.map_eq_some_iff.mp entry with ⟨sig', -, same⟩
  rcases Prod.mk.inj same with ⟨-, rfl⟩
  rfl

section Reach

variable {codec : TextCodec} {p p' : Process} {label : ProcessStep}

theorem determines_of_step (disjoint : p.world.store.segments.Disjoint)
    (before : ∀ sig t, p.world.store.segments.find sig = some t →
      (p.lives sig).Determines codec sig t)
    (taken : processStep codec p label p') :
    ∀ sig t, p'.world.store.segments.find sig = some t →
      (p'.lives sig).Determines codec sig t := by
  intro sig t' found
  rcases template_of_step disjoint taken found with
    ⟨life, t, old, same | hit⟩ | ⟨routePlan, swapIxs, inAmount, t, -, -, old, seen, life⟩ |
      ⟨routePlan, swapIxs, inAmount, -, -, -, new, life⟩ | ⟨file, -, -, -, saved, life⟩
  · rw [life, same]
    exact before sig t old
  · rw [life, hit]
    exact (before sig t old).hit
  · rw [life, seen]
    exact (before sig t old).capture
  · rw [life, new]
    exact Life.determines_new
  · rw [life]
    exact Life.determines_saved (bare_entries (Segments.mem_of_lookup saved))

theorem reach_determines (reached : (processMachine codec).Reach Machine.anyStep p) {sig : U128}
    {t : RouteTemplate} (holds : p.world.store.segments.Holds sig t) :
    (p.lives sig).Determines codec sig t := by
  have all : ∀ sig t, p.world.store.segments.find sig = some t →
      (p.lives sig).Determines codec sig t := by
    refine reached.invariant_of_reach (fun p => ∀ sig t,
      p.world.store.segments.find sig = some t → (p.lives sig).Determines codec sig t) ?_ ?_
    · intro p started sig t found
      obtain rfl := started
      exact (not_live_initial sig (Segments.holds_of_find found).live).elim
    · exact fun _ _ _ reached before _ taken =>
        determines_of_step (reach_disjoint (reach_world reached)) before taken
  exact all sig t ((Segments.find_eq_some_iff (reach_disjoint (reach_world reached))).mpr holds)

/-- A section does not change what a live template was captured from. -/
theorem sameBase_of_step (disjoint : p.world.store.segments.Disjoint)
    (taken : processStep codec p label p') {sig : U128} {t t' : RouteTemplate}
    (before : p.world.store.segments.find sig = some t)
    (after : p'.world.store.segments.find sig = some t') : t'.SameBase t := by
  rcases template_of_step disjoint taken after with
    ⟨-, t₁, old, same | hit⟩ | ⟨-, swapIxs, inAmount, t₁, -, -, old, seen, -⟩ |
      ⟨-, -, -, -, -, fresh, -⟩ | ⟨-, -, -, fresh, -⟩
  · obtain rfl := Option.some.inj (before.symm.trans old)
    rw [same]
    exact .refl t
  · obtain rfl := Option.some.inj (before.symm.trans old)
    rw [hit]
    exact t.sameBase_hit
  · obtain rfl := Option.some.inj (before.symm.trans old)
    rw [seen]
    exact t.sameBase_seen inAmount swapIxs
  · rw [before] at fresh
    cases fresh
  · rw [before] at fresh
    cases fresh

/-- **A template is its history.** In every process, whatever its threads did, the
template live under a signature has the count it entered with plus one for each capture
since, a variant for exactly the amounts of those captures, the first capture of each
amount, and the base it entered with; and no section changes that base. -/
theorem template_history (reached : (processMachine codec).Reach Machine.anyStep p) {sig : U128}
    {t : RouteTemplate} (holds : p.world.store.segments.Holds sig t) :
    t.seenCount = (p.lives sig).persisted + UInt64.ofNat (p.lives sig).captures.length ∧
      (∀ amount, amount ∈ t.amountVariants ↔ amount ∈ (p.lives sig).captures.map Prod.fst) ∧
      (∀ amount, t.amountVariants[amount]? = (p.lives sig).captures.lookup amount) ∧
      (∃ t₀, (p.lives sig).origin codec sig = some t₀ ∧ t.SameBase t₀) ∧
      ∀ label p' t', processStep codec p label p' →
        p'.world.store.segments.Holds sig t' → t'.SameBase t := by
  have disjoint := reach_disjoint (reach_world reached)
  have determines := reach_determines reached holds
  refine ⟨determines.seenCount, fun amount => ?_, determines.variants, determines.base, ?_⟩
  · rw [Std.HashMap.mem_iff_isSome_getElem?, determines.variants, List.lookup_isSome_iff]
    simp only [List.mem_map, beq_iff_eq]
    exact exists_congr fun capture => and_congr_right' eq_comm
  · intro label p' t' taken holds'
    have disjoint' := reach_disjoint (reach_world (reached.step (i := label) trivial taken))
    exact sameBase_of_step disjoint taken ((Segments.find_eq_some_iff disjoint).mpr holds)
      ((Segments.find_eq_some_iff disjoint').mpr holds')

/-! ## The representation of the store -/

/-- The offsets of a template are both missing, or point next to each other into its
data, at its amount. -/
def OffsetsInside (codec : TextCodec) (t : RouteTemplate) : Prop :=
  t.inAmountOffset = none ∧ t.quotedOutOffset = none ∨
    ∃ offset data, t.inAmountOffset = some offset ∧ t.quotedOutOffset = some (offset + 8) ∧
      codec.decode t.swapIxs.swapInstruction.data = some data ∧ offset + 16 ≤ data.length ∧
        window data offset 8 = le64 t.templateInAmount

/-- The representation invariant of the routes. -/
structure Represented (codec : TextCodec) (p : Process) : Prop where
  disjoint : ∀ sig, ¬ (sig ∈ p.world.store.routesHot ∧ sig ∈ p.world.store.routesCold)
  keyed : ∀ sig t, p.world.store.segments.Holds sig t → t.routeSignature = sig
  offsets : ∀ sig t, p.world.store.segments.Holds sig t → OffsetsInside codec t
  created : ∀ sig t, p.world.store.segments.Holds sig t → (p.lives sig).saved = none →
    t.amountVariants[t.templateInAmount]? = some t.swapIxs

theorem offsetsInside_newTemplate (codec : TextCodec) (sig : U128)
    (swapIxs : SwapInstructionsResponse) (inAmount quotedOut : UInt64) :
    OffsetsInside codec (newTemplate codec sig swapIxs inAmount quotedOut) := by
  unfold OffsetsInside newTemplate
  cases decoded : codec.decode swapIxs.swapInstruction.data with
  | none => exact Or.inl (by simp [captureOffsets, decoded])
  | some data =>
      rcases search : discoverOffsets data inAmount quotedOut with _ | ⟨inOff, outOff⟩
      · exact Or.inl (by simp [captureOffsets, decoded, search])
      · rcases discoverOffsets_inside search with ⟨rfl, inside, reads⟩
        refine Or.inr ⟨inOff, data, ?_, ?_, rfl, inside, reads⟩
        · simp [captureOffsets, decoded, search]
        · simp [captureOffsets, decoded, search]

theorem reach_offsets {guard : World → StoreCall → Prop} {w : World}
    (reached : (storeMachine codec).Reach guard w) :
    w.store.segments.All fun _ t => OffsetsInside codec t := by
  refine reach_templates ?_ ?_ ?_ ?_ reached
  · exact fun _ _ inside => inside
  · exact fun _ _ inside => inside
  · exact fun _ _ _ _ _ _ inside => inside
  · exact fun _ _ swapIxs inAmount _ => offsetsInside_newTemplate codec _ swapIxs inAmount _

/-- **The representation of the store.** Whatever calls the threads make, in whatever
order their sections run, through flushes, restarts and loads of the store's own file. -/
theorem reach_represented (reached : (processMachine codec).Reach Machine.anyStep p) :
    Represented codec p where
  disjoint sig both := reach_disjoint (reach_world reached) sig both.1 both.2
  keyed := reach_keyed (reach_world reached)
  offsets := reach_offsets (reach_world reached)
  created _ _ holds here := (reach_determines reached holds).created here

end Reach

/-- A first capture at 5 lamports. -/
theorem reach_represented_captured :
    ∃ (p : Process) (t : RouteTemplate),
      p.world.store.routesHot[routeSig (.array [])]? = some t ∧
        Represented Base64.standard p := by
  rcases exists_captured Base64.standard (.array [])
    (bareService.respond Base64.standard () 5 (onChainFloor 5)) 5 with ⟨p, reached, -, hot, -⟩
  exact ⟨p, _, hot, reach_represented reached⟩

theorem template_history_captured :
    ∃ (p : Process) (t : RouteTemplate),
      p.world.store.segments.Holds (routeSig (.array [])) t ∧
        (p.lives (routeSig (.array []))).captures.length = 1 ∧
          t.seenCount = (p.lives (routeSig (.array []))).persisted +
            UInt64.ofNat (p.lives (routeSig (.array []))).captures.length := by
  rcases exists_captured Base64.standard (.array [])
    (bareService.respond Base64.standard () 5 (onChainFloor 5)) 5 with
    ⟨p, reached, -, hot, life⟩
  exact ⟨p, _, Or.inl hot, by rw [life]; rfl, (template_history reached (Or.inl hot)).1⟩

end ArbBot
