import ArbBot.TierOne.Identity

/-!
# What a Tier-2 hit has in common with the plan

A `template_id` keeps the pool, the mints and the direction of a hop, not its DEX: a
pool belongs to one DEX. `getRouteForHops_sound` shows that a Tier-2 hit was created from
a plan through the same pools, mints and directions, and through the same DEXes wherever
pools determine them.
-/

namespace ArbBot

open Foundation

/-! ## Hop keys of agreeing plans -/

/-- The keys of the hops of a plan. -/
def hopKeys (routePlan : Json) : List (Option HopKey) :=
  match routePlan.asArray with
  | some hops => hops.map hopKey
  | none => []

theorem firstBool_congr {fields fields' : JsonFields}
    (values : ∀ key, key ∉ amountKeys → fields.lookup key = fields'.lookup key)
    {spellings : List String} (signed : ∀ key ∈ spellings, key ∉ amountKeys) :
    firstBool fields spellings = firstBool fields' spellings := by
  induction spellings with
  | nil => rfl
  | cons key rest ih =>
      have later := ih fun key' member => signed key' (List.mem_cons_of_mem _ member)
      simp only [firstBool, values key (signed key List.mem_cons_self), later]

theorem extractDirection_congr {fields fields' : JsonFields}
    (values : ∀ key, key ∉ amountKeys → fields.lookup key = fields'.lookup key)
    (dex : DexKind) : extractDirection dex fields = extractDirection dex fields' := by
  have booleans : firstBool fields ["a_to_b", "aToB", "atob", "a2b"] =
      firstBool fields' ["a_to_b", "aToB", "atob", "a2b"] := firstBool_congr values (by decide)
  have side := values "side" (by decide)
  cases dex <;> simp only [extractDirection, booleans, side]

theorem fromSwapInfo_congr {fields fields' : JsonFields}
    (values : ∀ key, key ∉ amountKeys → fields.lookup key = fields'.lookup key) :
    HopKey.fromSwapInfo fields = HopKey.fromSwapInfo fields' := by
  simp only [HopKey.fromSwapInfo, values "ammKey" (by decide), values "inputMint" (by decide),
    values "outputMint" (by decide), values "label" (by decide),
    extractDirection_congr values]

/-- Hop keys do not depend on amounts. -/
theorem HopAgree.hopKey_eq {hop hop' : Json} (agree : HopAgree hop hop') :
    hopKey hop = hopKey hop' := by
  have inside := agree.inside
  unfold hopKey
  cases info : swapInfo hop with
  | none =>
      cases info' : swapInfo hop' with
      | none => rfl
      | some fields' => rw [info, info'] at inside; exact inside.elim
  | some fields =>
      cases info' : swapInfo hop' with
      | none => rw [info, info'] at inside; exact inside.elim
      | some fields' =>
          rw [info, info'] at inside
          exact fromSwapInfo_congr inside

theorem PlanAgree.hopKeys_eq {routePlan routePlan' : Json}
    (agree : PlanAgree routePlan routePlan') : hopKeys routePlan = hopKeys routePlan' := by
  rcases agree with ⟨hops, hops', rfl, rfl, pairs⟩
  simp only [hopKeys, Json.asArray]
  induction pairs with
  | nil => rfl
  | cons heads _ ih => rw [List.map_cons, List.map_cons, heads.hopKey_eq, ih]

/-! ## Index keys -/

/-- A plan is indexed under the ids of its two hops. -/
theorem pairKey_eq_some_iff {routePlan : Json} {key : String} :
    pairKey routePlan = some key ↔
      ∃ key0 key1, hopKeys routePlan = [some key0, some key1] ∧
        key = key0.templateId ++ "|" ++ key1.templateId := by
  constructor
  · intro found
    rcases pairKey_eq_some found with ⟨hop0, hop1, key0, key1, rfl, found0, found1, same⟩
    exact ⟨key0, key1, by simp [hopKeys, Json.asArray, found0, found1], same⟩
  · intro found
    rcases found with ⟨key0, key1, keys, rfl⟩
    cases routePlan with
    | array hops =>
        simp only [hopKeys, Json.asArray] at keys
        rcases hops with _ | ⟨hop0, _ | ⟨hop1, _ | ⟨hop2, rest⟩⟩⟩ <;> simp at keys
        simp [pairKey, Json.asArray, keys.1, keys.2]
    | _ => simp [hopKeys, Json.asArray] at keys

/-- Neither separator occurs in the pools and mints of the plan. -/
def PlainPlan (routePlan : Json) : Prop :=
  ∀ key, some key ∈ hopKeys routePlan → key.Plain

/-- Two hops each, through the same pools, mints and directions. -/
def SamePools (routePlan routePlan' : Json) : Prop :=
  ∃ key0 key1 key0' key1', hopKeys routePlan = [some key0, some key1] ∧
    hopKeys routePlan' = [some key0', some key1'] ∧
      key0.pair = key0'.pair ∧ key1.pair = key1'.pair

/-- The DEX of every hop is the one its pool belongs to. -/
def DexOfPool (dexOf : String → DexKind) (routePlan : Json) : Prop :=
  ∀ key, some key ∈ hopKeys routePlan → key.dex = dexOf key.poolOrAmmKey

theorem samePools_of_pairKey {routePlan routePlan' : Json} {key : String}
    (plain : PlainPlan routePlan) (plain' : PlainPlan routePlan')
    (found : pairKey routePlan = some key) (found' : pairKey routePlan' = some key) :
    SamePools routePlan routePlan' := by
  rcases pairKey_eq_some_iff.mp found with ⟨key0, key1, keys, rfl⟩
  rcases pairKey_eq_some_iff.mp found' with ⟨key0', key1', keys', same⟩
  have plain0 : key0.Plain := plain key0 (by simp [keys])
  have plain1 : key1.Plain := plain key1 (by simp [keys])
  have plain0' : key0'.Plain := plain' key0' (by simp [keys'])
  have plain1' : key1'.Plain := plain' key1' (by simp [keys'])
  rcases pairKey_inj plain0 plain0' same with ⟨ids0, ids1⟩
  exact ⟨key0, key1, key0', key1', keys, keys', HopKey.templateId_inj plain0 plain0' ids0,
    HopKey.templateId_inj plain1 plain1' ids1⟩

theorem HopKey.eq_of_pair {key key' : HopKey} (same : key.pair = key'.pair)
    (dex : key.dex = key'.dex) : key = key' := by
  rcases key with ⟨_, _, _, _, _, _⟩
  rcases key' with ⟨_, _, _, _, _, _⟩
  simp only [HopKey.pair, Prod.mk.injEq] at same
  simp_all

/-- Where pools determine the DEX, the hop keys are the same altogether. -/
theorem SamePools.hopKeys_eq {routePlan routePlan' : Json} {dexOf : String → DexKind}
    (same : SamePools routePlan routePlan') (dex : DexOfPool dexOf routePlan)
    (dex' : DexOfPool dexOf routePlan') : hopKeys routePlan = hopKeys routePlan' := by
  rcases same with ⟨key0, key1, key0', key1', keys, keys', same0, same1⟩
  have pool : ∀ {a b : HopKey}, a.pair = b.pair → a.poolOrAmmKey = b.poolOrAmmKey :=
    fun pairs => congrArg Prod.fst pairs
  have dex0 : key0.dex = key0'.dex := by
    rw [dex key0 (by simp [keys]), dex' key0' (by simp [keys']), pool same0]
  have dex1 : key1.dex = key1'.dex := by
    rw [dex key1 (by simp [keys]), dex' key1' (by simp [keys']), pool same1]
  rw [keys, keys', HopKey.eq_of_pair same0 dex0, HopKey.eq_of_pair same1 dex1]

/-! ## Runs -/

section Runs

variable {codec : TextCodec} {Seen : Set Json} {w : World} {routePlan : Json}

/-- A Tier-2 hit is the template of the signature the index holds for the plan. -/
theorem getRouteForHops_fst {g : StoreInner} {t : RouteTemplate}
    (keyed : g.segments.All fun sig t => t.routeSignature = sig)
    (found : (getRouteForHops g routePlan).1 = some t) :
    ∃ key, pairKey routePlan = some key ∧ g.hopPairIndex[key]? = some t.routeSignature ∧
      g.segments.Live t.routeSignature := by
  rw [getRouteForHops_eq] at found
  cases entry : (pairKey routePlan).bind (g.hopPairIndex[·]?) with
  | none => rw [entry] at found; cases found
  | some sig =>
      rw [entry] at found
      simp only [getRoute_eq] at found
      rcases Option.bind_eq_some_iff.mp entry with ⟨key, pair, indexed⟩
      have same : t.routeSignature = sig ∧ g.segments.Live sig := by
        rcases Segments.fetch_fst found with holds | ⟨t₀, holds, rfl⟩
        · exact ⟨keyed sig t holds, holds.live⟩
        · exact ⟨keyed sig t₀ holds, holds.live⟩
      rw [same.1]
      exact ⟨key, pair, indexed, same.2⟩

/-- **Tier 2 is sound up to the DEX.** If no pool or mint holds a separator and plans of
one signature differ in their amounts only, a Tier-2 hit was created from a plan through
the same pools, mints and directions; and through the same hops altogether if pools
determine DEXes. -/
theorem getRouteForHops_sound (plain : ∀ p ∈ Seen, PlainPlan p)
    (faithful : ∀ p ∈ Seen, ∀ q ∈ Seen, routeSig p = routeSig q → PlanAgree p q)
    (reached : (storeMachine codec).Reach (Captures Seen) w) (plainPlan : PlainPlan routePlan)
    {t : RouteTemplate} (found : (getRouteForHops w.store routePlan).1 = some t) :
    ∃ routePlan₀ ∈ Seen, w.creator t.routeSignature = some routePlan₀ ∧
      SamePools routePlan routePlan₀ ∧
      ∀ dexOf, DexOfPool dexOf routePlan → DexOfPool dexOf routePlan₀ →
        hopKeys routePlan = hopKeys routePlan₀ := by
  have provenance := reach_provenance reached
  rcases getRouteForHops_fst (reach_keyed reached) found with ⟨key, pair, indexed, live⟩
  rcases provenance.entry key _ indexed with ⟨indexer, indexerSeen, indexerPair, indexerSig⟩
  rcases provenance.live _ live with ⟨creator, creatorSeen, created, creatorSig⟩
  have agree := faithful creator creatorSeen indexer indexerSeen (creatorSig.trans indexerSig.symm)
  have creatorPair : pairKey creator = some key := by
    rw [pairKey_eq_some_iff, agree.hopKeys_eq, ← pairKey_eq_some_iff]
    exact indexerPair
  have same := samePools_of_pairKey plainPlan (plain creator creatorSeen) pair creatorPair
  exact ⟨creator, creatorSeen, created, same, fun _ dex dex' => same.hopKeys_eq dex dex'⟩

end Runs

/-! ## Two labels for one pool -/

def poolHop (pool label inputMint outputMint : String) : Json :=
  .object [("swapInfo", .object [("ammKey", .string pool), ("inputMint", .string inputMint),
    ("label", .string label), ("outputMint", .string outputMint)])]

/-- A circular trade through two pools. -/
def circularPlan (label : String) : Json :=
  .array [poolHop "Alpha" label "Wsol" "Token", poolHop "Beta" "Whirlpool" "Token" "Wsol"]

theorem hopKeys_raydium : hopKeys (circularPlan "Raydium") =
    [some ⟨.raydiumV2, "Alpha", "Wsol", "Token", .none, 0⟩,
      some ⟨.whirlpool, "Beta", "Token", "Wsol", .none, 0⟩] := by decide

theorem hopKeys_meteora : hopKeys (circularPlan "Meteora") =
    [some ⟨.meteoraPools, "Alpha", "Wsol", "Token", .none, 0⟩,
      some ⟨.whirlpool, "Beta", "Token", "Wsol", .none, 0⟩] := by decide

theorem pairKey_raydium : pairKey (circularPlan "Raydium") =
    some "Alpha:Wsol:Token:none:0|Beta:Token:Wsol:none:0" :=
  pairKey_eq_some_iff.mpr ⟨_, _, hopKeys_raydium, by decide⟩

theorem pairKey_meteora : pairKey (circularPlan "Meteora") =
    some "Alpha:Wsol:Token:none:0|Beta:Token:Wsol:none:0" :=
  pairKey_eq_some_iff.mpr ⟨_, _, hopKeys_meteora, by decide⟩

theorem plainPlan_raydium : PlainPlan (circularPlan "Raydium") := by
  intro key member
  rw [hopKeys_raydium] at member
  simp only [List.mem_cons, Option.some.injEq, List.not_mem_nil, or_false] at member
  rcases member with rfl | rfl
  · exact ⟨by decide, by decide, by decide⟩
  · exact ⟨by decide, by decide, by decide⟩

theorem plainPlan_meteora : PlainPlan (circularPlan "Meteora") := by
  intro key member
  rw [hopKeys_meteora] at member
  simp only [List.mem_cons, Option.some.injEq, List.not_mem_nil, or_false] at member
  rcases member with rfl | rfl
  · exact ⟨by decide, by decide, by decide⟩
  · exact ⟨by decide, by decide, by decide⟩

theorem HopAgree.refl {hop : Json} : HopAgree hop hop where
  beside _ _ := rfl
  inside := by cases swapInfo hop <;> simp

/-- The two plans, which differ in the label of their first hop only. -/
def labelPlans : Set Json := {circularPlan "Raydium", circularPlan "Meteora"}

set_option maxRecDepth 20000 in
theorem routeSig_labels_ne :
    routeSig (circularPlan "Raydium") ≠ routeSig (circularPlan "Meteora") := by
  decide

theorem PlanAgree.refl {hops : List Json} : PlanAgree (.array hops) (.array hops) :=
  ⟨hops, hops, rfl, rfl, List.forall₂_same.mpr fun _ _ => .refl⟩

theorem labelPlans_faithful :
    ∀ p ∈ labelPlans, ∀ q ∈ labelPlans, routeSig p = routeSig q → PlanAgree p q := by
  intro p seen q seen' same
  rcases seen with rfl | rfl
  · rcases seen' with rfl | rfl
    · exact .refl
    · exact (routeSig_labels_ne same).elim
  · rcases seen' with rfl | rfl
    · exact (routeSig_labels_ne same.symm).elim
    · exact .refl

theorem labelPlans_plain : ∀ p ∈ labelPlans, PlainPlan p := by
  intro p seen
  rcases seen with rfl | rfl
  · exact plainPlan_raydium
  · exact plainPlan_meteora

/-- A world that captured the plan labelled Raydium. -/
def raydiumWorld : World :=
  World.initial.insertRoute Base64.standard (circularPlan "Raydium")
    (bareService.respond Base64.standard () 5 (onChainFloor 5)) 5

theorem reach_raydiumWorld :
    (storeMachine Base64.standard).Reach (Captures labelPlans) raydiumWorld :=
  (Machine.Reach.ofStart (M := storeMachine Base64.standard) rfl).step
    (i := .insertRoute (circularPlan "Raydium") _ 5) (Or.inl rfl) rfl

theorem raydiumWorld_creator :
    raydiumWorld.creator (routeSig (circularPlan "Raydium")) =
      some (circularPlan "Raydium") := by
  simp only [raydiumWorld, World.insertRoute,
    Segments.find_eq_none_iff.mpr (not_live_initial _), Function.update_self]

theorem raydiumWorld_found :
    ∃ t, (getRouteForHops raydiumWorld.store (circularPlan "Meteora")).1 = some t ∧
      t.routeSignature = routeSig (circularPlan "Raydium") := by
  refine ⟨_, getRouteForHops_insertRoute_fresh (not_live_initial _) ?_ pairKey_raydium
    pairKey_meteora, rfl⟩
  simp [World.initial, StoreInner.new]

/-- The plan labelled Meteora is served from a plan through the same pools. -/
theorem getRouteForHops_sound_meteora :
    ∃ routePlan₀, raydiumWorld.creator (routeSig (circularPlan "Raydium")) =
        some routePlan₀ ∧ SamePools (circularPlan "Meteora") routePlan₀ := by
  rcases raydiumWorld_found with ⟨t, found, signature⟩
  rcases getRouteForHops_sound labelPlans_plain labelPlans_faithful reach_raydiumWorld
    plainPlan_meteora found with ⟨routePlan₀, -, created, same, -⟩
  rw [signature] at created
  exact ⟨routePlan₀, created, same⟩

/-- All the assumptions hold, yet the plan labelled Meteora is served from one with
another DEX in its first hop. -/
theorem dex_not_kept :
    (∀ p ∈ labelPlans, PlainPlan p) ∧
      (∀ p ∈ labelPlans, ∀ q ∈ labelPlans, routeSig p = routeSig q → PlanAgree p q) ∧
      (storeMachine Base64.standard).Reach (Captures labelPlans) raydiumWorld ∧
      ∃ t, (getRouteForHops raydiumWorld.store (circularPlan "Meteora")).1 = some t ∧
        raydiumWorld.creator t.routeSignature = some (circularPlan "Raydium") ∧
        hopKeys (circularPlan "Meteora") ≠ hopKeys (circularPlan "Raydium") := by
  rcases raydiumWorld_found with ⟨t, found, signature⟩
  refine ⟨labelPlans_plain, labelPlans_faithful, reach_raydiumWorld, t, found, ?_, ?_⟩
  · rw [signature]
    exact raydiumWorld_creator
  · rw [hopKeys_meteora, hopKeys_raydium]
    decide

end ArbBot
