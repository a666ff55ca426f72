import ArbBot.TierOne.Transparency

/-!
# Which plans a signature tells apart

`route_sig` leaves out three things: what stands beside `swapInfo` in a hop, the values
that are no scalars, and the borders between fields and hops. A `HopSchema` says how
hops can be told apart all the same, and on plans that fit one, a template is served
only for plans that agree with the one it was created from (`creator_agrees`).
-/

namespace ArbBot

open Foundation

/-! ## Agreement of plans -/

/-- The hops agree on all fields but the amounts. -/
structure HopAgree (hop hop' : Json) : Prop where
  beside : ∀ key, key ≠ "swapInfo" → hop.get key = hop'.get key
  inside : match swapInfo hop, swapInfo hop' with
    | some fields, some fields' =>
        ∀ key, key ∉ amountKeys → fields.lookup key = fields'.lookup key
    | none, none => hop = hop'
    | _, _ => False

/-- The plans have the same number of hops and agree hop by hop. -/
def PlanAgree (routePlan routePlan' : Json) : Prop :=
  ∃ hops hops', routePlan = .array hops ∧ routePlan' = .array hops' ∧
    List.Forall₂ HopAgree hops hops'

/-! ## Schemas -/

/-- The JSON types whose values are fed to the hash. -/
inductive ScalarType where
  | null
  | bool
  | number
  | string

/-- A scalar of the type that holds no `;`. -/
def ScalarType.Admits : ScalarType → Json → Prop
  | .null, .null => True
  | .bool, .bool _ => True
  | .number, .number _ => True
  | .string, .string s => (59 : UInt8) ∉ asBytes s
  | _, _ => False

/-- One scalar type for each `swapInfo` field, and what stands beside `swapInfo` in a hop
with given signed fields (the share of a split, for one). -/
structure HopSchema where
  typeOf : String → ScalarType
  beside : List (String × List UInt8) → String → Option Json

namespace HopSchema

structure FitsHop (schema : HopSchema) (hop : Json) (fields : JsonFields) : Prop where
  info : swapInfo hop = some fields
  ammKey : "ammKey" ∈ fields.map Prod.fst
  keys : ∀ key ∈ fields.map Prod.fst, (61 : UInt8) ∉ asBytes key
  values : ∀ key value, key ∉ amountKeys → fields.lookup key = some value →
    (schema.typeOf key).Admits value
  beside : ∀ key, key ≠ "swapInfo" → hop.get key = schema.beside (hopItems hop) key

/-- A list of hops that fit. -/
def FitsPlan (schema : HopSchema) (routePlan : Json) : Prop :=
  ∃ hops, routePlan = .array hops ∧ ∀ hop ∈ hops, ∃ fields, schema.FitsHop hop fields

end HopSchema

theorem semicolon_notMem_number (n : JsonNumber) : (59 : UInt8) ∉ asBytes n.text := by
  intro member
  have digit := List.all_eq_true.mp n.plain 59 member
  revert digit
  decide

theorem ScalarType.Admits.semicolon_notMem {type : ScalarType} {value : Json}
    (admits : type.Admits value) : (59 : UInt8) ∉ renderValue (some value) := by
  cases type <;> cases value <;> simp only [ScalarType.Admits] at admits
  · simp [renderValue]
  · rename_i b
    cases b <;> decide
  · exact semicolon_notMem_number _
  · exact admits

/-- Scalars of one type are told apart by what they are rendered as. -/
theorem ScalarType.Admits.inj {type : ScalarType} {value value' : Json}
    (admits : type.Admits value) (admits' : type.Admits value')
    (same : renderValue (some value) = renderValue (some value')) : value = value' := by
  cases type <;> cases value <;> simp only [ScalarType.Admits] at admits <;>
    cases value' <;> simp only [ScalarType.Admits] at admits'
  · rfl
  · rename_i b b'
    cases b <;> cases b'
    · rfl
    · cases same
    · cases same
    · rfl
  · rename_i n n'
    have text := asBytes_inj same
    cases n
    cases n'
    subst text
    rfl
  · exact congrArg Json.string (asBytes_inj same)

namespace HopSchema

variable {schema : HopSchema} {hop hop' : Json} {fields fields' : JsonFields}

theorem mem_hopItems (info : swapInfo hop = some fields) {key : String} {bytes : List UInt8} :
    (key, bytes) ∈ hopItems hop ↔
      (key ∈ fields.map Prod.fst ∧ key ∉ amountKeys) ∧
        renderValue (fields.lookup key) = bytes := by
  simp only [hopItems, info, List.mem_map, List.mem_filter, mem_sortedKeys, decide_eq_true_eq,
    Prod.mk.injEq]
  constructor
  · intro found
    rcases found with ⟨key', member, rfl, same⟩
    exact ⟨member, same⟩
  · intro found
    exact ⟨key, found.1, rfl, found.2⟩

/-- A hop is plain when its keys and the values of its signed fields hold no separator. -/
theorem plainHop_of_fields (info : swapInfo hop = some fields)
    (ammKey : "ammKey" ∈ fields.map Prod.fst)
    (keys : ∀ key ∈ fields.map Prod.fst, (61 : UInt8) ∉ asBytes key)
    (values : ∀ key value, key ∉ amountKeys → fields.lookup key = some value →
      (59 : UInt8) ∉ renderValue (some value)) : PlainHop hop where
  ammKey := by
    refine List.mem_map.mpr ⟨("ammKey", _), (mem_hopItems info).mpr ⟨⟨ammKey, ?_⟩, rfl⟩, rfl⟩
    decide
  items item member := by
    rcases item with ⟨key, bytes⟩
    rcases (mem_hopItems info).mp member with ⟨⟨present, signed⟩, rfl⟩
    refine ⟨keys key present, ?_⟩
    cases found : fields.lookup key with
    | none => exact (lookup_eq_none_iff.mp found present).elim
    | some value => exact values key value signed found

/-- A fitting hop is plain: its signed fields can be read back. -/
theorem FitsHop.plainHop (fits : schema.FitsHop hop fields) : PlainHop hop :=
  plainHop_of_fields fits.info fits.ammKey fits.keys fun key value signed found =>
    (fits.values key value signed found).semicolon_notMem

/-- Hops with equal signed fields agree. -/
theorem FitsHop.agree (fits : schema.FitsHop hop fields) (fits' : schema.FitsHop hop' fields')
    (same : hopItems hop = hopItems hop') : HopAgree hop hop' where
  beside key notInfo := by
    rw [fits.beside key notInfo, fits'.beside key notInfo, same]
  inside := by
    have transfer : ∀ {h h' : Json} {f f' : JsonFields}, swapInfo h = some f →
        swapInfo h' = some f' → hopItems h = hopItems h' → ∀ {key}, key ∉ amountKeys →
        key ∈ f.map Prod.fst → key ∈ f'.map Prod.fst ∧
          renderValue (f.lookup key) = renderValue (f'.lookup key) := by
      intro h h' f f' info info' items key signed present
      have item := (mem_hopItems info).mpr ⟨⟨present, signed⟩, rfl⟩
      rw [items] at item
      rcases (mem_hopItems info').mp item with ⟨⟨present', -⟩, rendered⟩
      exact ⟨present', rendered.symm⟩
    simp only [fits.info, fits'.info]
    intro key signed
    cases found : fields.lookup key with
    | none =>
        have absent := lookup_eq_none_iff.mp found
        symm
        apply lookup_eq_none_iff.mpr
        intro present'
        exact absent (transfer fits'.info fits.info same.symm signed present').1
    | some value =>
        have present : key ∈ fields.map Prod.fst := by
          by_contra absent
          rw [lookup_eq_none_iff.mpr absent] at found
          cases found
        rcases transfer fits.info fits'.info same signed present with
          ⟨present', rendered⟩
        cases found' : fields'.lookup key with
        | none => exact (lookup_eq_none_iff.mp found' present').elim
        | some value' =>
            rw [found, found'] at rendered
            rw [(fits.values key value signed found).inj (fits'.values key value' signed found')
              rendered]

theorem forall₂_of_map_eq {α β : Type*} {f : α → β} {R : α → α → Prop} {xs ys : List α}
    (same : xs.map f = ys.map f) (related : ∀ x ∈ xs, ∀ y ∈ ys, f x = f y → R x y) :
    List.Forall₂ R xs ys := by
  induction xs generalizing ys with
  | nil =>
      obtain rfl := List.map_eq_nil_iff.mp same.symm
      exact .nil
  | cons x xs ih =>
      cases ys with
      | nil => cases same
      | cons y ys =>
          rcases List.cons.inj same with ⟨heads, tails⟩
          refine .cons (related x List.mem_cons_self y List.mem_cons_self heads) (ih tails ?_)
          intro x' member y' member'
          exact related x' (List.mem_cons_of_mem _ member) y' (List.mem_cons_of_mem _ member')

/-- On fitting plans, equal byte streams come from plans that agree. -/
theorem FitsPlan.agree {routePlan routePlan' : Json} (fits : schema.FitsPlan routePlan)
    (fits' : schema.FitsPlan routePlan') (same : routeBytes routePlan = routeBytes routePlan') :
    PlanAgree routePlan routePlan' := by
  rcases fits with ⟨hops, rfl, each⟩
  rcases fits' with ⟨hops', rfl, each'⟩
  have plain : ∀ {hs : List Json}, (∀ hop ∈ hs, ∃ fields, schema.FitsHop hop fields) →
      ∀ hop ∈ hs, PlainHop hop := by
    intro hs fitting hop member
    rcases fitting hop member with ⟨fields, fits⟩
    exact fits.plainHop
  refine ⟨hops, hops', rfl, rfl, forall₂_of_map_eq
    (routeBytes_inj (plain each) (plain each') same) ?_⟩
  intro hop member hop' member' items
  rcases each hop member with ⟨fields, fits⟩
  rcases each' hop' member' with ⟨fields', fits'⟩
  exact fits.agree fits' items

end HopSchema

/-! ## Runs -/

/-- **Tier 1 keeps plans apart that fit one schema.** If all captured plans and the
looked-up plan fit a schema, and the two passes do not collide on the looked-up plan and
the plan its template was created from, these two plans agree on everything but the
amounts. -/
theorem creator_agrees {codec : TextCodec} {schema : HopSchema} {w : World}
    (reached : (storeMachine codec).Reach (Captures {p | schema.FitsPlan p}) w)
    {routePlan : Json} (fits : schema.FitsPlan routePlan) {t : RouteTemplate}
    (found : (getRoute w.store (routeSig routePlan)).1 = some t)
    (noCollision : ∀ routePlan₀, w.creator (routeSig routePlan) = some routePlan₀ →
      routeSig routePlan = routeSig routePlan₀ → routeBytes routePlan = routeBytes routePlan₀) :
    ∃ routePlan₀, w.creator (routeSig routePlan) = some routePlan₀ ∧
      PlanAgree routePlan routePlan₀ := by
  have live : w.Live (routeSig routePlan) := by
    rw [getRoute_eq] at found
    exact Segments.isSome_fetch.mp (Option.isSome_iff_exists.mpr ⟨t, found⟩)
  rcases (reach_provenance reached).live _ live with ⟨routePlan₀, fits₀, created, same⟩
  exact ⟨routePlan₀, created,
    fits.agree fits₀ (noCollision routePlan₀ created same.symm)⟩

/-! ## Split trades -/

/-- The `swapInfo` of a hop through one pool. -/
def poolFields (inAmount : String) : JsonFields :=
  [("ammKey", .string "Pool"), ("inAmount", .string inAmount), ("inputMint", .string "Wsol"),
    ("label", .string "Raydium"), ("outputMint", .string "Token")]

/-- A hop that carries a share of the trade. -/
def shareHop (share : JsonNumber) (inAmount : String) : Json :=
  .object [("percent", .number share), ("swapInfo", .object (poolFields inAmount))]

def sharePlan (share : JsonNumber) (inAmount : String) : Json :=
  .array [shareHop share inAmount]

def sixty : JsonNumber := ⟨"60", by decide⟩

def forty : JsonNumber := ⟨"40", by decide⟩

/-- Strings inside, a share of 60 percent beside. -/
def sixtySchema : HopSchema where
  typeOf _ := .string
  beside _ key := if key = "percent" then some (.number sixty) else none

/-- Neither the share nor the amount is signed. -/
theorem routeBytes_sharePlan (share share' : JsonNumber) (inAmount inAmount' : String) :
    routeBytes (sharePlan share inAmount) = routeBytes (sharePlan share' inAmount') := by
  have items : hopItems (shareHop share inAmount) = hopItems (shareHop share' inAmount') := by
    refine hopItems_congr rfl rfl fun key signed => ?_
    have notAmount : key ≠ "inAmount" := by
      intro same
      exact signed (by rw [same]; decide)
    by_cases amm : key = "ammKey"
    · rw [amm, poolFields, poolFields, Segments.lookup_cons_self, Segments.lookup_cons_self]
    · rw [poolFields, poolFields, Segments.lookup_cons_of_ne amm,
        Segments.lookup_cons_of_ne amm, Segments.lookup_cons_of_ne notAmount,
        Segments.lookup_cons_of_ne notAmount]
  simp only [sharePlan, routeBytes, Json.asArray, List.flatMap_cons, List.flatMap_nil, hopBytes,
    items]

/-- The keys of the pool hop hold no separator. -/
theorem keys_poolFields (inAmount : String) :
    ∀ key ∈ (poolFields inAmount).map Prod.fst,
      (61 : UInt8) ∉ asBytes key ∧ (59 : UInt8) ∉ asBytes key := by
  intro key member
  simp only [poolFields, List.map_cons, List.map_nil, List.mem_cons, List.not_mem_nil,
    or_false] at member
  rcases member with rfl | rfl | rfl | rfl | rfl <;> decide

/-- The values of the pool hop are strings, without a separator but for the amount. -/
theorem lookup_poolFields {inAmount key : String} {value : Json}
    (found : (poolFields inAmount).lookup key = some value) :
    key = "inAmount" ∧ value = .string inAmount ∨
      ∃ s, value = .string s ∧ (59 : UInt8) ∉ asBytes s := by
  have member := Segments.mem_of_lookup found
  simp only [poolFields, List.mem_cons, Prod.mk.injEq, List.not_mem_nil, or_false] at member
  rcases member with ⟨-, rfl⟩ | amount | ⟨-, rfl⟩ | ⟨-, rfl⟩ | ⟨-, rfl⟩
  · exact Or.inr ⟨"Pool", rfl, by decide⟩
  · exact Or.inl amount
  · exact Or.inr ⟨"Wsol", rfl, by decide⟩
  · exact Or.inr ⟨"Raydium", rfl, by decide⟩
  · exact Or.inr ⟨"Token", rfl, by decide⟩

theorem sixtySchema_fitsPlan (inAmount : String) :
    sixtySchema.FitsPlan (sharePlan sixty inAmount) := by
  refine ⟨_, rfl, fun hop member => ⟨poolFields inAmount, ?_⟩⟩
  rw [List.mem_singleton] at member
  subst member
  refine ⟨rfl, by simp [poolFields], fun key member => (keys_poolFields inAmount key member).1,
    ?_, ?_⟩
  · intro key value signed found
    rcases lookup_poolFields found with ⟨rfl, -⟩ | ⟨s, rfl, plain⟩
    · exact (signed (by decide)).elim
    · exact plain
  · intro key notInfo
    simp only [shareHop, Json.get, Json.asObject, Option.bind_some, sixtySchema]
    by_cases share : key = "percent"
    · subst share
      rw [Segments.lookup_cons_self, if_pos rfl]
    · rw [Segments.lookup_cons_of_ne share, Segments.lookup_cons_of_ne notInfo, if_neg share]
      rfl

/-- A world that captured a share of 60 percent for 5 lamports. -/
def sixtyWorld : World :=
  World.initial.insertRoute Base64.standard (sharePlan sixty "5")
    (bareService.respond Base64.standard () 5 (onChainFloor 5)) 5

theorem reach_sixtyWorld {guard : World → StoreCall → Prop}
    (allowed : ∀ swapIxs, guard .initial (.insertRoute (sharePlan sixty "5") swapIxs 5)) :
    (storeMachine Base64.standard).Reach guard sixtyWorld :=
  (Machine.Reach.ofStart (M := storeMachine Base64.standard) rfl).step (allowed _) rfl

/-- Its template is found for every share and amount, and it is the captured one. -/
theorem sixtyWorld_found (share : JsonNumber) (inAmount : String) :
    (∃ t, (getRoute sixtyWorld.store (routeSig (sharePlan share inAmount))).1 = some t) ∧
      sixtyWorld.creator (routeSig (sharePlan share inAmount)) = some (sharePlan sixty "5") := by
  rw [routeSig_congr (routeBytes_sharePlan share sixty inAmount "5")]
  have fresh := not_live_initial (routeSig (sharePlan sixty "5"))
  refine ⟨⟨_, getRoute_insertRoute_fresh fresh⟩, ?_⟩
  simp only [sixtyWorld, World.insertRoute, Segments.find_eq_none_iff.mpr fresh,
    Function.update_self]

/-- One capture, then a lookup for another amount of the same share. -/
theorem creator_agrees_sixty :
    ∃ routePlan₀, sixtyWorld.creator (routeSig (sharePlan sixty "7")) = some routePlan₀ ∧
      PlanAgree (sharePlan sixty "7") routePlan₀ := by
  have reached : (storeMachine Base64.standard).Reach
      (Captures {p | sixtySchema.FitsPlan p}) sixtyWorld :=
    reach_sixtyWorld fun _ => sixtySchema_fitsPlan "5"
  rcases sixtyWorld_found sixty "7" with ⟨⟨t, found⟩, created⟩
  apply creator_agrees reached (sixtySchema_fitsPlan "7") found
  intro routePlan₀ created₀ _
  obtain rfl := Option.some.inj (created.symm.trans created₀)
  exact routeBytes_sharePlan sixty sixty "7" "5"

/-- The template of a share of 60 percent is served for a share of 40 percent. The two
plans are fed as the same bytes, so no collision is involved. -/
theorem share_not_told_apart :
    (storeMachine Base64.standard).Reach Machine.anyStep sixtyWorld ∧
      (∃ t, (getRoute sixtyWorld.store (routeSig (sharePlan forty "5"))).1 = some t) ∧
      sixtyWorld.creator (routeSig (sharePlan forty "5")) = some (sharePlan sixty "5") ∧
      routeBytes (sharePlan forty "5") = routeBytes (sharePlan sixty "5") ∧
      ¬ PlanAgree (sharePlan forty "5") (sharePlan sixty "5") := by
  rcases sixtyWorld_found forty "5" with ⟨found, created⟩
  refine ⟨reach_sixtyWorld fun _ => trivial, found, created,
    routeBytes_sharePlan forty sixty "5" "5", ?_⟩
  intro agree
  rcases agree with ⟨hops, hops', ⟨⟩, ⟨⟩, pairs⟩
  cases pairs with
  | cons heads _ =>
      have share := heads.beside "percent" (by decide)
      simp [shareHop, Json.get, Json.asObject, forty, sixty] at share

end ArbBot
