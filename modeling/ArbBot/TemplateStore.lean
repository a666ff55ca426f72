import ArbBot.Foundation.Segments
import ArbBot.HopKey
import ArbBot.RouteTemplate

/-!
# The template store

`StoreInner` is the content of the store's lock. A method that takes the write lock
once is one function from content to content; `get_route` takes the read lock first,
so its two critical sections are two functions.

The routes are a cache in two segments (`StoreInner.segments`). Each method acts on
them as one operation of `Foundation.Segments`, and `hopPairIndex_insertRoute` says
what becomes of the hop-pair index.
-/

namespace ArbBot

open Foundation

/-- Routes per segment: `ROUTE_SEG_CAP`. -/
def routeSegCap : Nat := 2000

/-- Only metadata: enough to report a hop as known, not to serve anything. -/
structure HopTemplate where
  dex : DexKind
  poolOrAmmKey : String
  inputMint : String
  outputMint : String
  direction : DirectionParams
  remainingAccountsHash : UInt64
  seenCount : UInt64
  firstSeenSlot : Option UInt64
  lastSeenSlot : Option UInt64

structure StoreInner where
  routesHot : Std.HashMap U128 RouteTemplate
  routesCold : Std.HashMap U128 RouteTemplate
  hops : Std.HashMap HopKey HopTemplate
  hopPairIndex : Std.HashMap String U128

namespace StoreInner

/-- `TemplateStore::new`. -/
def new : StoreInner where
  routesHot := ∅
  routesCold := ∅
  hops := ∅
  hopPairIndex := ∅

/-- The routes as a cache in two segments. -/
def segments (g : StoreInner) : Segments U128 RouteTemplate where
  hot := g.routesHot
  cold := g.routesCold

/-- The store with other routes. -/
def withSegments (g : StoreInner) (m : Segments U128 RouteTemplate) : StoreInner :=
  { g with routesHot := m.hot, routesCold := m.cold }

@[simp] theorem segments_withSegments (g : StoreInner) (m : Segments U128 RouteTemplate) :
    (g.withSegments m).segments = m := rfl

@[simp] theorem hopPairIndex_withSegments (g : StoreInner) (m : Segments U128 RouteTemplate) :
    (g.withSegments m).hopPairIndex = g.hopPairIndex := rfl

@[simp] theorem withSegments_segments (g : StoreInner) : g.withSegments g.segments = g := rfl

end StoreInner

/-! ## Routes -/

def pushHotRoute (g : StoreInner) (sig : U128) (tmpl : RouteTemplate) : StoreInner :=
  let g :=
    if g.routesHot.size ≥ routeSegCap then
      { g with routesCold := g.routesHot, routesHot := ∅ }
    else g
  { g with routesHot := g.routesHot.insert sig tmpl }

/-- The read section of `get_route`: an answer, or `none` to go on to the write
section. -/
def getRouteRead (g : StoreInner) (sig : U128) : Option (Option RouteTemplate) :=
  match g.routesHot[sig]? with
  | some t => some (some t)
  | none => if sig ∈ g.routesCold then none else some none

/-- The write section of `get_route`: a template still in the cold segment is
promoted. -/
def getRouteWrite (g : StoreInner) (sig : U128) : Option RouteTemplate × StoreInner :=
  match g.routesCold[sig]? with
  | some t =>
      (some t.hit, pushHotRoute { g with routesCold := g.routesCold.erase sig } sig t.hit)
  | none => (g.routesHot[sig]?, g)

def getRoute (g : StoreInner) (sig : U128) : Option RouteTemplate × StoreInner :=
  match getRouteRead g sig with
  | some answer => (answer, g)
  | none => getRouteWrite g sig

def recordRouteHit (g : StoreInner) (sig : U128) : StoreInner :=
  match g.routesHot[sig]? with
  | some t => { g with routesHot := g.routesHot.insert sig t.hit }
  | none =>
      match g.routesCold[sig]? with
      | some t => { g with routesCold := g.routesCold.insert sig t.hit }
      | none => g

/-- The offsets `insert_route` searches for before it takes the lock. -/
def captureOffsets (codec : TextCodec) (swapIxs : SwapInstructionsResponse)
    (inAmount quotedOut : UInt64) : Option (Nat × Nat) :=
  (codec.decode swapIxs.swapInstruction.data).bind (discoverOffsets · inAmount quotedOut)

/-- The template of a first capture. -/
def newTemplate (codec : TextCodec) (sig : U128) (swapIxs : SwapInstructionsResponse)
    (inAmount quotedOut : UInt64) : RouteTemplate :=
  let offsets := captureOffsets codec swapIxs inAmount quotedOut
  { routeSignature := sig
    swapIxs := swapIxs
    templateInAmount := inAmount
    templateQuotedOut := quotedOut
    inAmountOffset := offsets.map Prod.fst
    quotedOutOffset := offsets.map Prod.snd
    amountVariants := (∅ : Std.HashMap UInt64 SwapInstructionsResponse).insert inAmount swapIxs
    seenCount := 1
    hitCount := 0 }

/-- First-wins indexing of a plan of two hops that both parse. -/
def indexHopPair (g : StoreInner) (sig : U128) (routePlan : Json) : StoreInner :=
  match pairKey routePlan with
  | some key => { g with hopPairIndex := g.hopPairIndex.insertIfNew key sig }
  | none => g

def insertRoute (codec : TextCodec) (g : StoreInner) (sig : U128)
    (swapIxs : SwapInstructionsResponse) (inAmount quotedOut : UInt64) (routePlan : Json) :
    StoreInner :=
  match g.routesHot[sig]? with
  | some t => { g with routesHot := g.routesHot.insert sig (t.seen inAmount swapIxs) }
  | none =>
      match g.routesCold[sig]? with
      | some t => { g with routesCold := g.routesCold.insert sig (t.seen inAmount swapIxs) }
      | none =>
          let tmpl := newTemplate codec sig swapIxs inAmount quotedOut
          indexHopPair (pushHotRoute g sig tmpl) sig routePlan

def getRouteForHops (g : StoreInner) (routePlan : Json) : Option RouteTemplate × StoreInner :=
  match (pairKey routePlan).bind (g.hopPairIndex[·]?) with
  | some sig => getRoute g sig
  | none => (none, g)

/-! ## Hops -/

/-- All hops known, and how many are missing. -/
def checkHops (g : StoreInner) (routePlan : Json) : Bool × Nat :=
  let missing :=
    match routePlan.asArray with
    | some hops =>
        hops.countP fun hop =>
          match hopKey hop with
          | some key => !g.hops.contains key
          | none => true
    | none => 0
  (missing == 0, missing)

/-- One more sighting of a hop. -/
def recordHop (contextSlot : Option UInt64) (hops : Std.HashMap HopKey HopTemplate)
    (hop : Json) : Std.HashMap HopKey HopTemplate :=
  match hopKey hop with
  | none => hops
  | some key =>
      let ent := hops.getD key {
        dex := key.dex
        poolOrAmmKey := key.poolOrAmmKey
        inputMint := key.inputMint
        outputMint := key.outputMint
        direction := key.direction
        remainingAccountsHash := key.remainingAccountsHash
        seenCount := 0
        firstSeenSlot := contextSlot
        lastSeenSlot := contextSlot }
      hops.insert key { ent with seenCount := ent.seenCount + 1, lastSeenSlot := contextSlot }

def recordHops (g : StoreInner) (routePlan : Json) (contextSlot : Option UInt64) :
    StoreInner :=
  match routePlan.asArray with
  | some hops => { g with hops := hops.foldl (recordHop contextSlot) g.hops }
  | none => g

/-! ### Statistics -/

namespace StoreInner

def routeCount (g : StoreInner) : Nat := g.routesHot.size + g.routesCold.size

def hopCount (g : StoreInner) : Nat := g.hops.size

/-- The routes that can be patched to any amount. -/
def patchableRouteCount (g : StoreInner) : Nat :=
  (g.routesHot.values ++ g.routesCold.values).countP fun t => t.inAmountOffset.isSome

end StoreInner

/-! ## The methods on the segments -/

theorem pushHotRoute_eq (g : StoreInner) (sig : U128) (tmpl : RouteTemplate) :
    pushHotRoute g sig tmpl = g.withSegments (g.segments.push routeSegCap sig tmpl) := by
  unfold pushHotRoute Segments.push StoreInner.withSegments StoreInner.segments
  by_cases full : routeSegCap ≤ g.routesHot.size
  · simp only [ge_iff_le, if_pos full]
  · simp only [ge_iff_le, if_neg full]

theorem getRoute_eq (g : StoreInner) (sig : U128) :
    getRoute g sig = ((g.segments.fetch routeSegCap sig RouteTemplate.hit).1,
      g.withSegments (g.segments.fetch routeSegCap sig RouteTemplate.hit).2) := by
  unfold getRoute getRouteRead getRouteWrite Segments.fetch
  have hotEq : g.segments.hot = g.routesHot := rfl
  have coldEq : g.segments.cold = g.routesCold := rfl
  rw [hotEq, coldEq]
  cases inHot : g.routesHot[sig]? with
  | some t => rfl
  | none =>
      cases inCold : g.routesCold[sig]? with
      | none =>
          have absent : sig ∉ g.routesCold := Segments.notMem_of_getElem? inCold
          simp only [if_neg absent]
          rfl
      | some t =>
          have member : sig ∈ g.routesCold := Segments.mem_of_getElem? inCold
          simp only [if_pos member, pushHotRoute_eq]
          rfl

theorem recordRouteHit_eq (g : StoreInner) (sig : U128) :
    recordRouteHit g sig = g.withSegments (g.segments.update sig RouteTemplate.hit) := by
  unfold recordRouteHit Segments.update
  have hotEq : g.segments.hot = g.routesHot := rfl
  have coldEq : g.segments.cold = g.routesCold := rfl
  rw [hotEq, coldEq]
  cases g.routesHot[sig]? with
  | some t => rfl
  | none => cases g.routesCold[sig]? <;> rfl

@[simp] theorem segments_indexHopPair (g : StoreInner) (sig : U128) (routePlan : Json) :
    (indexHopPair g sig routePlan).segments = g.segments := by
  unfold indexHopPair
  cases pairKey routePlan <;> rfl

/-- A capture changes the template of a live route or pushes a new one. -/
theorem segments_insertRoute (codec : TextCodec) (g : StoreInner) (sig : U128)
    (swapIxs : SwapInstructionsResponse) (inAmount quotedOut : UInt64) (routePlan : Json) :
    (insertRoute codec g sig swapIxs inAmount quotedOut routePlan).segments =
      match g.segments.find sig with
      | some _ => g.segments.update sig fun t => t.seen inAmount swapIxs
      | none =>
          g.segments.push routeSegCap sig (newTemplate codec sig swapIxs inAmount quotedOut) := by
  unfold insertRoute Segments.update Segments.find
  have hotEq : g.segments.hot = g.routesHot := rfl
  have coldEq : g.segments.cold = g.routesCold := rfl
  rw [hotEq, coldEq]
  cases g.routesHot[sig]? with
  | some t => rfl
  | none =>
      cases g.routesCold[sig]? with
      | some t => rfl
      | none =>
          simp only [segments_indexHopPair, pushHotRoute_eq, StoreInner.segments_withSegments]

/-- Only the capture of a new route writes the hop-pair index. -/
theorem hopPairIndex_insertRoute (codec : TextCodec) (g : StoreInner) (sig : U128)
    (swapIxs : SwapInstructionsResponse) (inAmount quotedOut : UInt64) (routePlan : Json) :
    (insertRoute codec g sig swapIxs inAmount quotedOut routePlan).hopPairIndex =
      match g.segments.find sig, pairKey routePlan with
      | none, some key => g.hopPairIndex.insertIfNew key sig
      | _, _ => g.hopPairIndex := by
  unfold insertRoute Segments.find
  have hotEq : g.segments.hot = g.routesHot := rfl
  have coldEq : g.segments.cold = g.routesCold := rfl
  rw [hotEq, coldEq]
  cases g.routesHot[sig]? with
  | some t => rfl
  | none =>
      cases g.routesCold[sig]? with
      | some t => rfl
      | none =>
          unfold indexHopPair
          cases pairKey routePlan <;>
            simp only [pushHotRoute_eq, StoreInner.hopPairIndex_withSegments]

/-- A store without hops misses them all. -/
theorem checkHops_new (hops : List Json) :
    checkHops .new (.array hops) = (hops.length == 0, hops.length) := by
  have missed : ∀ hop ∈ hops, (match hopKey hop with
      | some key => !StoreInner.new.hops.contains key
      | none => true) = true := by
    intro hop _
    cases hopKey hop with
    | none => rfl
    | some key => simp [StoreInner.new]
  have missing := List.countP_eq_length.mpr missed
  simp only [checkHops, Json.asArray, missing]

@[simp] theorem segments_recordHops (g : StoreInner) (routePlan : Json)
    (contextSlot : Option UInt64) :
    (recordHops g routePlan contextSlot).segments = g.segments := by
  unfold recordHops
  cases routePlan.asArray <;> rfl

@[simp] theorem hopPairIndex_recordHops (g : StoreInner) (routePlan : Json)
    (contextSlot : Option UInt64) :
    (recordHops g routePlan contextSlot).hopPairIndex = g.hopPairIndex := by
  unfold recordHops
  cases routePlan.asArray <;> rfl

@[simp] theorem hopPairIndex_getRoute (g : StoreInner) (sig : U128) :
    (getRoute g sig).2.hopPairIndex = g.hopPairIndex := by
  rw [getRoute_eq]
  rfl

/-- A Tier-2 lookup answers just when the index entry of the pair is live. -/
theorem isSome_getRouteForHops (g : StoreInner) (routePlan : Json) :
    (getRouteForHops g routePlan).1.isSome ↔
      ∃ key sig, pairKey routePlan = some key ∧ g.hopPairIndex[key]? = some sig ∧
        g.segments.Live sig := by
  unfold getRouteForHops
  cases pair : pairKey routePlan with
  | none => simp
  | some key =>
      cases entry : g.hopPairIndex[key]? with
      | none => simp [entry]
      | some sig => simp [entry, getRoute_eq, Segments.isSome_fetch]

end ArbBot
