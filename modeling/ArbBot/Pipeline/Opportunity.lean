import ArbBot.Pipeline.Moves

/-!
# Where instructions come from

`IsOpportunity` says what was checked before the scan loop asks for an instruction, and
`IsInstruction` where the instruction for an opportunity may come from: the answer of Metis
to it, or a template of an answer to an earlier one. `backed_of_run` shows that every step
of a task keeps that all it hands on is backed in this way; what Metis may answer is a
parameter.
-/

namespace ArbBot

open Foundation

/-! ## Checked opportunities -/

/-- What Metis may answer: quotes for the mints, the amount and the route mode, and swap
instructions for a quote. -/
structure MetisAnswers where
  quote : String → String → UInt64 → Bool → QuoteResponse → Prop
  swapInstructions : QuoteResponse → SwapInstructionsResponse → Prop

/-- A pair that a check may find profitable. -/
structure RoundTrip (metis : MetisAnswers) (minProfitLamports : UInt64) (pair : QuotePair) :
    Prop where
  there : metis.quote wsolMint pair.tokenMint pair.amount pair.onlyDirect pair.quote1
  back : ∃ tokenAmount, parseU64 pair.quote1.outAmount = some tokenAmount ∧ 0 < tokenAmount ∧
    metis.quote pair.tokenMint wsolMint tokenAmount pair.onlyDirect pair.quote2
  output : parseU64 pair.quote2.outAmount = some pair.outputWsol
  profit : saturatingAdd pair.amount minProfitLamports < pair.outputWsol
  allowed : routeUsesForbiddenDex pair.quote1 = false ∧ routeUsesForbiddenDex pair.quote2 = false
  apart : routesSharePool pair.quote1 pair.quote2 = false
  hopCount : pair.hopCount = (pair.quote1.routePlan.asArray.map List.length).getD 1 +
    (pair.quote2.routePlan.asArray.map List.length).getD 1

/-- What the scan loop goes on with is one circular quote over the hops of a round trip. -/
structure Opportunity (metis : MetisAnswers) (cfg : Settings) (pair : QuotePair)
    (merged : Merged) : Prop where
  roundTrip : RoundTrip metis cfg.minProfitLamports pair
  amount : merged.amount = pair.amount
  quote : mergeQuotes pair.quote1 pair.quote2 (onChainFloor merged.amount) = some merged.quote
  hops : ∃ hops, merged.quote.routePlan = .array hops ∧ merged.hopCount = hops.length
  direct : pair.onlyDirect → merged.hopCount = 2

def IsOpportunity (metis : MetisAnswers) (cfg : Settings) (merged : Merged) : Prop :=
  ∃ pair, Opportunity metis cfg pair merged

section Check

variable {metis : MetisAnswers} {cfg : Settings} {pair : QuotePair}

/-- **What a check finds out.** -/
theorem roundTrip_of_quoteCheck {getQuote : GetQuote} {tokenMint : String}
    {amount minProfitLamports : UInt64} {onlyDirect : Bool}
    (answers : ∀ inputMint outputMint amount onlyDirect quote,
      getQuote inputMint outputMint amount onlyDirect = some quote →
        metis.quote inputMint outputMint amount onlyDirect quote)
    (profitable :
      quoteCheck getQuote tokenMint amount onlyDirect minProfitLamports = .profitable pair) :
    RoundTrip metis minProfitLamports pair := by
  unfold quoteCheck at profitable
  split at profitable
  · cases profitable
  · rename_i quote1 first
    split at profitable
    · cases profitable
    · rename_i tokenAmount out
      split at profitable
      · cases profitable
      · rename_i quote2 second
        dsimp only at profitable
        split_ifs at profitable with below forbidden shared
        cases profitable
        rw [Option.filter_eq_some_iff, decide_eq_true_eq] at out
        rw [Bool.or_eq_true, not_or, Bool.not_eq_true, Bool.not_eq_true] at forbidden
        have above : saturatingAdd amount minProfitLamports <
            (parseU64 quote2.outAmount).getD 0 := UInt64.not_le.mp below
        have output : parseU64 quote2.outAmount = some ((parseU64 quote2.outAmount).getD 0) := by
          cases parsed : parseU64 quote2.outAmount with
          | none =>
              rw [parsed] at above
              exact absurd above (UInt64.not_lt.mpr (UInt64.zero_le))
          | some outputWsol => rfl
        exact {
          there := answers _ _ _ _ _ first
          back := ⟨tokenAmount, out.1, out.2, answers _ _ _ _ _ second⟩
          output := output
          profit := above
          allowed := forbidden
          apart := Bool.eq_false_iff.mpr shared
          hopCount := rfl }

/-- **What goes on is an opportunity.** -/
theorem opportunity_of_dispatch {merged : Merged}
    (roundTrip : RoundTrip metis cfg.minProfitLamports pair)
    (dispatched : dispatch pair = (Stage.tier1 merged).task) :
    Opportunity metis cfg pair merged := by
  unfold dispatch at dispatched
  split at dispatched
  · cases dispatched
  · rename_i direct
    split at dispatched
    · cases dispatched
    · rename_i quote combined
      cases dispatched
      rcases mergeQuotes_routePlan combined with ⟨hops1, hops2, plan1, plan2, plan⟩
      have count := roundTrip.hopCount
      rw [plan1, plan2] at count
      refine ⟨roundTrip, rfl, combined, ⟨hops1 ++ hops2, plan, ?_⟩, ?_⟩
      · rw [List.length_append]
        exact count
      · intro only
        rw [only, Bool.true_and, bne_iff_ne, not_not] at direct
        exact direct

end Check

/-! ## Templates and instructions -/

section Backed

variable (metis : MetisAnswers) (cfg : Settings)

/-- Metis gave the instruction for an opportunity with the signature and the amount. -/
def AnsweredFor (sig : U128) (amount : UInt64) (swapIxs : SwapInstructionsResponse) : Prop :=
  ∃ merged, IsOpportunity metis cfg merged ∧ merged.sig = sig ∧ merged.amount = amount ∧
    metis.swapInstructions merged.quote swapIxs

/-- The base and every variant of a template are answers of Metis to opportunities of its
route, each for its own amount. -/
structure TemplateBacked (sig : U128) (t : RouteTemplate) : Prop where
  signature : t.routeSignature = sig
  base : AnsweredFor metis cfg sig t.templateInAmount t.swapIxs
  quotedOut : t.templateQuotedOut = onChainFloor t.templateInAmount
  offsets : (t.inAmountOffset, t.quotedOutOffset) =
    ((captureOffsets cfg.codec t.swapIxs t.templateInAmount t.templateQuotedOut).map Prod.fst,
      (captureOffsets cfg.codec t.swapIxs t.templateInAmount t.templateQuotedOut).map Prod.snd)
  variants : ∀ (amount : UInt64) (swapIxs : SwapInstructionsResponse),
    t.amountVariants[amount]? = some swapIxs → AnsweredFor metis cfg sig amount swapIxs

/-- The index leads from a pair to the route of an opportunity through this pair. -/
def EntryBacked (key : String) (sig : U128) : Prop :=
  ∃ merged, IsOpportunity metis cfg merged ∧ merged.sig = sig ∧
    pairKey merged.quote.routePlan = some key

structure StoreBacked (g : StoreInner) : Prop where
  templates : g.segments.All (TemplateBacked metis cfg)
  entries : ∀ (key : String) (sig : U128), g.hopPairIndex[key]? = some sig →
    EntryBacked metis cfg key sig

/-- The signature is that of the opportunity, or of one through the same pair of hops. -/
def Related (merged : Merged) (sig : U128) : Prop :=
  sig = merged.sig ∨ ∃ key, pairKey merged.quote.routePlan = some key ∧
    EntryBacked metis cfg key sig

/-- Where an instruction for an opportunity may come from. -/
inductive IsInstruction (merged : Merged) : SwapInstructionsResponse → Prop
  /-- Metis answered it to this opportunity. -/
  | answered {swapIxs : SwapInstructionsResponse} :
    metis.swapInstructions merged.quote swapIxs → IsInstruction merged swapIxs
  /-- Metis answered it to a related one, for the same amount. -/
  | variant {sig : U128} {swapIxs : SwapInstructionsResponse} :
    Related metis cfg merged sig → AnsweredFor metis cfg sig merged.amount swapIxs →
    IsInstruction merged swapIxs
  /-- Metis answered it to a related one, and both amounts were overwritten where the search
  had found the earlier ones. -/
  | patched {sig : U128} {amount : UInt64} {base : SwapInstructionsResponse} {data : List UInt8}
    {inOff outOff : Nat} :
    Related metis cfg merged sig → AnsweredFor metis cfg sig amount base →
    cfg.codec.decode base.swapInstruction.data = some data →
    discoverOffsets data amount (onChainFloor amount) = some (inOff, outOff) →
    IsInstruction merged (base.withData (cfg.codec.encode
      (patched data inOff outOff merged.amount (onChainFloor merged.amount))))

/-- An instruction in flight is one for an opportunity of the same number of hops. -/
def InstructionBacked (swapIxs : SwapInstructionsResponse) (hopCount : Nat) : Prop :=
  ∃ merged, IsOpportunity metis cfg merged ∧ IsInstruction metis cfg merged swapIxs ∧
    hopCount = merged.hopCount

def ItemBacked (item : ReadyInstruction) : Prop :=
  InstructionBacked metis cfg item.swapIxs item.hopCount

end Backed

section Store

variable {metis : MetisAnswers} {cfg : Settings} {g : StoreInner} {sig : U128}
  {t : RouteTemplate}

theorem TemplateBacked.hit (backed : TemplateBacked metis cfg sig t) :
    TemplateBacked metis cfg sig t.hit :=
  ⟨backed.signature, backed.base, backed.quotedOut, backed.offsets, backed.variants⟩

theorem TemplateBacked.cold (backed : TemplateBacked metis cfg sig t) :
    TemplateBacked metis cfg sig t.cold where
  signature := backed.signature
  base := backed.base
  quotedOut := backed.quotedOut
  offsets := backed.offsets
  variants amount swapIxs held := by
    simp [RouteTemplate.cold] at held

theorem TemplateBacked.seen {amount : UInt64} {swapIxs : SwapInstructionsResponse}
    (backed : TemplateBacked metis cfg sig t)
    (captured : AnsweredFor metis cfg sig amount swapIxs) :
    TemplateBacked metis cfg sig (t.seen amount swapIxs) where
  signature := backed.signature
  base := backed.base
  quotedOut := backed.quotedOut
  offsets := backed.offsets
  variants amount' swapIxs' held := by
    simp only [RouteTemplate.seen, Std.HashMap.getElem?_insertIfNew] at held
    split at held
    · rename_i new
      cases held
      rw [← eq_of_beq new.1]
      exact captured
    · exact backed.variants amount' swapIxs' held

theorem TemplateBacked.new {amount : UInt64} {swapIxs : SwapInstructionsResponse}
    (captured : AnsweredFor metis cfg sig amount swapIxs) :
    TemplateBacked metis cfg sig
      (newTemplate cfg.codec sig swapIxs amount (onChainFloor amount)) where
  signature := rfl
  base := captured
  quotedOut := rfl
  offsets := rfl
  variants amount' swapIxs' held := by
    simp only [newTemplate, Std.HashMap.getElem?_insert] at held
    split at held
    · rename_i same
      cases held
      rw [← eq_of_beq same]
      exact captured
    · simp at held

theorem storeBacked_new : StoreBacked metis cfg .new where
  templates sig t holds := by
    simp [StoreInner.new, StoreInner.segments, Segments.Holds] at holds
  entries key sig found := by
    simp [StoreInner.new] at found

/-- A store with the routes and the index of a backed one. -/
theorem StoreBacked.congr {g' : StoreInner} (backed : StoreBacked metis cfg g)
    (segments : g'.segments = g.segments) (index : g'.hopPairIndex = g.hopPairIndex) :
    StoreBacked metis cfg g' where
  templates := by
    rw [segments]
    exact backed.templates
  entries := by
    rw [index]
    exact backed.entries

theorem StoreBacked.insertRoute {merged : Merged} {swapIxs : SwapInstructionsResponse}
    (backed : StoreBacked metis cfg g) (opportunity : IsOpportunity metis cfg merged)
    (answer : metis.swapInstructions merged.quote swapIxs) :
    StoreBacked metis cfg (ArbBot.insertRoute cfg.codec g merged.sig swapIxs merged.amount
      (onChainFloor merged.amount) merged.quote.routePlan) := by
  have captured : AnsweredFor metis cfg merged.sig merged.amount swapIxs :=
    ⟨merged, opportunity, rfl, rfl, answer⟩
  constructor
  · rw [segments_insertRoute]
    split
    · refine backed.templates.update fun t found => ?_
      exact (backed.templates _ _ (Segments.holds_of_find found)).seen captured
    · exact backed.templates.push (.new captured)
  · intro key sig found
    rw [hopPairIndex_insertRoute] at found
    split at found
    · rename_i key' _ pair
      rw [Std.HashMap.getElem?_insertIfNew] at found
      split at found
      · rename_i new
        cases found
        rw [← eq_of_beq new.1]
        exact ⟨merged, opportunity, rfl, pair⟩
      · exact backed.entries key sig found
    · exact backed.entries key sig found

theorem StoreBacked.recordRouteHit (backed : StoreBacked metis cfg g) (sig : U128) :
    StoreBacked metis cfg (ArbBot.recordRouteHit g sig) := by
  rw [recordRouteHit_eq]
  refine ⟨backed.templates.update fun t found => ?_, backed.entries⟩
  exact (backed.templates _ _ (Segments.holds_of_find found)).hit

theorem StoreBacked.recordHops (backed : StoreBacked metis cfg g) (routePlan : Json)
    (contextSlot : Option UInt64) :
    StoreBacked metis cfg (ArbBot.recordHops g routePlan contextSlot) :=
  backed.congr (segments_recordHops ..) (hopPairIndex_recordHops ..)

/-- What a lookup leaves behind and what it returns. -/
theorem StoreBacked.getRoute (backed : StoreBacked metis cfg g) (sig : U128) :
    StoreBacked metis cfg (getRoute g sig).2 ∧
      ∀ t, (ArbBot.getRoute g sig).1 = some t → TemplateBacked metis cfg sig t := by
  rw [getRoute_eq]
  refine ⟨⟨backed.templates.fetch fun t old => old.hit, backed.entries⟩, ?_⟩
  intro t found
  rcases Segments.fetch_fst found with held | ⟨t₀, held, rfl⟩
  · exact backed.templates sig t held
  · exact (backed.templates sig t₀ held).hit

theorem StoreBacked.getRouteForHops (backed : StoreBacked metis cfg g) (merged : Merged) :
    StoreBacked metis cfg (getRouteForHops g merged.quote.routePlan).2 ∧
      ∀ t, (ArbBot.getRouteForHops g merged.quote.routePlan).1 = some t →
        ∃ sig, Related metis cfg merged sig ∧ TemplateBacked metis cfg sig t := by
  rw [getRouteForHops_eq]
  split
  · rename_i sig found
    rcases Option.bind_eq_some_iff.mp found with ⟨key, pair, entry⟩
    obtain ⟨kept, answers⟩ := backed.getRoute sig
    refine ⟨kept, fun t returned => ⟨sig, ?_, answers t returned⟩⟩
    exact Or.inr ⟨key, pair, backed.entries key sig entry⟩
  · exact ⟨backed, nofun⟩

/-- **What a backed template serves** is an instruction for the opportunity. -/
theorem TemplateBacked.serves {merged : Merged} {swapIxs : SwapInstructionsResponse}
    (backed : TemplateBacked metis cfg sig t) (related : Related metis cfg merged sig)
    (served : serveRoute cfg.codec t merged.amount (onChainFloor merged.amount) =
      .ok (some swapIxs)) :
    IsInstruction metis cfg merged swapIxs := by
  rcases serveRoute_eq_ok_some_iff.mp served with
    held | ⟨-, inOff, outOff, data, inAt, outAt, decoded, -, rfl⟩
  · exact .variant related (backed.variants _ _ held)
  · have delta : merged.amount + t.delta = onChainFloor merged.amount := by
      rw [RouteTemplate.delta, backed.quotedOut, onChainFloor_sub, onChainFloor_eq]
    have found : discoverOffsets data t.templateInAmount (onChainFloor t.templateInAmount) =
        some (inOff, outOff) := by
      have offsets := backed.offsets
      rw [inAt, outAt, captureOffsets, decoded, Option.bind_some, backed.quotedOut] at offsets
      cases search : discoverOffsets data t.templateInAmount
          (onChainFloor t.templateInAmount) with
      | none =>
          rw [search] at offsets
          cases offsets
      | some pair =>
          rw [search] at offsets
          cases offsets
          rfl
    rw [delta]
    exact .patched related backed.base decoded found

end Store

/-! ## What tasks hand on -/

section Tasks

variable (metis : MetisAnswers) (cfg : Settings)

def Action.Backed : Action → Prop
  | .yieldPair pair => RoundTrip metis cfg.minProfitLamports pair
  | .push item => ItemBacked metis cfg item
  | .insertRoute merged swapIxs =>
      IsOpportunity metis cfg merged ∧ metis.swapInstructions merged.quote swapIxs
  | _ => True

def Stage.Backed : Stage → Prop
  | .tier1 merged | .tier2 merged | .tier2Route merged | .tier3 merged | .spawn merged
  | .metis merged => IsOpportunity metis cfg merged
  | .serving swapIxs hopCount | .answered swapIxs hopCount =>
      InstructionBacked metis cfg swapIxs hopCount
  | .popped item | .limit item | .limitGrpc item | .build item _ | .send item _
  | .sending item => ItemBacked metis cfg item
  | _ => True

def Task.Backed (task : Task) : Prop :=
  (∀ action ∈ task.pending, action.Backed metis cfg) ∧ task.stage.Backed metis cfg

structure Shared.Backed (s : Shared) : Prop where
  store : StoreBacked metis cfg s.store
  opps : ∀ pair ∈ s.opps, RoundTrip metis cfg.minProfitLamports pair
  lifo : ∀ item ∈ s.lifo, ItemBacked metis cfg item

/-- The answers of the network are among those Metis may give. -/
def MetisAnswers.Allows (task : Task) : Choice → Prop
  | .quoted getQuote => ∀ inputMint outputMint amount onlyDirect quote,
      getQuote inputMint outputMint amount onlyDirect = some quote →
        metis.quote inputMint outputMint amount onlyDirect quote
  | .answered (.ok swapIxs) _ => ∀ merged, task.stage = .metis merged →
      metis.swapInstructions merged.quote swapIxs
  | _ => True

end Tasks

section Step

variable {metis : MetisAnswers} {cfg : Settings} {s s' : Shared} {stage : Stage}
  {choice : Choice} {task : Task} {tasks : List Task}

theorem backed_task (backed : stage.Backed metis cfg) : stage.task.Backed metis cfg :=
  ⟨fun _ none => absurd none List.not_mem_nil, backed⟩

/-- What is pending only counts. -/
theorem backed_counting {pending : List Action} (backed : stage.Backed metis cfg)
    (counts : ∀ action ∈ pending, (∃ counter n, action = .add counter n) ∨
      (∃ mint counter n, action = .addToken mint counter n) ∨ ∃ sig, action = .recordRouteHit sig) :
    Task.Backed metis cfg { pending := pending, stage := stage } := by
  refine ⟨fun action member => ?_, backed⟩
  rcases counts action member with ⟨_, _, rfl⟩ | ⟨_, _, _, rfl⟩ | ⟨_, rfl⟩ <;> trivial

theorem backed_perform {action : Action} (shared : s.Backed metis cfg)
    (backed : action.Backed metis cfg) : (perform cfg s action).Backed metis cfg := by
  cases action with
  | yieldPair pair =>
      refine ⟨shared.store, ?_, shared.lifo⟩
      exact List.forall_mem_append.mpr ⟨shared.opps, List.forall_mem_singleton.mpr backed⟩
  | push item =>
      exact ⟨shared.store, shared.opps, List.forall_mem_cons.mpr ⟨backed, shared.lifo⟩⟩
  | insertRoute merged swapIxs =>
      exact ⟨shared.store.insertRoute backed.1 backed.2, shared.opps, shared.lifo⟩
  | recordRouteHit sig =>
      exact ⟨shared.store.recordRouteHit sig, shared.opps, shared.lifo⟩
  | recordHops merged =>
      exact ⟨shared.store.recordHops _ _, shared.opps, shared.lifo⟩
  | _ => exact ⟨shared.store, shared.opps, shared.lifo⟩

theorem backed_drop (counter : Counter) (backed : stage.Backed metis cfg) :
    Task.Backed metis cfg { pending := drop counter, stage := stage } :=
  backed_counting backed (by simp [drop])

/-- The instruction that is pushed is backed, so its item is. -/
theorem backed_pushToQueue {swapIxs : SwapInstructionsResponse} {hopCount : Nat} {next : Stage}
    (shared : s.Backed metis cfg) (backed : InstructionBacked metis cfg swapIxs hopCount)
    (after : next.Backed metis cfg) :
    (pushToQueue s swapIxs hopCount next).1.Backed metis cfg ∧
      ∀ task ∈ (pushToQueue s swapIxs hopCount next).2, task.Backed metis cfg := by
  refine ⟨⟨shared.store, shared.opps, shared.lifo⟩, ?_⟩
  intro task member
  rw [pushToQueue, List.mem_singleton] at member
  subst member
  refine ⟨?_, after⟩
  simp only [List.mem_cons, List.not_mem_nil, or_false, forall_eq_or_imp, forall_eq]
  exact ⟨backed, trivial, trivial, trivial⟩

theorem backed_of_quoteStep (answers : metis.Allows stage.task choice)
    (shared : s.Backed metis cfg)
    (decided : quoteStep cfg s stage choice = some (s', tasks)) :
    s'.Backed metis cfg ∧ ∀ task ∈ tasks, task.Backed metis cfg := by
  unfold quoteStep at decided
  split at decided
  · cases decided
    refine ⟨shared, ?_⟩
    simp only [List.mem_cons, List.not_mem_nil, or_false, forall_eq_or_imp, forall_eq]
    exact ⟨backed_counting trivial (by simp), backed_task trivial⟩
  · rename_i tokenMint amount onlyDirect getQuote
    cases decided
    refine ⟨shared, ?_⟩
    rw [List.forall_mem_singleton]
    refine ⟨?_, trivial⟩
    rcases outcome : quoteCheck getQuote tokenMint amount onlyDirect cfg.minProfitLamports with
      _ | _ | _ | pair
    · simp [QuoteOutcome.pending, Action.Backed]
    · simp [QuoteOutcome.pending, Action.Backed]
    · simp [QuoteOutcome.pending, Action.Backed]
    · have roundTrip := roundTrip_of_quoteCheck answers outcome
      simpa [QuoteOutcome.pending, Action.Backed] using roundTrip
  · cases decided

/-- A template that was looked up serves an opportunity, or the scan loop goes on with it. -/
theorem backed_of_serve {merged : Merged} {sig : RouteTemplate → U128} {otherwise : Stage}
    {found : Option RouteTemplate × StoreInner} (shared : s.Backed metis cfg)
    (opportunity : IsOpportunity metis cfg merged) (next : otherwise.Backed metis cfg)
    (store : StoreBacked metis cfg found.2)
    (looked : ∀ t, found.1 = some t →
      ∃ sig, Related metis cfg merged sig ∧ TemplateBacked metis cfg sig t)
    (decided : serve cfg s merged sig otherwise found = some (s', tasks)) :
    s'.Backed metis cfg ∧ ∀ task ∈ tasks, task.Backed metis cfg := by
  have kept : Shared.Backed metis cfg { s with store := found.2 } :=
    ⟨store, shared.opps, shared.lifo⟩
  unfold serve at decided
  split at decided
  · cases decided
    exact ⟨kept, List.forall_mem_singleton.mpr (backed_task next)⟩
  · rename_i t template
    split at decided
    · cases decided
    · cases decided
      exact ⟨kept, List.forall_mem_singleton.mpr (backed_task next)⟩
    · rename_i patched served
      cases decided
      rcases looked t template with ⟨_, related, backed⟩
      refine ⟨kept, List.forall_mem_singleton.mpr (backed_counting ?_ (by simp))⟩
      exact ⟨merged, opportunity, backed.serves related served, rfl⟩

theorem backed_of_scanStep (shared : s.Backed metis cfg) (backed : stage.Backed metis cfg)
    (decided : scanStep cfg s stage choice = some (s', tasks)) :
    s'.Backed metis cfg ∧ ∀ task ∈ tasks, task.Backed metis cfg := by
  unfold scanStep at decided
  split at decided
  · split at decided
    · cases decided
    · rename_i i pair found
      cases decided
      have roundTrip := shared.opps pair (List.mem_of_getElem? found)
      refine ⟨⟨shared.store, ?_, shared.lifo⟩, List.forall_mem_singleton.mpr ?_⟩
      · exact fun other member => shared.opps other (List.mem_of_mem_eraseIdx member)
      · rcases dispatch_cases pair with ⟨counter, -, same⟩ | ⟨merged, same⟩
        · rw [same]
          exact backed_drop counter trivial
        · rw [same]
          exact backed_task ⟨pair, opportunity_of_dispatch roundTrip same⟩
  · rename_i merged
    split at decided
    · obtain ⟨store, looked⟩ := shared.store.getRoute merged.sig
      have next : (Stage.tier2 merged).Backed metis cfg := backed
      exact backed_of_serve shared backed next store
        (fun t found => ⟨merged.sig, Or.inl rfl, looked t found⟩) decided
    · cases decided
      exact ⟨shared, List.forall_mem_singleton.mpr (backed_task backed)⟩
  · dsimp only at decided
    split at decided
    · cases decided
      exact ⟨shared, List.forall_mem_singleton.mpr (backed_counting backed (by simp))⟩
    · split at decided
      · cases decided
        exact ⟨shared, List.forall_mem_singleton.mpr (backed_counting backed (by simp))⟩
      · cases decided
        exact ⟨shared, List.forall_mem_singleton.mpr (backed_task backed)⟩
  · rename_i merged
    split at decided
    · obtain ⟨store, looked⟩ := shared.store.getRouteForHops merged
      have next : (Stage.tier3 merged).Backed metis cfg := backed
      exact backed_of_serve shared backed next store looked decided
    · cases decided
      exact ⟨shared, List.forall_mem_singleton.mpr (backed_task backed)⟩
  · split at decided
    · cases decided
      exact ⟨shared, List.forall_mem_singleton.mpr (backed_drop _ trivial)⟩
    · cases decided
      exact ⟨shared, List.forall_mem_singleton.mpr (backed_counting backed (by simp))⟩
  · cases decided
    refine ⟨shared, List.forall_mem_cons.mpr ⟨backed_task trivial, ?_⟩⟩
    exact List.forall_mem_singleton.mpr (backed_task backed)
  · cases decided
    exact backed_pushToQueue shared backed trivial
  · cases decided

theorem backed_of_metisStep (answers : metis.Allows stage.task choice)
    (shared : s.Backed metis cfg) (backed : stage.Backed metis cfg)
    (decided : metisStep cfg s stage choice = some (s', tasks)) :
    s'.Backed metis cfg ∧ ∀ task ∈ tasks, task.Backed metis cfg := by
  unfold metisStep at decided
  split at decided
  · rename_i merged result fetchMs
    cases decided
    refine ⟨shared, List.forall_mem_singleton.mpr ?_⟩
    cases result with
    | error e => exact backed_counting trivial (by simp [drop])
    | ok swapIxs =>
        have answer : metis.swapInstructions merged.quote swapIxs := answers merged rfl
        refine ⟨?_, ⟨merged, backed, .answered answer, rfl⟩⟩
        have opportunity : IsOpportunity metis cfg merged := backed
        simp only [metisAnswer]
        split <;> simp [Action.Backed, opportunity, answer]
  · cases decided
    exact backed_pushToQueue shared backed trivial
  · cases decided

theorem backed_requeued {item : ReadyInstruction} (backed : ItemBacked metis cfg item) :
    (requeued item).Backed metis cfg := by
  have again : ItemBacked metis cfg { item with waitedForSlot := true } := backed
  refine ⟨?_, trivial⟩
  simp only [requeued]
  split <;> simp [Action.Backed, again]

theorem backed_of_tryLimiter {limiter : RateLimiter} {path : Path}
    {update : RateLimiter → Shared → Shared} {item : ReadyInstruction} {otherwise : Task}
    (updated : ∀ limiter s, s.Backed metis cfg → (update limiter s).Backed metis cfg)
    (shared : s.Backed metis cfg) (backed : ItemBacked metis cfg item)
    (next : otherwise.Backed metis cfg)
    (decided : tryLimiter s limiter path update item otherwise = some (s', tasks)) :
    s'.Backed metis cfg ∧ ∀ task ∈ tasks, task.Backed metis cfg := by
  rcases tryLimiter_cases decided with ⟨limiter', -, rfl, rfl⟩ | ⟨limiter', -, rfl, rfl⟩
  · refine ⟨updated _ _ ⟨shared.store, shared.opps, shared.lifo⟩, ?_⟩
    exact List.forall_mem_singleton.mpr (backed_task backed)
  · exact ⟨updated _ _ shared, List.forall_mem_singleton.mpr next⟩

theorem backed_of_workerStep (shared : s.Backed metis cfg) (backed : stage.Backed metis cfg)
    (decided : workerStep cfg s stage choice = some (s', tasks)) :
    s'.Backed metis cfg ∧ ∀ task ∈ tasks, task.Backed metis cfg := by
  unfold workerStep at decided
  split at decided
  · split at decided
    · cases decided
      exact ⟨⟨shared.store, shared.opps, shared.lifo⟩,
        List.forall_mem_singleton.mpr (backed_task trivial)⟩
    · cases decided
  · split at decided
    · rename_i item rest top
      cases decided
      have items := shared.lifo
      rw [top] at items
      obtain ⟨first, later⟩ := List.forall_mem_cons.mp items
      exact ⟨⟨shared.store, shared.opps, later⟩,
        List.forall_mem_singleton.mpr (backed_counting first (by simp))⟩
    · cases decided
      exact ⟨shared, List.forall_mem_singleton.mpr (backed_task trivial)⟩
  · split at decided
    · cases decided
      exact ⟨shared, List.forall_mem_singleton.mpr (backed_drop _ trivial)⟩
    · cases decided
      exact ⟨shared, List.forall_mem_singleton.mpr (backed_task backed)⟩
  · rename_i item
    have next : (Stage.limitGrpc item).Backed metis cfg := backed
    refine backed_of_tryLimiter ?_ shared backed (backed_task next) decided
    exact fun limiter s kept => ⟨kept.store, kept.opps, kept.lifo⟩
  · split at decided
    · cases decided
      exact ⟨shared, List.forall_mem_singleton.mpr (backed_requeued backed)⟩
    · refine backed_of_tryLimiter ?_ shared backed (backed_requeued backed) decided
      exact fun limiter s kept => ⟨kept.store, kept.opps, kept.lifo⟩
  · cases decided
    exact ⟨shared, List.forall_mem_singleton.mpr (backed_task trivial)⟩
  · rename_i item grant result
    cases decided
    refine ⟨shared, List.forall_mem_singleton.mpr ?_⟩
    rcases checkBuilt_cases item grant result with ⟨counter, -, same⟩ | same
    · rw [same]
      exact backed_drop counter trivial
    · rw [same]
      exact backed_counting backed (by simp)
  · cases decided
    exact ⟨⟨shared.store, shared.opps, shared.lifo⟩,
      List.forall_mem_singleton.mpr (backed_task backed)⟩
  · split at decided
    · cases decided
      exact ⟨shared, List.forall_mem_singleton.mpr (backed_counting trivial (by simp))⟩
    · cases decided
      exact ⟨shared, List.forall_mem_singleton.mpr (backed_drop _ trivial)⟩
  · cases decided

/-- **One step of a task** with an answer that Metis may give keeps everything backed. -/
theorem backed_of_run (answers : metis.Allows task choice)
    (ran : (pipeline cfg).run s task choice = some (s', tasks))
    (shared : s.Backed metis cfg) (backed : task.Backed metis cfg) :
    s'.Backed metis cfg ∧ ∀ task ∈ tasks, task.Backed metis cfg := by
  rcases task with ⟨pending, stage⟩
  obtain ⟨actions, here⟩ := backed
  cases pending with
  | cons action rest =>
      cases ran
      obtain ⟨first, later⟩ := List.forall_mem_cons.mp actions
      exact ⟨backed_perform shared first, List.forall_mem_singleton.mpr ⟨later, here⟩⟩
  | nil =>
      have decided : decideStage cfg s stage choice = some (s', tasks) := ran
      unfold decideStage at decided
      split at decided
      · split at decided
        · cases decided
          exact ⟨⟨shared.store, shared.opps, shared.lifo⟩,
            List.forall_mem_singleton.mpr (backed_task trivial)⟩
        · cases decided
      all_goals
        first
        | exact backed_of_quoteStep answers shared decided
        | exact backed_of_scanStep shared here decided
        | exact backed_of_metisStep answers shared here decided
        | exact backed_of_workerStep shared here decided

end Step

end ArbBot
