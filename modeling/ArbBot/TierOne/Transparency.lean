import ArbBot.StoreRuns

/-!
# Tier 1 is transparent

`SwapService` is what the first tier assumes of Metis: the instruction for a route
structure holds the two amounts next to each other in otherwise fixed data. Under it
a template stays `Captured`, whatever the store does, and what a captured template
serves for an amount is what the service answers for that amount.
-/

namespace ArbBot

open Foundation

/-! ## The service -/

/-- The swap-instruction service over amount-free route structures. -/
structure SwapService (σ : Type*) where
  pre : σ → List UInt8
  post : σ → List UInt8
  rest : σ → SwapInstructionsResponse

namespace SwapService

variable {σ : Type*}

/-- The decoded data of the swap instruction. -/
def data (M : SwapService σ) (s : σ) (amount floor : UInt64) : List UInt8 :=
  M.pre s ++ (le64 amount ++ (le64 floor ++ M.post s))

def respond (M : SwapService σ) (codec : TextCodec) (s : σ) (amount floor : UInt64) :
    SwapInstructionsResponse :=
  (M.rest s).withData (codec.encode (M.data s amount floor))

variable {M : SwapService σ} {codec : TextCodec} {s : σ} {amount floor : UInt64}

theorem window_data_amount : window (M.data s amount floor) (M.pre s).length 8 = le64 amount := by
  have read : window (M.data s amount floor) (M.pre s).length (le64 amount).length =
      le64 amount := window_append_mid
  rwa [length_le64] at read

theorem window_data_floor :
    window (M.data s amount floor) ((M.pre s).length + 8) 8 = le64 floor := by
  have shape : M.data s amount floor =
      (M.pre s ++ le64 amount) ++ (le64 floor ++ M.post s) := by
    simp only [data, List.append_assoc]
  have read : window ((M.pre s ++ le64 amount) ++ (le64 floor ++ M.post s))
      (M.pre s ++ le64 amount).length (le64 floor).length = le64 floor := window_append_mid
  rwa [length_le64, List.length_append, length_le64, ← shape] at read

theorem length_data :
    (M.data s amount floor).length = (M.pre s).length + 16 + (M.post s).length := by
  simp only [data, List.length_append, length_le64]
  omega

/-- Writing both amounts at their place gives the data of those amounts. -/
theorem patched_data (amount' floor' : UInt64) :
    patched (M.data s amount floor) (M.pre s).length ((M.pre s).length + 8) amount' floor' =
      M.data s amount' floor' := by
  have first : overwrite (M.data s amount floor) (M.pre s).length (le64 amount') =
      M.pre s ++ (le64 amount' ++ (le64 floor ++ M.post s)) :=
    overwrite_append_mid (by rw [length_le64, length_le64])
  have second : overwrite ((M.pre s ++ le64 amount') ++ (le64 floor ++ M.post s))
      (M.pre s ++ le64 amount').length (le64 floor') =
      (M.pre s ++ le64 amount') ++ (le64 floor' ++ M.post s) :=
    overwrite_append_mid (by rw [length_le64, length_le64])
  rw [List.length_append, length_le64, List.append_assoc, List.append_assoc] at second
  rw [patched, first, second, data]

end SwapService

/-! ## Captured templates -/

/-- The template holds answers of the service for the structure, and offsets, if any,
point at its amounts. -/
structure Captured {σ : Type*} (M : SwapService σ) (codec : TextCodec) (s : σ)
    (t : RouteTemplate) : Prop where
  base : t.swapIxs = M.respond codec s t.templateInAmount (onChainFloor t.templateInAmount)
  quoted : t.templateQuotedOut = onChainFloor t.templateInAmount
  offsets : (t.inAmountOffset = none ∧ t.quotedOutOffset = none) ∨
    t.inAmountOffset = some (M.pre s).length ∧
      t.quotedOutOffset = some ((M.pre s).length + 8)
  variants : ∀ amount ixs, t.amountVariants[amount]? = some ixs →
    ixs = M.respond codec s amount (onChainFloor amount)

section Captured

variable {σ : Type*} {M : SwapService σ} {codec : TextCodec} {s : σ} {t : RouteTemplate}

theorem Captured.hit (captured : Captured M codec s t) : Captured M codec s t.hit :=
  ⟨captured.base, captured.quoted, captured.offsets, captured.variants⟩

theorem Captured.cold (captured : Captured M codec s t) : Captured M codec s t.cold where
  base := captured.base
  quoted := captured.quoted
  offsets := captured.offsets
  variants amount ixs found := by
    simp [RouteTemplate.cold] at found

theorem Captured.seen (captured : Captured M codec s t) (amount : UInt64) :
    Captured M codec s (t.seen amount (M.respond codec s amount (onChainFloor amount))) where
  base := captured.base
  quoted := captured.quoted
  offsets := captured.offsets
  variants amount' ixs found := by
    simp only [RouteTemplate.seen, Std.HashMap.getElem?_insertIfNew, beq_iff_eq] at found
    split at found
    · rename_i new
      rcases new with ⟨rfl, -⟩
      exact (Option.some.inj found).symm
    · exact captured.variants amount' ixs found

/-- The search finds the amounts of a response where they are, or refuses. -/
theorem captureOffsets_respond (M : SwapService σ) (codec : TextCodec) (s : σ)
    (amount : UInt64) :
    let offsets := captureOffsets codec (M.respond codec s amount (onChainFloor amount)) amount
      (onChainFloor amount)
    offsets = none ∨ offsets = some ((M.pre s).length, (M.pre s).length + 8) := by
  simp only [captureOffsets, SwapService.respond, SwapInstructionsResponse.data_withData,
    codec.decode_encode, Option.bind_some]
  apply discoverOffsets_of_pair
  · rw [SwapService.length_data]
    omega
  · simp only [pairAt, SwapService.window_data_amount, SwapService.window_data_floor,
      BEq.rfl, Bool.and_self]

theorem captured_newTemplate (sig : U128) (amount : UInt64) :
    Captured M codec s (newTemplate codec sig
      (M.respond codec s amount (onChainFloor amount)) amount (onChainFloor amount)) where
  base := rfl
  quoted := rfl
  offsets := by
    rcases captureOffsets_respond M codec s amount with refused | found
    · left
      simp only [newTemplate, refused]
      exact ⟨rfl, rfl⟩
    · right
      simp only [newTemplate, found]
      exact ⟨rfl, rfl⟩
  variants amount' ixs found := by
    simp only [newTemplate, Std.HashMap.getElem?_insert, Std.HashMap.getElem?_empty, beq_iff_eq]
      at found
    split at found
    · rename_i same
      subst same
      exact (Option.some.inj found).symm
    · cases found

/-- A captured template answers as the service does: from a variant, or from its base
at another amount. -/
theorem Captured.serveRoute_eq (captured : Captured M codec s t) {amount floor : UInt64}
    {ixs : SwapInstructionsResponse}
    (served : serveRoute codec t amount floor = .ok (some ixs)) :
    ixs = M.respond codec s amount (onChainFloor amount) := by
  rcases serveRoute_eq_ok_some_iff.mp served with
    variant | ⟨-, inOff, outOff, data, inAt, outAt, decoded, -, rfl⟩
  · exact captured.variants amount ixs variant
  · have delta : amount + t.delta = onChainFloor amount := by
      rw [RouteTemplate.delta, captured.quoted, onChainFloor_sub, onChainFloor_eq]
    rcases captured.offsets with ⟨absent, -⟩ | ⟨inHere, outHere⟩
    · rw [absent] at inAt
      cases inAt
    · obtain rfl := Option.some.inj (inHere.symm.trans inAt)
      obtain rfl := Option.some.inj (outHere.symm.trans outAt)
      rw [captured.base, SwapService.respond, SwapInstructionsResponse.data_withData,
        codec.decode_encode] at decoded
      obtain rfl := Option.some.inj decoded
      rw [SwapService.patched_data, delta, captured.base, SwapService.respond,
        SwapInstructionsResponse.withData_withData, SwapService.respond]

end Captured

/-! ## Runs -/

section Runs

variable {σ : Type*} {codec : TextCodec} {M : SwapService σ} {structOf : Json → σ}
  {Seen : Set Json}

/-- The plans that are captured come from a given set, with the answers of the
service. -/
def CapturesService (codec : TextCodec) (M : SwapService σ) (structOf : Json → σ)
    (Seen : Set Json) (_ : World) : StoreCall → Prop
  | .insertRoute routePlan swapIxs amount =>
      routePlan ∈ Seen ∧
        swapIxs = M.respond codec (structOf routePlan) amount (onChainFloor amount)
  | _ => True

/-- **Tier 1 is transparent.** In every run whose captures are answers of the service,
what `get_route` and `serve_route` give for a plan and an amount is the answer of the
service for that plan and amount, if plans of one signature have one structure. -/
theorem serveRoute_transparent
    (faithful : ∀ p ∈ Seen, ∀ q ∈ Seen, routeSig p = routeSig q → structOf p = structOf q)
    {w : World} (reached : (storeMachine codec).Reach (CapturesService codec M structOf Seen) w)
    {routePlan : Json} (seen : routePlan ∈ Seen) {t : RouteTemplate}
    (found : (getRoute w.store (routeSig routePlan)).1 = some t) {amount : UInt64}
    {ixs : SwapInstructionsResponse}
    (served : serveRoute codec t amount (onChainFloor amount) = .ok (some ixs)) :
    ixs = M.respond codec (structOf routePlan) amount (onChainFloor amount) := by
  have captured : w.store.segments.All fun sig t =>
      ∀ p ∈ Seen, routeSig p = sig → Captured M codec (structOf p) t := by
    refine reach_templates ?_ ?_ ?_ ?_ reached
    · intro sig t before p member same
      exact (before p member same).hit
    · intro sig t before p member same
      exact (before p member same).cold
    · intro w' routePlan' swapIxs amount' t allowed before p member same
      rcases allowed with ⟨member', rfl⟩
      rw [faithful routePlan' member' p member same.symm]
      exact (before p member same).seen amount'
    · intro w' routePlan' swapIxs amount' allowed p member same
      rcases allowed with ⟨member', rfl⟩
      rw [faithful routePlan' member' p member same.symm]
      exact captured_newTemplate _ amount'
  rw [getRoute_eq] at found
  rcases Segments.fetch_fst found with holds | ⟨t₀, holds, rfl⟩
  · exact (captured _ _ holds routePlan seen rfl).serveRoute_eq served
  · exact (captured _ _ holds routePlan seen rfl).hit.serveRoute_eq served

/-- A service that answers with the bare amounts. -/
def bareService : SwapService Unit where
  pre _ := []
  post _ := []
  rest _ := {
    computeBudgetInstructions := []
    setupInstructions := []
    swapInstruction := { programId := "JUP6", accounts := [], data := "" }
    cleanupInstruction := none
    addressLookupTableAddresses := [] }

/-- Captured at 5 lamports, served at 7 by a patch. -/
theorem serveRoute_transparent_bareService :
    let captured := bareService.respond Base64.standard () 5 (onChainFloor 5)
    let w := World.initial.insertRoute Base64.standard (.array []) captured 5
    ∃ t ixs, (getRoute w.store (routeSig (.array []))).1 = some t ∧
      serveRoute Base64.standard t 7 (onChainFloor 7) = .ok (some ixs) ∧
        ixs = bareService.respond Base64.standard () 7 (onChainFloor 7) := by
  intro captured w
  have reached : (storeMachine Base64.standard).Reach
      (CapturesService Base64.standard bareService (fun _ => ()) {.array []}) w :=
    (Machine.Reach.ofStart (M := storeMachine Base64.standard) rfl).step
      (i := .insertRoute (.array []) captured 5) ⟨rfl, rfl⟩ rfl
  have found : (getRoute w.store (routeSig (.array []))).1 = some (newTemplate Base64.standard
      (routeSig (.array [])) captured 5 (onChainFloor 5)) :=
    getRoute_insertRoute_fresh (not_live_initial _)
  have decoded : Base64.standard.decode captured.swapInstruction.data =
      some (bareService.data () 5 (onChainFloor 5)) := Base64.standard.decode_encode _
  have offsets : captureOffsets Base64.standard captured 5 (onChainFloor 5) = some (0, 8) := by
    rw [captureOffsets, decoded]
    decide
  have served : ∃ ixs, serveRoute Base64.standard (newTemplate Base64.standard
      (routeSig (.array [])) captured 5 (onChainFloor 5)) 7 (onChainFloor 7) =
        .ok (some ixs) := by
    refine ⟨_, serveRoute_eq_ok_some_iff.mpr
      (Or.inr ⟨?_, 0, 8, _, ?_, ?_, decoded, ?_, rfl⟩)⟩
    · simp [newTemplate]
    · simp [newTemplate, offsets]
    · simp [newTemplate, offsets]
    · rw [Fits, SwapService.length_data]
      decide
  rcases served with ⟨ixs, served⟩
  exact ⟨_, ixs, found, served,
    serveRoute_transparent (fun _ _ _ _ _ => rfl) reached rfl found served⟩

end Runs

end ArbBot
