import ArbBot.Persistence.RoundTrip

/-!
# The base instruction after a restart

A file keeps the base of a route and its offsets, not its variants. Before a restart the
amount of the base is served from a variant: the captured instruction. Afterwards it is
served by a patch, which writes the predicted output behind the amount, and without
offsets not at all. `serveRoute_after_restart` says what that gives for each way the
offsets were found.
-/

namespace ArbBot

open Foundation

/-- Pass 1 of the offset search found the pair of amounts, at the given position. -/
def FoundByPair (data : List UInt8) (inAmount quotedOut : UInt64) (p : Nat) : Prop :=
  searchLoop (pairAt data inAmount quotedOut) (positions data) none 0 = some (some p)

instance (data : List UInt8) (inAmount quotedOut : UInt64) (p : Nat) :
    Decidable (FoundByPair data inAmount quotedOut p) :=
  inferInstanceAs (Decidable (_ = _))

/-- At the position pass 1 finds, the pair stands in the data. -/
theorem FoundByPair.window {data : List UInt8} {inAmount quotedOut : UInt64} {p : Nat}
    (found : FoundByPair data inAmount quotedOut p) :
    window data p 8 = le64 inAmount ∧ window data (p + 8) 8 = le64 quotedOut := by
  have isMatch := (mem_of_filter_eq_singleton (searchLoop_eq_found.mp found)).2
  simpa [pairAt] using isMatch

section Template

variable {codec : TextCodec} {sig : U128} {life : Life} {t : RouteTemplate}

/-- The offsets of a template created here are those the search found in its data. -/
theorem Life.Determines.offsets (determines : life.Determines codec sig t)
    (here : life.saved = none) :
    t.inAmountOffset =
        (captureOffsets codec t.swapIxs t.templateInAmount t.templateQuotedOut).map Prod.fst ∧
      t.quotedOutOffset =
        (captureOffsets codec t.swapIxs t.templateInAmount t.templateQuotedOut).map Prod.snd := by
  rcases determines.base with ⟨t₀, began, same⟩
  rw [Life.origin, here] at began
  rcases Option.map_eq_some_iff.mp began with ⟨first, -, rfl⟩
  rw [same.inAmountOffset, same.quotedOutOffset, same.swapIxs, same.templateInAmount,
    same.templateQuotedOut]
  exact ⟨rfl, rfl⟩

/-- The amount of the base is served from a variant. -/
theorem serveRoute_variant {amount quotedOut : UInt64} {ixs : SwapInstructionsResponse}
    (variant : t.amountVariants[amount]? = some ixs) :
    serveRoute codec t amount quotedOut = .ok (some ixs) := by
  rw [serveRoute, variant]

/-- Without variants and offsets nothing is served. -/
theorem serveRoute_cold_none {amount quotedOut : UInt64} (absent : t.inAmountOffset = none) :
    serveRoute codec t.cold amount quotedOut = .ok none := by
  have bare : t.cold.amountVariants[amount]? = none := Std.HashMap.getElem?_empty
  have noOffset : t.cold.inAmountOffset = none := absent
  rw [serveRoute, bare, noOffset]

/-- Without variants the amount of the base is served by writing the predicted output
behind the amount. -/
theorem serveRoute_cold_patched {quotedOut : UInt64} {data : List UInt8} {offset : Nat}
    (decoded : codec.decode t.swapIxs.swapInstruction.data = some data)
    (short : data.length < 2 ^ 64) (inside : offset + 16 ≤ data.length)
    (inAt : t.inAmountOffset = some offset) (outAt : t.quotedOutOffset = some (offset + 8))
    (reads : window data offset 8 = le64 t.templateInAmount) :
    serveRoute codec t.cold t.templateInAmount quotedOut =
      .ok (some (t.swapIxs.withData
        (codec.encode (overwrite data (offset + 8) (le64 t.templateQuotedOut))))) := by
  have fits : Fits data offset (offset + 8) := ⟨⟨by omega, by omega⟩, by omega, by omega⟩
  have delta : t.templateInAmount + t.delta = t.templateQuotedOut := by
    rw [RouteTemplate.delta, UInt64.add_comm, UInt64.sub_add_cancel]
  have unchanged : overwrite data offset (le64 t.templateInAmount) = data := by
    rw [← reads]
    exact overwrite_window (by omega)
  refine serveRoute_eq_ok_some_iff.mpr (Or.inr ⟨Std.HashMap.getElem?_empty, offset, offset + 8,
    data, inAt, outAt, decoded, fits, ?_⟩)
  show t.swapIxs.withData (codec.encode (patched data offset (offset + 8) t.templateInAmount
    (t.templateInAmount + t.delta))) = _
  rw [delta, patched, unchanged]

/-- Where the pair stands in the data, that gives the base again. -/
theorem withData_overwrite_pair {data : List UInt8} {offset : Nat}
    (decoded : codec.decode t.swapIxs.swapInstruction.data = some data)
    (inside : offset + 16 ≤ data.length)
    (reads : window data (offset + 8) 8 = le64 t.templateQuotedOut) :
    t.swapIxs.withData (codec.encode (overwrite data (offset + 8) (le64 t.templateQuotedOut))) =
      t.swapIxs := by
  have unchanged : overwrite data (offset + 8) (le64 t.templateQuotedOut) = data := by
    rw [← reads]
    exact overwrite_window (by omega)
  rw [unchanged, codec.encode_of_decode decoded]
  rfl

/-- Data that reads the same after the write had the pair. -/
theorem window_of_withData_eq {data : List UInt8} {offset : Nat}
    (decoded : codec.decode t.swapIxs.swapInstruction.data = some data)
    (inside : offset + 16 ≤ data.length)
    (same : t.swapIxs.withData
      (codec.encode (overwrite data (offset + 8) (le64 t.templateQuotedOut))) = t.swapIxs) :
    window data (offset + 8) 8 = le64 t.templateQuotedOut := by
  have text := congrArg (fun ixs => ixs.swapInstruction.data) same
  rw [SwapInstructionsResponse.data_withData] at text
  have bytes := (codec.decode_encode _).symm.trans ((congrArg codec.decode text).trans decoded)
  have reads : window (overwrite data (offset + 8) (le64 t.templateQuotedOut)) (offset + 8)
      (le64 t.templateQuotedOut).length = le64 t.templateQuotedOut :=
    window_overwrite_self (by rw [length_le64]; omega)
  rwa [Option.some.inj bytes, length_le64] at reads

/-- Offsets whose pair stands in the data were found by pass 1. -/
theorem foundByPair_of_window {data : List UInt8} {inAmount quotedOut : UInt64} {offset : Nat}
    (search : discoverOffsets data inAmount quotedOut = some (offset, offset + 8))
    (reads : window data (offset + 8) 8 = le64 quotedOut) :
    FoundByPair data inAmount quotedOut offset := by
  rcases discoverOffsets_inside search with ⟨-, inside, amount⟩
  rcases discoverOffsets_eq_some_iff.mp search with ⟨long, -, only | ⟨nowhere, -⟩⟩
  · exact searchLoop_eq_found.mpr only
  · have member : offset ∈ (positions data).filter (pairAt data inAmount quotedOut) := by
      refine List.mem_filter.mpr ⟨(mem_positions long).mpr inside, ?_⟩
      rw [pairAt, amount, reads, BEq.rfl, BEq.rfl, Bool.and_self]
    rw [nowhere] at member
    cases member

end Template

section Restart

variable {codec : TextCodec} {p : Process} {file : RouteFile} {sig : U128} {t : RouteTemplate}

/-- What a lookup finds in the next process. -/
theorem getRoute_reload (reached : (processMachine codec).Reach Machine.anyStep p)
    (holds : p.world.store.segments.Holds sig t) (snapshot : Snapshot p.world.store file) :
    ∃ t', (getRoute (p.world.reload file).store sig).1 = some t' ∧
      (t' = t.cold ∨ t' = t.cold.hit) := by
  have found : (p.world.reload file).store.segments.find sig = some t.cold :=
    (find_reload (reach_disjoint (reach_world reached)) (reach_keyed (reach_world reached))
      snapshot).mpr ⟨t, holds, rfl⟩
  have answered :
      ((p.world.reload file).store.segments.fetch routeSegCap sig RouteTemplate.hit).1 =
          some t.cold ∨
        ((p.world.reload file).store.segments.fetch routeSegCap sig RouteTemplate.hit).1 =
          some t.cold.hit := Segments.fetch_of_find found
  rw [getRoute_eq]
  rcases answered with same | hit
  · exact ⟨t.cold, same, Or.inl rfl⟩
  · exact ⟨t.cold.hit, hit, Or.inr rfl⟩

/-- **The base after a restart.** A template that was created here serves its own amount
with the captured instruction. After a flush and a restart it serves that amount

* not at all, when no offsets were discovered;
* with the predicted output written behind the amount, when they were, which is the
  captured instruction just when the pair search discovered them. -/
theorem serveRoute_after_restart (reached : (processMachine codec).Reach Machine.anyStep p)
    (holds : p.world.store.segments.Holds sig t) (here : (p.lives sig).saved = none)
    (snapshot : Snapshot p.world.store file) (quotedOut : UInt64) :
    serveRoute codec t t.templateInAmount quotedOut = .ok (some t.swapIxs) ∧
    ∃ t', (getRoute (p.world.reload file).store sig).1 = some t' ∧
      (t.inAmountOffset = none → serveRoute codec t' t.templateInAmount quotedOut = .ok none) ∧
      ∀ data offset, t.inAmountOffset = some offset →
        codec.decode t.swapIxs.swapInstruction.data = some data → data.length < 2 ^ 64 →
          serveRoute codec t' t.templateInAmount quotedOut =
            .ok (some (t.swapIxs.withData
              (codec.encode (overwrite data (offset + 8) (le64 t.templateQuotedOut))))) ∧
          (serveRoute codec t' t.templateInAmount quotedOut = .ok (some t.swapIxs) ↔
            FoundByPair data t.templateInAmount t.templateQuotedOut offset) := by
  have determines := reach_determines reached holds
  refine ⟨serveRoute_variant (determines.created here), ?_⟩
  rcases getRoute_reload reached holds snapshot with ⟨t', answer, cold⟩
  have served : serveRoute codec t' t.templateInAmount quotedOut =
      serveRoute codec t.cold t.templateInAmount quotedOut := by
    rcases cold with rfl | rfl
    · rfl
    · exact serveRoute_hit ..
  refine ⟨t', answer, ?_⟩
  rw [served]
  refine ⟨serveRoute_cold_none, fun data offset inAt decoded short => ?_⟩
  rcases determines.offsets here with ⟨inSearch, outSearch⟩
  have search : discoverOffsets data t.templateInAmount t.templateQuotedOut =
      some (offset, offset + 8) := by
    rw [inAt, captureOffsets, decoded, Option.bind_some] at inSearch
    rcases Option.map_eq_some_iff.mp inSearch.symm with ⟨⟨inOff, outOff⟩, search, rfl⟩
    rw [search, (discoverOffsets_inside search).1]
  have outAt : t.quotedOutOffset = some (offset + 8) := by
    rw [outSearch, captureOffsets, decoded, Option.bind_some, search]
    rfl
  rcases discoverOffsets_inside search with ⟨-, inside, amount⟩
  have patch : serveRoute codec t.cold t.templateInAmount quotedOut =
      .ok (some (t.swapIxs.withData
        (codec.encode (overwrite data (offset + 8) (le64 t.templateQuotedOut))))) :=
    serveRoute_cold_patched decoded short inside inAt outAt amount
  refine ⟨patch, ?_⟩
  rw [patch]
  constructor
  · intro same
    have equal := Option.some.inj (Except.ok.inj same)
    exact foundByPair_of_window search (window_of_withData_eq decoded inside equal)
  · intro found
    rw [withData_overwrite_pair decoded inside found.window.2]

/-- A captured answer with its amounts in it is served again. -/
theorem serveRoute_after_restart_captured :
    ∃ (p : Process) (t t' : RouteTemplate),
      p.world.store.segments.Holds (routeSig (.array [])) t ∧
        (getRoute (p.world.reload (flushRoutes p.world.store)).store (routeSig (.array []))).1 =
          some t' ∧
        serveRoute Base64.standard t' t.templateInAmount 0 = .ok (some t.swapIxs) := by
  rcases exists_captured Base64.standard (.array [])
    (bareService.respond Base64.standard () 5 (onChainFloor 5)) 5 with ⟨p, reached, -, hot, life⟩
  rcases serveRoute_after_restart reached (Or.inl hot) (by rw [life])
    (snapshot_flushRoutes p.world.store) 0 with ⟨-, t', answer, -, offsets⟩
  have decoded : Base64.standard.decode
      (bareService.respond Base64.standard () 5 (onChainFloor 5)).swapInstruction.data =
        some (bareService.data () 5 (onChainFloor 5)) := Base64.standard.decode_encode _
  have search : captureOffsets Base64.standard
      (bareService.respond Base64.standard () 5 (onChainFloor 5)) 5 (onChainFloor 5) =
        some (0, 8) := by
    rw [captureOffsets, decoded]
    decide
  have served := offsets _ 0 (by rw [newTemplate, search]; rfl) decoded (by decide)
  exact ⟨p, _, t', Or.inl hot, answer, served.2.mpr (by decide : FoundByPair _ _ _ _)⟩

/-- A captured answer without data has no offsets: after a restart it is not served. -/
theorem base_lost :
    ¬ ∀ (p : Process) (sig : U128) (t t' : RouteTemplate) (file : RouteFile) (quotedOut : UInt64),
      (processMachine Base64.standard).Reach Machine.anyStep p →
        p.world.store.segments.Holds sig t → (p.lives sig).saved = none →
          Snapshot p.world.store file →
            (getRoute (p.world.reload file).store sig).1 = some t' →
              serveRoute Base64.standard t' t.templateInAmount quotedOut =
                serveRoute Base64.standard t t.templateInAmount quotedOut := by
  intro same
  rcases exists_captured Base64.standard (.array []) (bareService.rest ()) 5 with
    ⟨p, reached, -, hot, life⟩
  have here : (p.lives (routeSig (.array []))).saved = none := by rw [life]
  have snapshot := snapshot_flushRoutes p.world.store
  rcases getRoute_reload reached (Or.inl hot) snapshot with ⟨t', answer, cold⟩
  have equal := same p _ _ t' _ 0 reached (Or.inl hot) here snapshot answer
  rw [serveRoute_variant ((reach_determines reached (Or.inl hot)).created here)] at equal
  have absent : (newTemplate Base64.standard (routeSig (.array [])) (bareService.rest ()) 5
      (onChainFloor 5)).inAmountOffset = none := by
    have search : captureOffsets Base64.standard (bareService.rest ()) 5 (onChainFloor 5) =
        none := by decide
    rw [newTemplate, search]
    rfl
  rcases cold with rfl | rfl
  · rw [serveRoute_cold_none absent] at equal
    cases equal
  · rw [serveRoute_hit, serveRoute_cold_none absent] at equal
    cases equal

end Restart

end ArbBot
