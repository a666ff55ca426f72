import ArbBot.TierOne.Floor
import ArbBot.TierOne.Patching

/-!
# Serving what was loaded

A load takes offsets and amounts from the file as they are. `serve_route` subtracts the
amounts, adds to the requested one and to the offsets, and bounds its writes by sums that
wrap. `totalFor_iff` says for which loaded templates and requested amounts this is the
exact arithmetic and a patch of the base: not for an offset at the end of the address
space, which passes the wrapped bound and panics in the write.
-/

namespace ArbBot

open Foundation

/-- The load put the template under a signature that was not live. -/
def Loaded (g : StoreInner) (file : RouteFile) (sig : U128) (t : RouteTemplate) : Prop :=
  ¬ g.segments.Live sig ∧ (loadRoutesFromDisk g file).2.segments.Holds sig t

/-- The exact results of the additions and subtractions that `serve_route` evaluates, in
their order: those of the output amount, then the bounds, the second one only where the
first does not end the guard. -/
def serveArithmetic (codec : TextCodec) (t : RouteTemplate) (newIn : UInt64) : List Int :=
  match t.amountVariants[newIn]? with
  | some _ => []
  | none =>
      match t.inAmountOffset, t.quotedOutOffset with
      | some inOff, some outOff =>
          let delta : Int := t.templateQuotedOut.toNat - t.templateInAmount.toNat
          let bounds : List Int :=
            match codec.decode t.swapIxs.swapInstruction.data with
            | none => []
            | some data =>
                if inOff + 8 > data.length then [(inOff : Int) + 8]
                else [(inOff : Int) + 8, (outOff : Int) + 8]
          delta :: (newIn.toNat + delta) :: bounds
      | _, _ => []

/-- The value fits a `u64`, and a `usize` of the target. -/
def InRange (value : Int) : Prop := 0 ≤ value ∧ value < 2 ^ 64

/-- The instruction is the base, but for the eight bytes at each offset. -/
def PatchOf (codec : TextCodec) (t : RouteTemplate) (ixs : SwapInstructionsResponse) : Prop :=
  ∃ inOff outOff data data', t.inAmountOffset = some inOff ∧ t.quotedOutOffset = some outOff ∧
    codec.decode t.swapIxs.swapInstruction.data = some data ∧
    ixs = t.swapIxs.withData (codec.encode data') ∧ data'.length = data.length ∧
    ∀ i, (i < inOff ∨ inOff + 8 ≤ i) → (i < outOff ∨ outOff + 8 ≤ i) → data'[i]? = data[i]?

/-- The template answers the amount, with nothing or a patch of its base, by exact
arithmetic. -/
def TotalFor (codec : TextCodec) (t : RouteTemplate) (newIn : UInt64) : Prop :=
  (∀ value ∈ serveArithmetic codec t newIn, InRange value) ∧
    ∀ newOut, ∃ answer, serveRoute codec t newIn newOut = .ok answer ∧
      ∀ ixs, answer = some ixs → PatchOf codec t ixs

/-- What nobody checks of a record: that its amounts are in order and leave room above the
requested one, and that its offsets are not at the end of the address space. -/
def SoundFor (codec : TextCodec) (t : RouteTemplate) (newIn : UInt64) : Prop :=
  ∀ inOff outOff, t.inAmountOffset = some inOff → t.quotedOutOffset = some outOff →
    (t.templateInAmount ≤ t.templateQuotedOut ∧
      newIn.toNat + (t.templateQuotedOut.toNat - t.templateInAmount.toNat) < 2 ^ 64) ∧
    ∀ data, codec.decode t.swapIxs.swapInstruction.data = some data →
      inOff + 8 < 2 ^ 64 ∧ (inOff + 8 ≤ data.length → outOff + 8 < 2 ^ 64)

section Template

variable {codec : TextCodec} {t : RouteTemplate} {newIn : UInt64}

/-- A loaded template has no variants. -/
theorem Loaded.unwarmed {g : StoreInner} {file : RouteFile} {sig : U128}
    (loaded : Loaded g file sig t) : t.amountVariants[newIn]? = none := by
  rcases loaded with ⟨fresh, holds⟩
  rw [segments_loadRoutesFromDisk, Segments.holds_fillAll] at holds
  rcases holds with old | ⟨-, first⟩
  · exact (fresh old.live).elim
  · exact unwarmed_entries (Segments.mem_of_lookup first) newIn

theorem soundFor_iff_of_offsets {inOff outOff : Nat} (inAt : t.inAmountOffset = some inOff)
    (outAt : t.quotedOutOffset = some outOff) :
    SoundFor codec t newIn ↔
      (t.templateInAmount ≤ t.templateQuotedOut ∧
        newIn.toNat + (t.templateQuotedOut.toNat - t.templateInAmount.toNat) < 2 ^ 64) ∧
      ∀ data, codec.decode t.swapIxs.swapInstruction.data = some data →
        inOff + 8 < 2 ^ 64 ∧ (inOff + 8 ≤ data.length → outOff + 8 < 2 ^ 64) := by
  constructor
  · intro sound
    exact sound inOff outOff inAt outAt
  · intro sound inOff' outOff' inAt' outAt'
    obtain rfl := Option.some.inj (inAt.symm.trans inAt')
    obtain rfl := Option.some.inj (outAt.symm.trans outAt')
    exact sound

theorem soundFor_of_missing (missing : t.inAmountOffset = none ∨ t.quotedOutOffset = none) :
    SoundFor codec t newIn := by
  intro inOff outOff inAt outAt
  rcases missing with absent | absent
  · rw [absent] at inAt
    cases inAt
  · rw [absent] at outAt
    cases outAt

/-- The arithmetic is exact just for sound records. -/
theorem inRange_serveArithmetic_iff (unwarmed : t.amountVariants[newIn]? = none) :
    (∀ value ∈ serveArithmetic codec t newIn, InRange value) ↔ SoundFor codec t newIn := by
  unfold serveArithmetic
  rw [unwarmed]
  cases inAt : t.inAmountOffset with
  | none => exact iff_of_true (fun _ member => by cases member) (soundFor_of_missing (Or.inl inAt))
  | some inOff =>
      cases outAt : t.quotedOutOffset with
      | none =>
          exact iff_of_true (fun _ member => by cases member) (soundFor_of_missing (Or.inr outAt))
      | some outOff =>
          have bound := t.templateQuotedOut.toNat_lt
          simp only [List.forall_mem_cons, InRange, soundFor_iff_of_offsets inAt outAt,
            UInt64.le_iff_toNat_le]
          cases codec.decode t.swapIxs.swapInstruction.data with
          | none =>
              simp only [List.not_mem_nil, false_imp_iff, implies_true, and_true, reduceCtorEq]
              omega
          | some data =>
              simp only [Option.some.injEq, forall_eq']
              split
              · simp only [List.mem_singleton, forall_eq]
                omega
              · simp only [List.forall_mem_cons, List.not_mem_nil, false_imp_iff, implies_true,
                  and_true]
                omega

/-- With bounds that do not wrap, a patch does not panic. -/
theorem patchAmountsB64_ok {text : String} {inOff outOff : Nat}
    (bounds : ∀ data, codec.decode text = some data →
      inOff + 8 < 2 ^ 64 ∧ (inOff + 8 ≤ data.length → outOff + 8 < 2 ^ 64)) (x y : UInt64) :
    ∃ answer, patchAmountsB64 codec text inOff outOff x y = .ok answer := by
  cases decoded : codec.decode text with
  | none => exact ⟨none, by rw [patchAmountsB64, decoded]⟩
  | some data =>
      rcases bounds data decoded with ⟨inBound, outBound⟩
      have inSum : usizeAdd inOff 8 = inOff + 8 := Nat.mod_eq_of_lt inBound
      by_cases guard : usizeAdd inOff 8 > data.length ∨ usizeAdd outOff 8 > data.length
      · refine ⟨none, ?_⟩
        rw [patchAmountsB64, decoded]
        exact if_pos guard
      · rcases not_or.mp guard with ⟨inGuard, outGuard⟩
        rw [inSum] at inGuard
        have outFits := outBound (by omega)
        rw [usizeAdd, Nat.mod_eq_of_lt outFits] at outGuard
        exact ⟨_, patchAmountsB64_eq_ok_some_iff.mpr
          ⟨data, decoded, ⟨⟨inBound, by omega⟩, outFits, by omega⟩, rfl⟩⟩

theorem serveRoute_ok (unwarmed : t.amountVariants[newIn]? = none)
    (sound : SoundFor codec t newIn) (newOut : UInt64) :
    ∃ answer, serveRoute codec t newIn newOut = .ok answer := by
  rw [serveRoute, unwarmed]
  cases inAt : t.inAmountOffset with
  | none => exact ⟨none, rfl⟩
  | some inOff =>
      cases outAt : t.quotedOutOffset with
      | none => exact ⟨none, rfl⟩
      | some outOff =>
          obtain ⟨answer, patch⟩ := patchAmountsB64_ok (sound inOff outOff inAt outAt).2 newIn
            (newIn + (t.templateQuotedOut - t.templateInAmount))
          simp only [patch]
          cases answer with
          | none => exact ⟨none, rfl⟩
          | some newData => exact ⟨some (t.swapIxs.withData newData), rfl⟩

/-- What is served without a variant differs from the base in the two amounts only. -/
theorem patchOf_serveRoute {newOut : UInt64} {ixs : SwapInstructionsResponse}
    (unwarmed : t.amountVariants[newIn]? = none)
    (served : serveRoute codec t newIn newOut = .ok (some ixs)) : PatchOf codec t ixs := by
  rcases serveRoute_eq_ok_some_iff.mp served with
    variant | ⟨-, inOff, outOff, data, inAt, outAt, decoded, fits, rfl⟩
  · rw [unwarmed] at variant
    cases variant
  · rcases fits with ⟨⟨-, inInside⟩, -, outInside⟩
    have first : (overwrite data inOff (le64 newIn)).length = data.length :=
      length_overwrite_le64 inInside
    refine ⟨inOff, outOff, data, _, inAt, outAt, decoded, rfl, ?_, fun i outsideIn outsideOut => ?_⟩
    · rw [patched, length_overwrite_le64 (by omega), first]
    · rw [patched, getElem?_overwrite (by rw [length_le64]; omega)
        (by rw [length_le64]; exact outsideOut), getElem?_overwrite (by rw [length_le64]; omega)
        (by rw [length_le64]; exact outsideIn)]

/-- **Serving is total for sound records only.** A loaded template answers a requested
amount, by exact arithmetic and with a patch of its base, just when its offsets and
amounts are sound for that amount. -/
theorem totalFor_iff {g : StoreInner} {file : RouteFile} {sig : U128}
    (loaded : Loaded g file sig t) : TotalFor codec t newIn ↔ SoundFor codec t newIn := by
  have unwarmed : t.amountVariants[newIn]? = none := loaded.unwarmed
  rw [← inRange_serveArithmetic_iff unwarmed]
  constructor
  · exact fun total => total.1
  · intro inRange
    refine ⟨inRange, fun newOut => ?_⟩
    rcases serveRoute_ok unwarmed ((inRange_serveArithmetic_iff unwarmed).mp inRange) newOut with
      ⟨answer, served⟩
    refine ⟨answer, served, fun ixs same => ?_⟩
    subst same
    exact patchOf_serveRoute unwarmed served

end Template

/-! ## Records with the pair (5, 6605) -/

/-- A record of the bare pair with the given offsets. -/
def bareRecord (inOff outOff : Nat) : RouteRecord where
  sig := sigText 7
  swapIxs := bareService.respond Base64.standard () 5 6605
  templateInAmount := 5
  templateQuotedOut := 6605
  inAmountOffset := some inOff
  quotedOutOffset := some outOff
  seenCount := 1
  hitCount := 0

theorem loaded_bareRecord (inOff outOff : Nat) :
    Loaded .new { schemaVersion := 1, routes := [bareRecord inOff outOff], hopPairs := ∅ } 7
      ((bareRecord inOff outOff).toTemplate 7) := by
  have entry : (bareRecord inOff outOff).entry =
      some (7, (bareRecord inOff outOff).toTemplate 7) := by
    rw [RouteRecord.entry, show (bareRecord inOff outOff).sig = sigText 7 from rfl,
      parseSig_sigText]
    rfl
  have fresh : ¬ StoreInner.new.segments.Live 7 := not_live_initial 7
  refine ⟨fresh, ?_⟩
  rw [segments_loadRoutesFromDisk, RouteFile.entries, List.filterMap_cons_some entry]
  exact Segments.holds_fill_self (Segments.find_eq_none_iff.mpr fresh)

theorem decode_bareRecord (inOff outOff : Nat) :
    Base64.standard.decode ((bareRecord inOff outOff).toTemplate 7).swapIxs.swapInstruction.data =
      some (bareService.data () 5 6605) := Base64.standard.decode_encode _

/-- With the offsets of the pair, the amount 7 is served. -/
theorem totalFor_bareRecord :
    TotalFor Base64.standard ((bareRecord 0 8).toTemplate 7) 7 := by
  refine (totalFor_iff (loaded_bareRecord 0 8)).mpr ?_
  intro inOff outOff inAt outAt
  obtain rfl := Option.some.inj inAt
  obtain rfl := Option.some.inj outAt
  exact ⟨by decide, fun data decoded => ⟨by decide, fun _ => by decide⟩⟩

/-- An offset eight bytes before the end of the address space passes the bound, which wraps
to 0, and the write panics. -/
theorem serveRoute_panics :
    Loaded .new { schemaVersion := 1, routes := [bareRecord (2 ^ 64 - 8) 8], hopPairs := ∅ } 7
        ((bareRecord (2 ^ 64 - 8) 8).toTemplate 7) ∧
      serveRoute Base64.standard ((bareRecord (2 ^ 64 - 8) 8).toTemplate 7) 7 6607 =
        .error (.sliceIndex (2 ^ 64 - 8) 0 16) ∧
      ¬ TotalFor Base64.standard ((bareRecord (2 ^ 64 - 8) 8).toTemplate 7) 7 := by
  have panics : serveRoute Base64.standard ((bareRecord (2 ^ 64 - 8) 8).toTemplate 7) 7 6607 =
      .error (.sliceIndex (2 ^ 64 - 8) 0 16) := by
    have unwarmed : ((bareRecord (2 ^ 64 - 8) 8).toTemplate 7).amountVariants[(7 : UInt64)]? =
        none := (loaded_bareRecord _ _).unwarmed
    have inAt : ((bareRecord (2 ^ 64 - 8) 8).toTemplate 7).inAmountOffset = some (2 ^ 64 - 8) := rfl
    have outAt : ((bareRecord (2 ^ 64 - 8) 8).toTemplate 7).quotedOutOffset = some 8 := rfl
    rw [serveRoute, unwarmed, inAt, outAt]
    simp only [patchAmountsB64, decode_bareRecord]
    rfl
  refine ⟨loaded_bareRecord _ _, panics, ?_⟩
  intro total
  rcases total.2 6607 with ⟨answer, served, -⟩
  rw [panics] at served
  cases served

end ArbBot
