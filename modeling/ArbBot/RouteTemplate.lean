import ArbBot.Foundation.Base64
import ArbBot.Metis
import ArbBot.RouteSig
import ArbBot.Rust
import Std.Data.HashMap.Lemmas

/-!
# Route templates

A `RouteTemplate` is one captured instruction with the offsets of its two amounts.
`discover_offsets` finds the offsets by a byte search, `serve_route` answers from a
per-amount variant or by patching the captured bytes.

* `searchLoop_eq` replaces a search pass by the list of its hits.
* `serveRoute_eq_ok_some_iff` says when an instruction is served, and which one.
-/

namespace ArbBot

open Foundation

structure RouteTemplate where
  routeSignature : U128
  swapIxs : SwapInstructionsResponse
  templateInAmount : UInt64
  templateQuotedOut : UInt64
  inAmountOffset : Option Nat
  quotedOutOffset : Option Nat
  amountVariants : Std.HashMap UInt64 SwapInstructionsResponse
  seenCount : UInt64
  hitCount : UInt64

namespace RouteTemplate

/-- `t.hit_count += 1`. -/
def hit (t : RouteTemplate) : RouteTemplate :=
  { t with hitCount := t.hitCount + 1 }

/-- A further capture of the route: the amount is cached unless it already is. -/
def seen (t : RouteTemplate) (inAmount : UInt64) (swapIxs : SwapInstructionsResponse) :
    RouteTemplate :=
  { t with
    seenCount := t.seenCount + 1
    amountVariants := t.amountVariants.insertIfNew inAmount swapIxs }

/-- What a patch adds to the requested amount. -/
def delta (t : RouteTemplate) : UInt64 :=
  t.templateQuotedOut - t.templateInAmount

end RouteTemplate

/-! ## Locating the amounts -/

/-- One search pass over the positions, with the `found` and `count` of the source;
`none` is the early return on a second match. -/
def searchLoop (isMatch : Nat → Bool) : List Nat → Option Nat → Nat → Option (Option Nat)
  | [], found, _ => some found
  | p :: rest, found, count =>
      if isMatch p then
        if count + 1 > 1 then none
        else searchLoop isMatch rest (some p) (count + 1)
      else searchLoop isMatch rest found count

/-- Pass 1 matches both amounts next to each other. -/
def pairAt (data : List UInt8) (inAmount quotedOut : UInt64) (p : Nat) : Bool :=
  window data p 8 == le64 inAmount && window data (p + 8) 8 == le64 quotedOut

/-- Pass 2 matches the input amount alone. -/
def amountAt (data : List UInt8) (inAmount : UInt64) (p : Nat) : Bool :=
  window data p 8 == le64 inAmount

/-- The positions of a pass: `0..=(data.len() - 16)`. -/
def positions (data : List UInt8) : List Nat :=
  List.range (data.length - 16 + 1)

def discoverOffsets (data : List UInt8) (inAmount quotedOut : UInt64) : Option (Nat × Nat) :=
  if data.length < 16 then none
  else
    match searchLoop (pairAt data inAmount quotedOut) (positions data) none 0 with
    | none => none
    | some (some p) => some (p, p + 8)
    | some none =>
        match searchLoop (amountAt data inAmount) (positions data) none 0 with
        | some (some p) => some (p, p + 8)
        | _ => none

theorem searchLoop_one (isMatch : Nat → Bool) (found : Nat) (ps : List Nat) :
    searchLoop isMatch ps (some found) 1 =
      if ps.filter isMatch = [] then some (some found) else none := by
  induction ps with
  | nil => rfl
  | cons p rest ih =>
      unfold searchLoop
      by_cases hit : isMatch p = true
      · simp [hit]
      · simp only [hit, if_false, Bool.false_eq_true, not_false_eq_true,
          List.filter_cons_of_neg, ih]

/-- A pass finds the position of the only match. -/
theorem searchLoop_eq (isMatch : Nat → Bool) (ps : List Nat) :
    searchLoop isMatch ps none 0 =
      match ps.filter isMatch with
      | [] => some none
      | [p] => some (some p)
      | _ => none := by
  induction ps with
  | nil => rfl
  | cons p rest ih =>
      unfold searchLoop
      by_cases hit : isMatch p = true
      · simp only [hit, if_true, List.filter_cons_of_pos, Nat.zero_add, gt_iff_lt, Nat.lt_irrefl,
          if_false, searchLoop_one]
        cases rest.filter isMatch with
        | nil => rfl
        | cons q qs => rfl
      · simp only [hit, if_false, Bool.false_eq_true, not_false_eq_true,
          List.filter_cons_of_neg, ih]

theorem searchLoop_eq_found {isMatch : Nat → Bool} {ps : List Nat} {p : Nat} :
    searchLoop isMatch ps none 0 = some (some p) ↔ ps.filter isMatch = [p] := by
  rw [searchLoop_eq]
  rcases ps.filter isMatch with _ | ⟨q, _ | ⟨r, rest⟩⟩ <;> simp

theorem mem_positions {data : List UInt8} (long : 16 ≤ data.length) {p : Nat} :
    p ∈ positions data ↔ p + 16 ≤ data.length := by
  rw [positions, List.mem_range]
  omega

/-- A pass has one match where that match is the only one of its positions. -/
theorem filter_positions_eq_singleton {data : List UInt8} (long : 16 ≤ data.length)
    {isMatch : Nat → Bool} {p : Nat} :
    (positions data).filter isMatch = [p] ↔
      (p + 16 ≤ data.length ∧ isMatch p = true) ∧
        ∀ q, q + 16 ≤ data.length ∧ isMatch q = true → q = p := by
  have member : ∀ q, q ∈ (positions data).filter isMatch ↔
      q + 16 ≤ data.length ∧ isMatch q = true := by
    intro q
    rw [List.mem_filter, mem_positions long]
  have nodup : ((positions data).filter isMatch).Nodup := List.nodup_range.filter _
  constructor
  · intro only
    rw [only] at member
    exact ⟨(member p).mp (List.mem_singleton_self p),
      fun q here => List.mem_singleton.mp ((member q).mpr here)⟩
  · intro given
    rcases given with ⟨here, others⟩
    rcases found : (positions data).filter isMatch with _ | ⟨q, rest⟩
    · have absent := (member p).mpr here
      rw [found] at absent
      cases absent
    · rw [found] at member nodup
      have first : q = p := others q ((member q).mp List.mem_cons_self)
      have rest_nil : rest = [] := by
        apply List.eq_nil_iff_forall_not_mem.mpr
        intro r later
        have same : r = p := others r ((member r).mp (List.mem_cons_of_mem _ later))
        exact (List.nodup_cons.mp nodup).1 (by rw [first, ← same]; exact later)
      rw [first, rest_nil]

/-- Offsets are those of a unique pair match or, with no pair anywhere, of a unique
match of the input amount. -/
theorem discoverOffsets_eq_some_iff {data : List UInt8} {inAmount quotedOut : UInt64}
    {inOff outOff : Nat} :
    discoverOffsets data inAmount quotedOut = some (inOff, outOff) ↔
      16 ≤ data.length ∧ outOff = inOff + 8 ∧
        ((positions data).filter (pairAt data inAmount quotedOut) = [inOff] ∨
          (positions data).filter (pairAt data inAmount quotedOut) = [] ∧
            (positions data).filter (amountAt data inAmount) = [inOff]) := by
  unfold discoverOffsets
  split
  · rename_i short
    simp only [reduceCtorEq, false_iff, not_and]
    intro long
    omega
  · rename_i long
    rw [searchLoop_eq, searchLoop_eq]
    rcases (positions data).filter (pairAt data inAmount quotedOut) with
      _ | ⟨p, _ | ⟨p', rest⟩⟩
    · rcases (positions data).filter (amountAt data inAmount) with _ | ⟨q, _ | ⟨q', rest'⟩⟩
      · simp
      · simp only [Option.some.injEq, Prod.mk.injEq, List.cons.injEq, and_true, true_and,
          reduceCtorEq, false_or]
        constructor
        · intro given
          rcases given with ⟨rfl, rfl⟩
          exact ⟨by omega, rfl, rfl⟩
        · intro given
          rcases given with ⟨_, rfl, rfl⟩
          exact ⟨rfl, rfl⟩
      · simp
    · simp only [Option.some.injEq, Prod.mk.injEq, List.cons.injEq, and_true, reduceCtorEq,
        false_and, or_false]
      constructor
      · intro given
        rcases given with ⟨rfl, rfl⟩
        exact ⟨by omega, rfl, rfl⟩
      · intro given
        rcases given with ⟨_, rfl, rfl⟩
        exact ⟨rfl, rfl⟩
    · simp

theorem mem_of_filter_eq_singleton {α : Type*} {xs : List α} {f : α → Bool} {x : α}
    (only : xs.filter f = [x]) : x ∈ xs ∧ f x = true := by
  have member : x ∈ xs.filter f := by rw [only]; exact List.mem_singleton_self x
  exact List.mem_filter.mp member

/-- Discovered offsets are next to each other, inside the data, and the first one
holds the input amount. -/
theorem discoverOffsets_inside {data : List UInt8} {inAmount quotedOut : UInt64}
    {inOff outOff : Nat}
    (found : discoverOffsets data inAmount quotedOut = some (inOff, outOff)) :
    outOff = inOff + 8 ∧ inOff + 16 ≤ data.length ∧ window data inOff 8 = le64 inAmount := by
  obtain ⟨long, adjacent, pair | ⟨-, alone⟩⟩ := discoverOffsets_eq_some_iff.mp found
  · obtain ⟨member, isMatch⟩ := mem_of_filter_eq_singleton pair
    simp only [pairAt, Bool.and_eq_true, beq_iff_eq] at isMatch
    exact ⟨adjacent, (mem_positions long).mp member, isMatch.1⟩
  · obtain ⟨member, isMatch⟩ := mem_of_filter_eq_singleton alone
    simp only [amountAt, beq_iff_eq] at isMatch
    exact ⟨adjacent, (mem_positions long).mp member, isMatch⟩

/-- When the pair is in the data, the search finds that position or refuses: no
coincidental match elsewhere is ever taken. -/
theorem discoverOffsets_of_pair {data : List UInt8} {inAmount quotedOut : UInt64} {p : Nat}
    (inside : p + 16 ≤ data.length) (pair : pairAt data inAmount quotedOut p = true) :
    discoverOffsets data inAmount quotedOut = none ∨
      discoverOffsets data inAmount quotedOut = some (p, p + 8) := by
  rcases search : discoverOffsets data inAmount quotedOut with _ | ⟨inOff, outOff⟩
  · exact Or.inl rfl
  · right
    have member : p ∈ (positions data).filter (pairAt data inAmount quotedOut) :=
      List.mem_filter.mpr ⟨(mem_positions (by omega)).mpr inside, pair⟩
    obtain ⟨-, rfl, only | ⟨nowhere, -⟩⟩ := discoverOffsets_eq_some_iff.mp search
    · rw [only, List.mem_singleton] at member
      rw [member]
    · rw [nowhere] at member
      cases member

/-! ## Serving -/

/-- Decode, write both amounts, encode. The bounds are checked with `usize` addition,
so an offset near the end of the address space passes them and panics in the write. -/
def patchAmountsB64 (codec : TextCodec) (dataB64 : String) (inOff outOff : Nat)
    (newIn newOut : UInt64) : Except Panic (Option String) :=
  match codec.decode dataB64 with
  | none => .ok none
  | some data =>
      if usizeAdd inOff 8 > data.length ∨ usizeAdd outOff 8 > data.length then .ok none
      else
        match copyFromSlice data inOff (le64 newIn) with
        | .error panic => .error panic
        | .ok data =>
            match copyFromSlice data outOff (le64 newOut) with
            | .error panic => .error panic
            | .ok data => .ok (some (codec.encode data))

/-- `serve_route`; the requested output amount is not used. -/
def serveRoute (codec : TextCodec) (tmpl : RouteTemplate) (newIn _newOut : UInt64) :
    Except Panic (Option SwapInstructionsResponse) :=
  match tmpl.amountVariants[newIn]? with
  | some v => .ok (some v)
  | none =>
      match tmpl.inAmountOffset, tmpl.quotedOutOffset with
      | some inOff, some outOff =>
          let newOut := newIn + (tmpl.templateQuotedOut - tmpl.templateInAmount)
          match patchAmountsB64 codec tmpl.swapIxs.swapInstruction.data inOff outOff newIn newOut
            with
          | .error panic => .error panic
          | .ok none => .ok none
          | .ok (some newData) => .ok (some (tmpl.swapIxs.withData newData))
      | _, _ => .ok none

/-- Both amounts can be written at the offsets. -/
def Fits (data : List UInt8) (inOff outOff : Nat) : Prop :=
  (inOff + 8 < 2 ^ 64 ∧ inOff + 8 ≤ data.length) ∧
    (outOff + 8 < 2 ^ 64 ∧ outOff + 8 ≤ data.length)

/-- The data with both amounts written. -/
def patched (data : List UInt8) (inOff outOff : Nat) (newIn newOut : UInt64) : List UInt8 :=
  overwrite (overwrite data inOff (le64 newIn)) outOff (le64 newOut)

theorem length_overwrite_le64 {data : List UInt8} {off : Nat} {x : UInt64}
    (inside : off + 8 ≤ data.length) : (overwrite data off (le64 x)).length = data.length :=
  length_overwrite (by rw [length_le64]; exact inside)

theorem window_patched_out {data : List UInt8} {inOff outOff : Nat} {newIn newOut : UInt64}
    (fits : Fits data inOff outOff) :
    window (patched data inOff outOff newIn newOut) outOff 8 = le64 newOut := by
  obtain ⟨⟨-, inInside⟩, -, outInside⟩ := fits
  have write : window (patched data inOff outOff newIn newOut) outOff (le64 newOut).length =
      le64 newOut :=
    window_overwrite_self (by rw [length_le64, length_overwrite_le64 inInside]; exact outInside)
  rw [length_le64] at write
  exact write

theorem patchAmountsB64_eq_ok_some_iff {codec : TextCodec} {dataB64 out : String}
    {inOff outOff : Nat} {newIn newOut : UInt64} :
    patchAmountsB64 codec dataB64 inOff outOff newIn newOut = .ok (some out) ↔
      ∃ data, codec.decode dataB64 = some data ∧ Fits data inOff outOff ∧
        codec.encode (patched data inOff outOff newIn newOut) = out := by
  have short : ∀ x : UInt64, (le64 x).length < 2 ^ 64 := by
    intro x
    rw [length_le64]
    omega
  unfold patchAmountsB64
  cases decoded : codec.decode dataB64 with
  | none => simp
  | some data =>
      simp only [Option.some.injEq, exists_eq_left', gt_iff_lt]
      constructor
      · intro served
        split at served
        · cases served
        · split at served
          · cases served
          · rename_i first firstWrite
            split at served
            · cases served
            · rename_i second secondWrite
              rw [copyFromSlice_eq_ok_iff (short _), length_le64] at firstWrite secondWrite
              obtain ⟨inFits, rfl⟩ := firstWrite
              obtain ⟨outFits, rfl⟩ := secondWrite
              rw [length_overwrite_le64 inFits.2] at outFits
              simp only [Except.ok.injEq, Option.some.injEq] at served
              exact ⟨⟨inFits, outFits⟩, served⟩
      · intro given
        rcases given with ⟨⟨inFits, outFits⟩, rfl⟩
        have checked : ¬(data.length < usizeAdd inOff 8 ∨ data.length < usizeAdd outOff 8) := by
          unfold usizeAdd
          omega
        have firstWrite : copyFromSlice data inOff (le64 newIn) =
            .ok (overwrite data inOff (le64 newIn)) := by
          rw [copyFromSlice_eq_ok_iff (short _), length_le64]
          exact ⟨inFits, rfl⟩
        have secondWrite : copyFromSlice (overwrite data inOff (le64 newIn)) outOff
            (le64 newOut) = .ok (patched data inOff outOff newIn newOut) := by
          rw [copyFromSlice_eq_ok_iff (short _), length_le64, length_overwrite_le64 inFits.2]
          exact ⟨outFits, rfl⟩
        simp only [if_neg checked, firstWrite, secondWrite]

/-- An instruction is served from a variant of the requested amount or, when there is
none, as a patch of the base at the stored offsets. -/
theorem serveRoute_eq_ok_some_iff {codec : TextCodec} {tmpl : RouteTemplate}
    {newIn newOut : UInt64} {ixs : SwapInstructionsResponse} :
    serveRoute codec tmpl newIn newOut = .ok (some ixs) ↔
      tmpl.amountVariants[newIn]? = some ixs ∨
        tmpl.amountVariants[newIn]? = none ∧ ∃ inOff outOff data,
          tmpl.inAmountOffset = some inOff ∧ tmpl.quotedOutOffset = some outOff ∧
            codec.decode tmpl.swapIxs.swapInstruction.data = some data ∧
              Fits data inOff outOff ∧
                tmpl.swapIxs.withData (codec.encode
                  (patched data inOff outOff newIn (newIn + tmpl.delta))) = ixs := by
  unfold serveRoute
  cases variant : tmpl.amountVariants[newIn]? with
  | some v => simp
  | none =>
      simp only [reduceCtorEq, true_and, false_or]
      cases inAt : tmpl.inAmountOffset with
      | none => simp
      | some inOff =>
          cases outAt : tmpl.quotedOutOffset with
          | none => simp
          | some outOff =>
              dsimp only
              constructor
              · intro served
                split at served
                · cases served
                · cases served
                · rename_i newData patch
                  obtain ⟨data, decoded, fits, rfl⟩ :=
                    patchAmountsB64_eq_ok_some_iff.mp patch
                  simp only [Except.ok.injEq, Option.some.injEq] at served
                  exact ⟨inOff, outOff, data, rfl, rfl, decoded, fits, served⟩
              · rintro ⟨_, _, data, ⟨⟩, ⟨⟩, decoded, fits, rfl⟩
                rw [← RouteTemplate.delta,
                  patchAmountsB64_eq_ok_some_iff.mpr ⟨data, decoded, fits, rfl⟩]

/-- Counting a hit changes nothing that is served. -/
theorem serveRoute_hit (codec : TextCodec) (tmpl : RouteTemplate) (newIn newOut : UInt64) :
    serveRoute codec tmpl.hit newIn newOut = serveRoute codec tmpl newIn newOut := rfl

end ArbBot
