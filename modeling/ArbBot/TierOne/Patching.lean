import ArbBot.TierOne.Offsets

/-!
# Patching as a lens

At offsets where the pair of amounts was found, `patch_amounts_b64` is the write of a
lens on base64 texts: it keeps everything else, writing back what was there changes
nothing, the last of two writes stays, and the offset search run again on its result
finds the same place or refuses.

The two slice writes are one write of sixteen bytes (`patched_adjacent`), so the laws
are those of `overwrite`.
-/

namespace ArbBot

open Foundation

/-- The bytes of the two amounts. -/
def amountBytes (inAmount quotedOut : UInt64) : List UInt8 :=
  le64 inAmount ++ le64 quotedOut

@[simp] theorem length_amountBytes (x y : UInt64) : (amountBytes x y).length = 16 := by
  rw [amountBytes, List.length_append, length_le64, length_le64]

section Bytes

variable {data : List UInt8} {p : Nat} {x y : UInt64}

theorem pairAt_iff_window :
    pairAt data x y p = true ↔ window data p 16 = amountBytes x y := by
  rw [pairAt_eq_true_iff, amountAt, beq_iff_eq, amountBytes, window_add data p 8 8]
  constructor
  · intro reads
    rw [reads.1, reads.2]
  · intro whole
    have length := congrArg List.length whole
    simp only [List.length_append, length_le64] at length
    exact List.append_inj whole (by
      rw [length_le64]
      simp only [window, List.length_take, List.length_drop] at length ⊢
      omega)

theorem amounts_inside (inside : p + 16 ≤ data.length) (x y : UInt64) :
    p + (amountBytes x y).length ≤ data.length := by
  rw [length_amountBytes]
  exact inside

/-- The two slice writes are one. -/
theorem patched_adjacent (inside : p + 16 ≤ data.length) :
    patched data p (p + 8) x y = overwrite data p (amountBytes x y) := by
  have whole : p + (le64 x ++ le64 y).length ≤ data.length := amounts_inside inside x y
  have joined := overwrite_append whole
  rwa [length_le64] at joined

theorem length_overwrite_amounts (inside : p + 16 ≤ data.length) :
    (overwrite data p (amountBytes x y)).length = data.length :=
  length_overwrite (amounts_inside inside x y)

/-- What a write puts there, the pair search reads. -/
theorem pairAt_overwrite (inside : p + 16 ≤ data.length) :
    pairAt (overwrite data p (amountBytes x y)) x y p = true := by
  have reads : window (overwrite data p (amountBytes x y)) p (amountBytes x y).length =
      amountBytes x y := window_overwrite_self (amounts_inside inside x y)
  rw [length_amountBytes] at reads
  exact pairAt_iff_window.mpr reads

end Bytes

section Lens

variable {codec : TextCodec} {text : String} {data : List UInt8} {p : Nat}

/-- A patch at adjacent offsets inside the data. -/
theorem patchAmountsB64_adjacent (decoded : codec.decode text = some data)
    (short : data.length < 2 ^ 64) (inside : p + 16 ≤ data.length) (x y : UInt64) :
    patchAmountsB64 codec text p (p + 8) x y =
      .ok (some (codec.encode (overwrite data p (amountBytes x y)))) :=
  patchAmountsB64_eq_ok_some_iff.mpr ⟨data, decoded, ⟨⟨by omega, by omega⟩, by omega, by omega⟩,
    by rw [patched_adjacent inside]⟩

/-- Writing back the amounts that stand there gives the text again. -/
theorem patchAmountsB64_same {a b : UInt64} (decoded : codec.decode text = some data)
    (short : data.length < 2 ^ 64) (pair : pairAt data a b p = true) :
    patchAmountsB64 codec text p (p + 8) a b = .ok (some text) := by
  have inside := inside_of_pairAt pair
  have unchanged : overwrite data p (amountBytes a b) = data := by
    rw [← pairAt_iff_window.mp pair]
    exact overwrite_window inside
  rw [patchAmountsB64_adjacent decoded short inside, unchanged, codec.encode_of_decode decoded]

/-- The last of two patches stays. -/
theorem patchAmountsB64_twice {x y : UInt64} (decoded : codec.decode text = some data)
    (short : data.length < 2 ^ 64) (inside : p + 16 ≤ data.length) (x' y' : UInt64) :
    patchAmountsB64 codec (codec.encode (overwrite data p (amountBytes x y))) p (p + 8) x' y' =
      patchAmountsB64 codec text p (p + 8) x' y' := by
  have length : (overwrite data p (amountBytes x y)).length = data.length :=
    length_overwrite_amounts inside
  rw [patchAmountsB64_adjacent (codec.decode_encode _) (by omega) (by omega),
    patchAmountsB64_adjacent decoded short inside, overwrite_overwrite
      (amounts_inside inside x y) (by rw [length_amountBytes, length_amountBytes])]

/-- **The lens.** Where the pair stands (found by the search or not), a patch writes the
sixteen bytes there and nothing else, a patch with the pair itself is the identity, a second
patch overrides the first, and the search on the patched data stays at the place or
refuses. A `Vec` is shorter than the address space. -/
theorem patchAmountsB64_lens {a b : UInt64} (decoded : codec.decode text = some data)
    (short : data.length < 2 ^ 64) (pair : pairAt data a b p = true) (x y : UInt64) :
    patchAmountsB64 codec text p (p + 8) a b = .ok (some text) ∧
      ∃ text₁ data₁, patchAmountsB64 codec text p (p + 8) x y = .ok (some text₁) ∧
        codec.decode text₁ = some data₁ ∧ data₁.length = data.length ∧
        (∀ i, i < p ∨ p + 16 ≤ i → data₁[i]? = data[i]?) ∧
        window data₁ p 8 = le64 x ∧ window data₁ (p + 8) 8 = le64 y ∧
        (∀ x' y', patchAmountsB64 codec text₁ p (p + 8) x' y' =
          patchAmountsB64 codec text p (p + 8) x' y') ∧
        (discoverOffsets data₁ x y = none ∨ discoverOffsets data₁ x y = some (p, p + 8)) := by
  have inside := inside_of_pairAt pair
  have length : (overwrite data p (amountBytes x y)).length = data.length :=
    length_overwrite_amounts inside
  have written : pairAt (overwrite data p (amountBytes x y)) x y p = true :=
    pairAt_overwrite inside
  rcases pairAt_eq_true_iff.mp written with ⟨amount, quoted⟩
  rw [amountAt, beq_iff_eq] at amount
  refine ⟨patchAmountsB64_same decoded short pair, codec.encode _, _,
    patchAmountsB64_adjacent decoded short inside x y, codec.decode_encode _, length,
    fun i outside => ?_, amount, quoted, patchAmountsB64_twice decoded short inside,
    discoverOffsets_of_pair (by omega) written⟩
  exact getElem?_overwrite (amounts_inside inside x y)
    (by rw [length_amountBytes]; exact outside)

/-- The bare pair (5, 6605) and a patch for the amount 7. -/
theorem patchAmountsB64_lens_bare :
    discoverOffsets (amountBytes 5 6605) 5 6605 = some (0, 8) ∧
      ∃ text₁, patchAmountsB64 Base64.standard (Base64.standard.encode (amountBytes 5 6605))
          0 8 7 6607 = .ok (some text₁) ∧
        patchAmountsB64 Base64.standard text₁ 0 8 5 6605 =
          .ok (some (Base64.standard.encode (amountBytes 5 6605))) := by
  have laws := patchAmountsB64_lens (p := 0)
    (Base64.standard.decode_encode (amountBytes 5 6605)) (by decide) (a := 5) (b := 6605)
    (by decide) 7 6607
  rcases laws with ⟨same, text₁, data₁, patch, -, -, -, -, -, twice, -⟩
  exact ⟨by decide, text₁, patch, (twice 5 6605).trans same⟩

end Lens

end ArbBot
