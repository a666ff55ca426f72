import ArbBot.Foundation.Words
import ArbBot.RouteSig
import Mathlib.Data.Nat.Bitwise

/-!
# The halves of the route signature

The two passes differ in their seeds only. The seeds agree in the four low bits and differ in the
next one, and a step keeps that (`Split.step`): the five low bits of one pass determine those of
the other. The sixth bit of the difference turns with the bytes on the way (`turns`).
If the state of the first pass determined it, it would be a potential of the first pass, and
`no_potential` follows one around two ways to the same state.
-/

namespace ArbBot

open Foundation

/-! ## One step -/

/-- The multiplier of a step. -/
def fnvPrime : UInt64 := 0x00000001000001b3

theorem fnvStep_eq (h : UInt64) (byte : UInt8) :
    fnvStep h byte = (h ^^^ byte.toUInt64) * fnvPrime := rfl

/-- The states of two passes whose difference ends in `10000`. -/
def Split (h k : UInt64) : Prop := (h.toNat ^^^ k.toNat) % 32 = 16

/-- The next bit of the difference. -/
def difference (h k : UInt64) : Bool := (h.toNat ^^^ k.toNat).testBit 5

/-- Whether a step turns that bit: only the low bits of the state after the byte went in say. -/
def turns (low : Nat) : Bool := low % 16 * 51 / 16 % 2 == 0

/-- The difference does not see which bytes go in. -/
theorem xor_byte (h k b : Nat) : (h ^^^ b) ^^^ (k ^^^ b) = h ^^^ k := by
  rw [Nat.xor_comm k b, Nat.xor_assoc, ← Nat.xor_assoc b, Nat.xor_self, Nat.zero_xor]

/-- Two such states in their six low bits: the four that agree and the rest. -/
theorem Split.low {h k : Nat} (split : (h ^^^ k) % 32 = 16) :
    ∃ r < 16, ∃ p < 4, ∃ q < 4, h % 64 = r + 16 * p ∧ k % 64 = r + 16 * q ∧ p % 2 ≠ q % 2 := by
  have low : (h ^^^ k) % 2 ^ 4 = 0 := by omega
  have next : (h ^^^ k) / 2 ^ 4 % 2 = 1 := by omega
  have agree : h % 16 = k % 16 := by
    rw [Nat.xor_mod_two_pow, Nat.xor_eq_zero_iff] at low
    exact low
  rw [Nat.xor_div_two_pow, Nat.xor_mod_two_eq_one] at next
  exact ⟨h % 16, by omega, h % 64 / 16, by omega, k % 64 / 16, by omega, by omega, by omega,
    by omega⟩

theorem testBit_five (n : Nat) : n.testBit 5 = (n % 64).testBit 5 := by
  have six : n % 64 = n % 2 ^ 6 := rfl
  rw [six, Nat.testBit_mod_two_pow]
  rfl

/-- The sixth bit of a difference of products, from the low bits. -/
theorem testBit_mul {r p q : Nat} (small : r < 16) (first : p < 4) (second : q < 4)
    (odd : p % 2 ≠ q % 2) :
    ((r + 16 * p) * 51 % 64 ^^^ (r + 16 * q) * 51 % 64) % 32 = 16 ∧
      ((r + 16 * p) * 51 % 64 ^^^ (r + 16 * q) * 51 % 64).testBit 5 =
        (((r + 16 * p) ^^^ (r + 16 * q)).testBit 5 ^^ turns r) := by
  revert odd
  revert q
  revert p
  revert r
  decide

theorem xor_mod_sixtyFour (a b : Nat) : (a ^^^ b) % 64 = a % 64 ^^^ b % 64 :=
  Nat.xor_mod_two_pow (n := 6)

/-- The state after a step, in its low bits. -/
theorem fnvStep_mod (h : UInt64) (byte : UInt8) :
    (fnvStep h byte).toNat % 64 = (h ^^^ byte.toUInt64).toNat % 64 * 51 % 64 := by
  have prime : fnvPrime.toNat % 64 = 51 := by decide
  rw [fnvStep_eq, UInt64.toNat_mul, Nat.mod_mod_of_dvd _ (by decide : 64 ∣ 2 ^ 64), Nat.mul_mod,
    prime]

theorem toNat_xor_step (h k : UInt64) (byte : UInt8) :
    (h ^^^ byte.toUInt64).toNat ^^^ (k ^^^ byte.toUInt64).toNat = h.toNat ^^^ k.toNat := by
  rw [UInt64.toNat_xor, UInt64.toNat_xor, xor_byte]

/-- **One step of both passes.** -/
theorem Split.step {h k : UInt64} (split : Split h k) (byte : UInt8) :
    Split (fnvStep h byte) (fnvStep k byte) ∧
      difference (fnvStep h byte) (fnvStep k byte) =
        (difference h k ^^ turns (h ^^^ byte.toUInt64).toNat) := by
  have before : ((h ^^^ byte.toUInt64).toNat ^^^ (k ^^^ byte.toUInt64).toNat) % 32 = 16 := by
    rw [toNat_xor_step]
    exact split
  rcases Split.low before with ⟨r, small, p, first, q, second, low, low', odd⟩
  have after := testBit_mul small first second odd
  have states : ((fnvStep h byte).toNat ^^^ (fnvStep k byte).toNat) % 64 =
      (r + 16 * p) * 51 % 64 ^^^ (r + 16 * q) * 51 % 64 := by
    rw [xor_mod_sixtyFour, fnvStep_mod, fnvStep_mod, low, low']
  have differs : difference h k = ((r + 16 * p) ^^^ (r + 16 * q)).testBit 5 := by
    rw [difference, ← toNat_xor_step h k byte, testBit_five, xor_mod_sixtyFour, low, low']
  have turned : turns (h ^^^ byte.toUInt64).toNat = turns r := by
    have same : (h ^^^ byte.toUInt64).toNat % 16 = r % 16 := by omega
    rw [turns, same, turns]
  constructor
  · have bound := after.1
    rw [← states] at bound
    rw [Split]
    omega
  · rw [difference, testBit_five, states, after.2, differs, turned]

/-- The two passes over any stream. -/
theorem Split.feed {h k : UInt64} (split : Split h k) (bytes : List UInt8) :
    Split (feed h bytes) (feed k bytes) := by
  induction bytes generalizing h k with
  | nil => exact split
  | cons byte rest ih => exact ih (split.step byte).1

/-! ## Letters -/

/-- The byte of an ASCII character. -/
def letter (c : Fin 128) : UInt8 := UInt8.ofNat c

/-- The state after the character went in. -/
def enter (x : UInt64) (c : Fin 128) : UInt64 := x ^^^ (letter c).toUInt64

def passLetter (x : UInt64) (c : Fin 128) : UInt64 := fnvStep x (letter c)

theorem passLetter_eq (x : UInt64) (c : Fin 128) : passLetter x c = enter x c * fnvPrime := rfl

theorem toNat_letter (c : Fin 128) : (letter c).toUInt64.toNat = c := by
  rw [UInt8.toNat_toUInt64, letter, UInt8.toNat_ofNat']
  exact Nat.mod_eq_of_lt (by omega)

theorem toNat_enter (x : UInt64) (c : Fin 128) : (enter x c).toNat = x.toNat ^^^ c := by
  rw [enter, UInt64.toNat_xor, toNat_letter]

instance finiteUInt64 : Finite UInt64 :=
  Finite.of_injective UInt64.toFin fun _ _ => UInt64.toFin_inj.mp

theorem enter_zero (x : UInt64) : enter x 0 = x := UInt64.xor_zero

/-! ## States with free low bits -/

/-- A state whose low bits are zero. -/
def Aligned (x : UInt64) : Prop := x.toNat % 128 = 0

section Aligned

variable {x y : UInt64} {c : Fin 128}

theorem Aligned.add (first : Aligned x) (second : Aligned y) : Aligned (x + y) := by
  unfold Aligned at *
  rw [UInt64.toNat_add]
  omega

theorem Aligned.mul (aligned : Aligned x) (y : UInt64) : Aligned (x * y) := by
  unfold Aligned at *
  rw [UInt64.toNat_mul, Nat.mod_mod_of_dvd _ (by decide : 128 ∣ 2 ^ 64), Nat.mul_mod, aligned,
    Nat.zero_mul, Nat.zero_mod]

theorem xor_of_aligned {n l : Nat} (aligned : n % 128 = 0) (small : l < 128) :
    n ^^^ l = n + l := by
  have high : (n ^^^ l) / 2 ^ 7 = n / 2 ^ 7 := by
    rw [Nat.xor_div_two_pow, Nat.div_eq_of_lt small, Nat.xor_zero]
  have low : (n ^^^ l) % 2 ^ 7 = l := by
    rw [Nat.xor_mod_two_pow, Nat.mod_eq_of_lt small, show n % 2 ^ 7 = 0 from aligned,
      Nat.zero_xor]
  omega

/-- A character that goes into an aligned state is added to it. -/
theorem Aligned.enter (aligned : Aligned x) : enter x c = x + (letter c).toUInt64 := by
  apply UInt64.toNat_inj.mp
  have bound := x.toNat_lt
  unfold Aligned at aligned
  rw [toNat_enter, xor_of_aligned aligned c.isLt, UInt64.toNat_add, toNat_letter]
  omega

/-- The character takes it back. -/
theorem enter_enter (x : UInt64) (c : Fin 128) : ArbBot.enter (ArbBot.enter x c) c = x := by
  rw [ArbBot.enter, ArbBot.enter, UInt64.xor_assoc, UInt64.xor_self, UInt64.xor_zero]

theorem aligned_enter_low (x : UInt64) :
    Aligned (ArbBot.enter x ⟨x.toNat % 128, Nat.mod_lt _ (by decide)⟩) := by
  rw [Aligned, toNat_enter]
  exact (Nat.xor_mod_two_pow (n := 7)).trans (by simp)

end Aligned

/-! ## No potential -/

/-- Its inverse. -/
def fnvPrimeInverse : UInt64 := 12777556837020374395

theorem mul_inverse_mul (x : UInt64) : x * fnvPrimeInverse * fnvPrime = x := by
  have unit : fnvPrimeInverse * fnvPrime = 1 := by decide
  rw [UInt64.mul_assoc, unit, UInt64.mul_one]

section Potential

variable {s x : UInt64} {F : UInt64 → Bool}

/-- The sixth bit of the difference is the value of the state that the first pass reaches. -/
def Potential (s : UInt64) (F : UInt64 → Bool) : Prop :=
  ∀ x c, Words.Reachable passLetter s x → F (passLetter x c) = (F x ^^ turns (enter x c).toNat)

theorem reachable_back {c : Fin 128} (reached : Words.Reachable passLetter s (passLetter x c)) :
    Words.Reachable passLetter s x :=
  reached.back (fnvStep_injective (letter c))

/-- States that differ in a character lead to the same states, so they have one value. -/
theorem Potential.enter (potential : Potential s F) (reached : Words.Reachable passLetter s x)
    (c : Fin 128) :
    Words.Reachable passLetter s (enter x c) ∧ F (enter x c) = F x := by
  have same : passLetter (ArbBot.enter x c) 0 = passLetter x c := by
    rw [passLetter_eq, enter_zero, passLetter_eq]
  have reached' : Words.Reachable passLetter s (ArbBot.enter x c) := by
    apply reachable_back (c := 0)
    rw [same]
    exact reached.step
  refine ⟨reached', ?_⟩
  have value := potential x c reached
  rw [← same, potential _ 0 reached', enter_zero] at value
  exact Bool.xor_left_inj.mp value

/-- An aligned state that a character takes on, with the low bits cleared again. -/
theorem Potential.turn (potential : Potential s F) (reached : Words.Reachable passLetter s x)
    (aligned : Aligned x) {c d : Fin 128} {a : UInt64} (round : Aligned a)
    (product : (letter c).toUInt64 * fnvPrime = a + (letter d).toUInt64) :
    Words.Reachable passLetter s (x * fnvPrime + a) ∧ Aligned (x * fnvPrime + a) ∧
      F (x * fnvPrime + a) = (F x ^^ turns c) := by
  have aligned' : Aligned (x * fnvPrime + a) := (aligned.mul fnvPrime).add round
  have cleared : ArbBot.enter (passLetter x c) d = x * fnvPrime + a := by
    rw [passLetter_eq, aligned.enter, UInt64.add_mul, product, ← UInt64.add_assoc,
      ← aligned'.enter, enter_enter]
  have shift := potential.enter (reached.step (b := c)) d
  rw [cleared, potential x c reached] at shift
  have low : turns (ArbBot.enter x c).toNat = turns c := by
    have same : (ArbBot.enter x c).toNat % 16 = c % 16 := by
      rw [toNat_enter, xor_of_aligned aligned c.isLt]
      unfold Aligned at aligned
      omega
    rw [turns, same, turns]
  rw [low] at shift
  exact ⟨shift.1, aligned', shift.2⟩

/-- The characters 3 and 6 lead to one state in two ways: 6 at once, and 3 twice with a way back
between. -/
theorem no_potential (potential : Potential s F) : False := by
  obtain ⟨reached, -⟩ := potential.enter (.start : Words.Reachable passLetter s s)
    ⟨s.toNat % 128, Nat.mod_lt _ (by decide)⟩
  have aligned := aligned_enter_low s
  generalize enter s ⟨s.toNat % 128, Nat.mod_lt _ (by decide)⟩ = x at reached aligned
  have three : (letter 3).toUInt64 * fnvPrime = 12884903168 + (letter 25).toUInt64 := by decide
  have six : (letter 6).toUInt64 * fnvPrime =
      (12884903168 + 12884903168) + (letter 50).toUInt64 := by decide
  have zero : (letter 0).toUInt64 * fnvPrime = 0 + (letter 0).toUInt64 := by decide
  have round : Aligned 12884903168 := rfl
  obtain ⟨reached₁, aligned₁, value₁⟩ := potential.turn reached aligned round three
  have back : (x * fnvPrime + 12884903168) * fnvPrimeInverse * fnvPrime =
      x * fnvPrime + 12884903168 := mul_inverse_mul _
  have aligned₂ := aligned₁.mul fnvPrimeInverse
  generalize (x * fnvPrime + 12884903168) * fnvPrimeInverse = x₂ at back aligned₂
  have reached₂ : Words.Reachable passLetter s x₂ := by
    apply reachable_back (c := 0)
    rw [passLetter_eq, enter_zero, back]
    exact reached₁
  have value₂ := (potential.turn reached₂ aligned₂ (rfl : Aligned 0) zero).2.2
  have value₃ := (potential.turn reached₂ aligned₂ round three).2.2
  have value₆ := (potential.turn reached aligned (round.add round) six).2.2
  rw [UInt64.add_zero, back] at value₂
  rw [back, UInt64.add_assoc] at value₃
  rw [value₁] at value₂
  rw [value₆] at value₃
  have bits : turns (0 : Fin 128) = true ∧ turns (3 : Fin 128) = false ∧
      turns (6 : Fin 128) = false := by decide
  rw [bits.2.1, bits.1] at value₂
  rw [bits.2.1, bits.2.2] at value₃
  revert value₂ value₃
  cases F x <;> cases F x₂ <;> decide

end Potential

/-- Two words after which the first passes agree and the second passes do not. -/
theorem exists_words {s t : UInt64} (split : Split s t) :
    ∃ word word' : List (Fin 128), feed s (word.map letter) = feed s (word'.map letter) ∧
      difference (feed s (word.map letter)) (feed t (word.map letter)) ≠
        difference (feed s (word'.map letter)) (feed t (word'.map letter)) := by
  by_contra none
  have run_eq : ∀ word, Words.run passLetter s word = feed s (word.map letter) := by
    intro word
    rw [feed, List.foldl_map]
    rfl
  have grows : ∀ (word : List (Fin 128)) (c : Fin 128),
      difference (feed s ((word ++ [c]).map letter)) (feed t ((word ++ [c]).map letter)) =
        (difference (feed s (word.map letter)) (feed t (word.map letter)) ^^
          turns (enter (Words.run passLetter s word) c).toNat) := by
    intro word c
    rw [run_eq, List.map_append, feed_append, feed_append]
    exact ((split.feed (word.map letter)).step (letter c)).2
  have same : ∀ word word' : List (Fin 128),
      Words.run passLetter s word = Words.run passLetter s word' →
        difference (feed s (word.map letter)) (feed t (word.map letter)) =
          difference (feed s (word'.map letter)) (feed t (word'.map letter)) := by
    intro word word' ends
    rw [run_eq, run_eq] at ends
    by_contra differ
    exact none ⟨word, word', ends, differ⟩
  rcases Words.exists_potential (fun value x c => value ^^ turns (enter x c).toNat) grows same
    with ⟨F, potential⟩
  exact no_potential potential

/-! ## Plans -/

def asciiChar (c : Fin 128) : Char := Char.ofNat c

def asciiText (word : List (Fin 128)) : String := String.ofList (word.map asciiChar)

/-- A plan of one hop through the pool of this name. -/
def namedPlan (word : List (Fin 128)) : Json :=
  .array [.object [("swapInfo", .object [("ammKey", .string (asciiText word))])]]

theorem utf8_asciiChar : ∀ c : Fin 128, String.utf8EncodeChar (asciiChar c) = [letter c] := by
  decide

theorem asBytes_asciiText (word : List (Fin 128)) :
    asBytes (asciiText word) = word.map letter := by
  rw [asBytes, asciiText, String.toByteArray_ofList, List.utf8Encode, List.data_toByteArray,
    List.flatMap_map]
  simp only [utf8_asciiChar]
  exact List.map_eq_flatMap.symm

theorem routeBytes_namedPlan (word : List (Fin 128)) :
    routeBytes (namedPlan word) = (asBytes "ammKey" ++ [61]) ++ (word.map letter ++ [59]) := by
  have items : hopItems (.object [("swapInfo", .object [("ammKey", .string (asciiText word))])]) =
      [("ammKey", asBytes (asciiText word))] := rfl
  simp [routeBytes, namedPlan, Json.asArray, hopBytes, items, itemBytes, asBytes_asciiText]

/-! ## Bits of the signature -/

/-- The first pass is the high half. -/
theorem getLsbD_high (p : Json) {i : Nat} (inside : i < 64) :
    (routeSig p).getLsbD (64 + i) = (fnv1a64 p 0xcbf29ce484222325).toNat.testBit i := by
  have below : 64 + i < 128 := by omega
  have below' : i < 128 := by omega
  have beyond : (fnv1a64 p 0x517cc1b727220a95).toBitVec.getLsbD (64 + i) = false :=
    BitVec.getLsbD_of_ge _ _ (by omega)
  simp only [routeSig, BitVec.getLsbD_or, BitVec.getLsbD_shiftLeft, BitVec.getLsbD_setWidth,
    beyond, below]
  simp [BitVec.getLsbD, below']

/-- The second pass is the low half. -/
theorem getLsbD_low (p : Json) {i : Nat} (inside : i < 64) :
    (routeSig p).getLsbD i = (fnv1a64 p 0x517cc1b727220a95).toNat.testBit i := by
  have below : i < 128 := by omega
  simp only [routeSig, BitVec.getLsbD_or, BitVec.getLsbD_shiftLeft, BitVec.getLsbD_setWidth,
    below, inside]
  simp [BitVec.getLsbD]

/-- Two plans agree on the bits 0 to `k` of the first pass and differ on those of the second. -/
def IndependentBits (k : Nat) : Prop :=
  ∃ p q : Json, (∀ i ≤ k, (routeSig p).getLsbD (64 + i) = (routeSig q).getLsbD (64 + i)) ∧
    ∃ i ≤ k, (routeSig p).getLsbD i ≠ (routeSig q).getLsbD i

/-- The two passes over a plan. -/
theorem split_passes (p : Json) :
    Split (fnv1a64 p 0xcbf29ce484222325) (fnv1a64 p 0x517cc1b727220a95) := by
  have seeds : Split 0xcbf29ce484222325 0x517cc1b727220a95 := by
    unfold Split
    decide
  rw [fnv1a64_eq, fnv1a64_eq]
  exact seeds.feed _

/-- One of the five low bits of the second pass, from that of the first. -/
theorem Split.testBit {h k : UInt64} (split : Split h k) {i : Nat} (low : i < 5) :
    k.toNat.testBit i = (h.toNat.testBit i ^^ decide (i = 4)) := by
  have sixteen : ∀ i < 5, Nat.testBit 16 i = decide (i = 4) := by decide
  have bit : ((h.toNat ^^^ k.toNat) % 2 ^ 5).testBit i = decide (i = 4) := by
    rw [show (h.toNat ^^^ k.toNat) % 2 ^ 5 = 16 from split, sixteen i low]
  rw [Nat.testBit_mod_two_pow, decide_eq_true low, Bool.true_and, Nat.testBit_xor] at bit
  rw [← bit, ← Bool.xor_assoc, Bool.xor_self, Bool.false_xor]

theorem not_independentBits {k : Nat} (low : k < 5) : ¬ IndependentBits k := by
  intro independent
  rcases independent with ⟨p, q, agree, i, inside, differ⟩
  apply differ
  have same := agree i inside
  rw [getLsbD_high p (by omega), getLsbD_high q (by omega)] at same
  rw [getLsbD_low p (by omega), getLsbD_low q (by omega),
    (split_passes p).testBit (by omega), (split_passes q).testBit (by omega), same]

/-- The first passes agree altogether, and the second passes differ in the sixth bit. -/
theorem exists_plans :
    ∃ p q : Json, fnv1a64 p 0xcbf29ce484222325 = fnv1a64 q 0xcbf29ce484222325 ∧
      (fnv1a64 p 0x517cc1b727220a95).toNat.testBit 5 ≠
        (fnv1a64 q 0x517cc1b727220a95).toNat.testBit 5 := by
  have pass : ∀ (word : List (Fin 128)) (seed : UInt64), fnv1a64 (namedPlan word) seed =
      fnvStep (feed (feed seed (asBytes "ammKey" ++ [61])) (word.map letter)) 59 := by
    intro word seed
    rw [fnv1a64_eq, routeBytes_namedPlan, feed_append, feed_append]
    rfl
  have seeds : Split 0xcbf29ce484222325 0x517cc1b727220a95 := by
    unfold Split
    decide
  have started := seeds.feed (asBytes "ammKey" ++ [61])
  rcases exists_words started with ⟨word, word', same, differ⟩
  have last := ((started.feed (word.map letter)).step 59).2
  have last' := ((started.feed (word'.map letter)).step 59).2
  rw [← pass, ← pass] at last last'
  have high : fnv1a64 (namedPlan word) 0xcbf29ce484222325 =
      fnv1a64 (namedPlan word') 0xcbf29ce484222325 := by
    rw [pass, pass, same]
  refine ⟨namedPlan word, namedPlan word', high, ?_⟩
  intro low
  apply differ
  rw [difference, Nat.testBit_xor, high, low, ← Nat.testBit_xor, ← difference, last', same]
    at last
  rw [same]
  exact (Bool.xor_left_inj.mp last).symm

/-- **The halves.** No bits of the second pass up to the fifth are independent of the same bits
of the first one; from the sixth bit on they are. -/
theorem independentBits_iff (k : Fin 64) : IndependentBits k ↔ 5 ≤ k.val := by
  constructor
  · intro independent
    by_contra low
    exact not_independentBits (by omega) independent
  · intro high
    rcases exists_plans with ⟨p, q, same, differ⟩
    refine ⟨p, q, ?_, 5, high, ?_⟩
    · intro i inside
      rw [getLsbD_high p (by omega), getLsbD_high q (by omega), same]
    · rw [getLsbD_low p (by omega), getLsbD_low q (by omega)]
      exact differ

/-- The lowest bits of the two halves are equal on every plan. -/
theorem lowest_bits_dependent :
    (∀ p, (routeSig p).getLsbD 0 = (routeSig p).getLsbD 64) ∧ ¬ IndependentBits 0 := by
  refine ⟨fun p => ?_, not_independentBits (by decide)⟩
  rw [getLsbD_low p (by decide), (split_passes p).testBit (by decide)]
  exact (Bool.xor_false _).trans (getLsbD_high p (i := 0) (by decide)).symm

end ArbBot
