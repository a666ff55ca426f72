import ArbBot.Foundation.ByteWindow

/-!
# Rust primitives

The parts of the language whose corner cases the bot's code depends on: panics
(the release profile aborts the process on them), wrapping `usize` arithmetic, slice
writes and little-endian integers.
-/

namespace ArbBot

open Foundation

/-- Why a call panics. -/
inductive Panic where
  | sliceIndex (start stop length : Nat)
  | expect (message : String)
  deriving DecidableEq, Repr

/-- `usize` addition on a 64-bit target; the release profile wraps. -/
def usizeAdd (a b : Nat) : Nat := (a + b) % 2 ^ 64

/-- `u64::to_le_bytes`. -/
def le64 (x : UInt64) : List UInt8 := leBytes 8 x.toNat

@[simp] theorem length_le64 (x : UInt64) : (le64 x).length = 8 := length_leBytes 8 _

theorem le64_inj {x y : UInt64} (same : le64 x = le64 y) : x = y := by
  have bound : ∀ z : UInt64, z.toNat < 256 ^ 8 := fun z => z.toNat_lt
  exact UInt64.toNat_inj.mp (leBytes_inj (bound x) (bound y) same)

/-- `u64::from_le_bytes`. -/
def fromLe64 (bytes : List UInt8) : UInt64 := UInt64.ofNat (ofLeBytes bytes)

@[simp] theorem fromLe64_le64 (x : UInt64) : fromLe64 (le64 x) = x := by
  have fits : x.toNat < 256 ^ 8 := x.toNat_lt
  rw [fromLe64, le64, ofLeBytes_leBytes fits, UInt64.ofNat_toNat]

/-- `data[start..start + bytes.len()].copy_from_slice(bytes)`. -/
def copyFromSlice (data : List UInt8) (start : Nat) (bytes : List UInt8) :
    Except Panic (List UInt8) :=
  let stop := usizeAdd start bytes.length
  if start ≤ stop ∧ stop ≤ data.length then .ok (overwrite data start bytes)
  else .error (.sliceIndex start stop data.length)

/-- A slice write that does not panic is an overwrite inside the slice. -/
theorem copyFromSlice_eq_ok_iff {data bytes out : List UInt8} {start : Nat}
    (short : bytes.length < 2 ^ 64) :
    copyFromSlice data start bytes = .ok out ↔
      (start + bytes.length < 2 ^ 64 ∧ start + bytes.length ≤ data.length) ∧
        overwrite data start bytes = out := by
  have bounds : (start ≤ usizeAdd start bytes.length ∧
      usizeAdd start bytes.length ≤ data.length) ↔
      start + bytes.length < 2 ^ 64 ∧ start + bytes.length ≤ data.length := by
    unfold usizeAdd
    constructor
    · intro given
      rcases given with ⟨ordered, inside⟩
      have unwrapped : start + bytes.length < 2 ^ 64 := by omega
      rw [Nat.mod_eq_of_lt unwrapped] at inside
      exact ⟨unwrapped, inside⟩
    · intro given
      rcases given with ⟨unwrapped, inside⟩
      rw [Nat.mod_eq_of_lt unwrapped]
      exact ⟨by omega, inside⟩
  simp only [copyFromSlice, bounds]
  split
  · rename_i inside
    simp only [Except.ok.injEq, and_iff_right inside]
  · rename_i outside
    simp only [reduceCtorEq, false_iff, not_and]
    exact fun inside => (outside inside).elim

end ArbBot
