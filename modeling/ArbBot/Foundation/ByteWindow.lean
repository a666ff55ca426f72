import Mathlib.Data.List.Basic
import Mathlib.Tactic.Ring

/-!
# Windows of a list and fixed-width little-endian numbers

`window data p n` reads `n` entries at offset `p`, and `overwrite data p new`
copies `new` over the entries at `p`. An overwrite inside the list keeps its
length, is read back by the window it fills, and leaves every disjoint window
alone. `leBytes n x` is the `n`-byte little-endian form of `x`.
-/

namespace Foundation

section Window

variable {α : Type*} {data pre post old new new' : List α} {p q n : Nat}

/-- The `n` entries at offset `p` (fewer at the end of the list). -/
def window (data : List α) (p n : Nat) : List α :=
  (data.drop p).take n

/-- Copy `new` over the entries at offset `p`. -/
def overwrite (data : List α) (p : Nat) (new : List α) : List α :=
  data.take p ++ new ++ data.drop (p + new.length)

theorem window_append_mid : window (pre ++ (old ++ post)) pre.length old.length = old := by
  simp [window]

theorem length_overwrite (inside : p + new.length ≤ data.length) :
    (overwrite data p new).length = data.length := by
  simp only [overwrite, List.length_append, List.length_take, List.length_drop]
  omega

theorem overwrite_append_mid (sameLength : new.length = old.length) :
    overwrite (pre ++ (old ++ post)) pre.length new = pre ++ (new ++ post) := by
  have beyond : (pre ++ (old ++ post)).drop (pre.length + new.length) = post := by
    rw [sameLength, ← List.append_assoc, ← List.length_append, List.drop_left]
  rw [overwrite, beyond, List.take_left, List.append_assoc]

theorem window_overwrite_self (inside : p + new.length ≤ data.length) :
    window (overwrite data p new) p new.length = new := by
  have position : (data.take p).length = p := List.length_take_of_le (by omega)
  rw [window, overwrite, List.append_assoc, List.drop_append_of_le_length (by omega),
    List.drop_of_length_le (by omega), List.nil_append, List.take_left]

/-- Writing back what a window reads changes nothing. -/
theorem overwrite_window (inside : p + n ≤ data.length) :
    overwrite data p (window data p n) = data := by
  have length : (window data p n).length = n := by
    rw [window, List.length_take, List.length_drop]
    omega
  rw [overwrite, length, window, List.append_assoc, ← List.drop_drop, List.take_append_drop,
    List.take_append_drop]

/-- A window is read in two parts. -/
theorem window_add (data : List α) (p m n : Nat) :
    window data p (m + n) = window data p m ++ window data (p + m) n := by
  rw [window, window, window, List.take_add, List.drop_drop]

theorem take_overwrite (inside : p + new.length ≤ data.length) :
    (overwrite data p new).take (p + new.length) = data.take p ++ new := by
  have length : (data.take p ++ new).length = p + new.length := by
    rw [List.length_append, List.length_take_of_le (by omega)]
  rw [overwrite, ← length, List.take_left]

theorem drop_overwrite (inside : p + new.length ≤ data.length) (beyond : p + new.length ≤ q) :
    (overwrite data p new).drop q = data.drop q := by
  have length : (data.take p ++ new).length = p + new.length := by
    rw [List.length_append, List.length_take_of_le (by omega)]
  rw [overwrite, List.drop_append, length, List.drop_of_length_le (by omega), List.nil_append,
    List.drop_drop, Nat.add_sub_cancel' beyond]

/-- Two writes next to each other are one write. -/
theorem overwrite_append (inside : p + (new ++ new').length ≤ data.length) :
    overwrite (overwrite data p new) (p + new.length) new' = overwrite data p (new ++ new') := by
  rw [List.length_append] at inside
  rw [overwrite, take_overwrite (by omega), drop_overwrite (by omega) (by omega), overwrite,
    List.length_append, List.append_assoc (data.take p), Nat.add_assoc]

/-- The second of two writes at one place stays. -/
theorem overwrite_overwrite (inside : p + new.length ≤ data.length)
    (sameLength : new'.length = new.length) :
    overwrite (overwrite data p new) p new' = overwrite data p new' := by
  have before : (overwrite data p new).take p = data.take p := by
    rw [overwrite, List.append_assoc, List.take_append_of_le_length
      (by rw [List.length_take]; omega), List.take_take, Nat.min_self]
  rw [overwrite, before, sameLength, drop_overwrite inside (Nat.le_refl _), overwrite,
    sameLength]

/-- An overwrite leaves every entry outside it. -/
theorem getElem?_overwrite (inside : p + new.length ≤ data.length)
    (outside : q < p ∨ p + new.length ≤ q) : (overwrite data p new)[q]? = data[q]? := by
  rcases outside with before | beyond
  · rw [overwrite, List.append_assoc, List.getElem?_append_left
      (by rw [List.length_take]; omega), List.getElem?_take_of_lt before]
  · have same := congrArg (·[0]?) (drop_overwrite inside beyond)
    simpa using same

end Window

section LittleEndian

/-- The `n`-byte little-endian form of a number. -/
def leBytes : Nat → Nat → List UInt8
  | 0, _ => []
  | n + 1, x => UInt8.ofNat (x % 256) :: leBytes n (x / 256)

@[simp] theorem length_leBytes (n x : Nat) : (leBytes n x).length = n := by
  induction n generalizing x with
  | zero => rfl
  | succ n ih => simp [leBytes, ih]

/-- Numbers that fit are told apart by their bytes. -/
theorem leBytes_inj {n x y : Nat} (fitsX : x < 256 ^ n) (fitsY : y < 256 ^ n)
    (same : leBytes n x = leBytes n y) : x = y := by
  induction n generalizing x y with
  | zero => simp only [pow_zero] at fitsX fitsY; omega
  | succ n ih =>
      rw [pow_succ] at fitsX fitsY
      obtain ⟨low, high⟩ := List.cons.inj same
      have lowEq : x % 256 = y % 256 := by
        have bytes := congrArg UInt8.toNat low
        simpa [UInt8.toNat_ofNat'] using bytes
      have highEq : x / 256 = y / 256 := ih (by omega) (by omega) high
      omega

/-- The number of a little-endian form. -/
def ofLeBytes : List UInt8 → Nat
  | [] => 0
  | byte :: bytes => byte.toNat + 256 * ofLeBytes bytes

theorem ofLeBytes_leBytes {n x : Nat} (fits : x < 256 ^ n) : ofLeBytes (leBytes n x) = x := by
  induction n generalizing x with
  | zero =>
      rw [pow_zero] at fits
      exact (Nat.lt_one_iff.mp fits).symm
  | succ n ih =>
      rw [pow_succ] at fits
      have low : (UInt8.ofNat (x % 256)).toNat = x % 256 := by simp [UInt8.toNat_ofNat']
      rw [leBytes, ofLeBytes, low, ih (by omega)]
      omega

end LittleEndian

end Foundation
