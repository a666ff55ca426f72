import Mathlib.Data.List.Pairwise
import Mathlib.Order.Defs.PartialOrder

/-!
# Registers

A fold whose steps each overwrite a register or keep it leaves the last write in it
(`read_foldl`). When the writes come in order, the last one is the greatest
(`lastWrite_greatest`).
-/

namespace Foundation

variable {α β γ σ : Type*}

/-- The last write of the inputs. -/
def lastWrite (write : α → Option β) (inputs : List α) : Option β :=
  (inputs.filterMap write).getLast?

section LastWrite

variable {write : α → Option β} {inputs : List α} {b : β}

theorem lastWrite_cons (write : α → Option β) (a : α) (inputs : List α) :
    lastWrite write (a :: inputs) = (lastWrite write inputs).or (write a) := by
  unfold lastWrite
  cases written : write a with
  | none => rw [List.filterMap_cons_none written, Option.or_none]
  | some b =>
      rw [List.filterMap_cons_some written, List.getLast?_cons]
      cases (inputs.filterMap write).getLast? with
      | none => rfl
      | some b' => rfl

theorem lastWrite_append (write : α → Option β) (inputs later : List α) :
    lastWrite write (inputs ++ later) = (lastWrite write later).or (lastWrite write inputs) := by
  rw [lastWrite, List.filterMap_append, List.getLast?_append, lastWrite, lastWrite]

theorem lastWrite_singleton (write : α → Option β) (a : α) : lastWrite write [a] = write a := by
  rw [lastWrite_cons]
  rfl

theorem lastWrite_eq_none_iff :
    lastWrite write inputs = none ↔ ∀ a ∈ inputs, write a = none := by
  rw [lastWrite, List.getLast?_eq_none_iff, List.filterMap_eq_nil_iff]

theorem lastWrite_map (write : α → Option β) (f : β → γ) (inputs : List α) :
    lastWrite (fun a => (write a).map f) inputs = (lastWrite write inputs).map f := by
  rw [lastWrite, ← List.map_filterMap, List.getLast?_map, lastWrite]

theorem lastWrite_mem (last : lastWrite write inputs = some b) : b ∈ inputs.filterMap write :=
  List.mem_of_getLast? last

/-- The last write of inputs in order is the greatest. -/
theorem lastWrite_greatest [Preorder γ] {rank : β → γ}
    (ordered : (inputs.filterMap write).Pairwise fun b b' => rank b ≤ rank b')
    (last : lastWrite write inputs = some b) :
    ∀ b' ∈ inputs.filterMap write, rank b' ≤ rank b := by
  intro b' member
  rcases List.getLast?_eq_some_iff.mp last with ⟨before, split⟩
  rw [split, List.pairwise_append] at ordered
  rw [split, List.mem_append, List.mem_singleton] at member
  rcases member with earlier | rfl
  · exact ordered.2.2 b' earlier b (List.mem_singleton_self b)
  · exact le_refl _

/-- A register that each step overwrites or keeps holds the last write. -/
theorem read_foldl (read : σ → β) {step : σ → α → σ}
    (overwrites : ∀ s a, read (step s a) = (write a).getD (read s)) (s : σ) (inputs : List α) :
    read (inputs.foldl step s) = (lastWrite write inputs).getD (read s) := by
  induction inputs generalizing s with
  | nil => rfl
  | cons a inputs ih =>
      rw [List.foldl_cons, ih, lastWrite_cons, overwrites]
      cases lastWrite write inputs with
      | none => rfl
      | some b => rfl

end LastWrite

end Foundation
