import Mathlib.Data.Set.Function

/-!
# Two runs that agree

`Option.Rel` relates two partial results: both are absent, or both are there and related.
The rules carry a relation through a weakening (`rel_imp`), a function of the result
(`rel_map`) and a next step (`rel_bind`). `eqOn_update` extends an agreement of two maps by a
key that is written in both.
-/

namespace Foundation

variable {α α' β β' : Type*} {R : α → α' → Prop} {S : β → β' → Prop} {x : Option α}
  {y : Option α'}

theorem rel_imp {R' : α → α' → Prop} (related : Option.Rel R x y)
    (weaken : ∀ a a', R a a' → R' a a') : Option.Rel R' x y := by
  cases related with
  | none => exact .none
  | some related => exact .some (weaken _ _ related)

theorem rel_map {f : α → β} {f' : α' → β'} (related : Option.Rel R x y)
    (maps : ∀ a a', R a a' → S (f a) (f' a')) : Option.Rel S (x.map f) (y.map f') := by
  cases related with
  | none => exact .none
  | some related => exact .some (maps _ _ related)

theorem rel_bind {f : α → Option β} {f' : α' → Option β'} (related : Option.Rel R x y)
    (step : ∀ a a', R a a' → Option.Rel S (f a) (f' a')) :
    Option.Rel S (x.bind f) (y.bind f') := by
  cases related with
  | none => exact .none
  | some related => exact step _ _ related

/-- What is written in both maps agrees afterwards. -/
theorem eqOn_update [DecidableEq α] {f g : α → β} {s : Set α} (same : Set.EqOn f g s) (a : α)
    (b : β) : Set.EqOn (Function.update f a b) (Function.update g a b) (insert a s) := by
  intro x inside
  by_cases here : x = a
  · rw [here, Function.update_self, Function.update_self]
  · rw [Function.update_of_ne here, Function.update_of_ne here,
      same (Set.mem_of_mem_insert_of_ne inside here)]

end Foundation
