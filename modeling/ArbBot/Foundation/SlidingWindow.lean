import Mathlib.Data.List.Basic
import Mathlib.Data.List.Perm.Subperm
import Mathlib.Data.List.Pairwise
import Mathlib.Data.List.MinMax

/-!
# Counting events in a sliding window

A window of width `w` that ends at `t` holds the events `x ≤ t` with `t < x + w`. A
history of events in order of time is `Sparse` when no window holds more than `limit` of
them; `Sparse.snoc` is the rule to extend one by an event whose own window has room.

`Tracks` relates the events a limiter still keeps to the whole history: pruning them at a
later time and adding an event keeps the relation (`Tracks.prune`, `Tracks.snoc`), so what
is kept decides how many events of the history are in the present window
(`Tracks.length`).
-/

namespace Foundation

variable {T : Type*} [LinearOrder T] [Add T]

/-- The event is in the window that ends at `t`. -/
def InWindow (w t x : T) : Prop := x ≤ t ∧ t < x + w

instance (w t x : T) : Decidable (InWindow w t x) := inferInstanceAs (Decidable (_ ∧ _))

/-- The number of events in the window that ends at `t`. -/
def windowCount (w t : T) (events : List T) : Nat := events.countP (InWindow w t ·)

/-- No window holds more than `limit` events. -/
def Sparse (w : T) (limit : Nat) (events : List T) : Prop :=
  ∀ t, windowCount w t events ≤ limit

section Count

variable {w t x : T} {limit : Nat} {events : List T}

theorem windowCount_append (w t : T) (events later : List T) :
    windowCount w t (events ++ later) = windowCount w t events + windowCount w t later :=
  List.countP_append

theorem windowCount_singleton (w t x : T) :
    windowCount w t [x] = if InWindow w t x then 1 else 0 := by
  rw [windowCount, List.countP_singleton]
  simp only [decide_eq_true_eq]

theorem sparse_nil (w : T) (limit : Nat) : Sparse w limit [] :=
  fun _ => Nat.zero_le _

/-- A window that reaches back from `t` and holds `x` holds no earlier event that the
window of `x` does not. -/
theorem windowCount_le_of_inWindow (past : ∀ y ∈ events, y ≤ x) (inside : InWindow w t x) :
    windowCount w t events ≤ windowCount w x events := by
  apply List.countP_mono_left
  intro y member counted
  rw [decide_eq_true_eq] at counted ⊢
  exact ⟨past y member, lt_of_le_of_lt inside.1 counted.2⟩

/-- An event may follow when the window that ends with it has room. -/
theorem Sparse.snoc (sparse : Sparse w limit events) (past : ∀ y ∈ events, y ≤ x)
    (room : windowCount w x events < limit) : Sparse w limit (events ++ [x]) := by
  intro t
  rw [windowCount_append, windowCount_singleton]
  by_cases inside : InWindow w t x
  · rw [if_pos inside]
    have earlier := windowCount_le_of_inWindow past inside
    omega
  · rw [if_neg inside]
    exact sparse t

end Count

/-! ## Keeping the events of the present window -/

/-- At the time `now`, the kept events are those of the history not yet a width old. -/
structure Tracks (w now : T) (kept history : List T) : Prop where
  past : ∀ x ∈ history, x ≤ now
  kept_eq : kept = history.filter (now < · + w)

section Tracks

variable {w now next : T} {kept history : List T}

theorem tracks_nil (w now : T) : Tracks w now [] [] where
  past x member := by cases member
  kept_eq := rfl

/-- Events that are too old now are too old later. -/
theorem Tracks.prune (tracks : Tracks w now kept history) (later : now ≤ next) :
    Tracks w next (kept.filter (next < · + w)) history where
  past x member := (tracks.past x member).trans later
  kept_eq := by
    rw [tracks.kept_eq, List.filter_filter]
    apply List.filter_congr
    intro x _
    rw [Bool.and_eq_left_iff_imp, decide_eq_true_eq, decide_eq_true_eq]
    exact lt_of_le_of_lt later

theorem Tracks.snoc (tracks : Tracks w now kept history) (positive : now < now + w) :
    Tracks w now (kept ++ [now]) (history ++ [now]) where
  past x member := by
    rcases List.mem_append.mp member with old | new
    · exact tracks.past x old
    · exact le_of_eq (List.mem_singleton.mp new)
  kept_eq := by
    rw [List.filter_append, ← tracks.kept_eq, List.filter_cons_of_pos, List.filter_nil]
    exact decide_eq_true positive

theorem Tracks.length (tracks : Tracks w now kept history) :
    kept.length = windowCount w now history := by
  rw [tracks.kept_eq, ← List.countP_eq_length_filter]
  apply List.countP_congr
  intro x member
  rw [decide_eq_true_eq, decide_eq_true_eq]
  exact ⟨fun young => ⟨tracks.past x member, young⟩, fun inside => inside.2⟩

end Tracks

/-! ## Delayed events -/

/-- The events are less than a width apart. -/
def Close (w x y : T) : Prop := x < y + w ∧ y < x + w

theorem Close.symm {w x y : T} (close : Close w x y) : Close w y x := ⟨close.2, close.1⟩

section Delayed

variable {w : T} {limit : Nat} {events : List T} {pairs : List (T × T)}

theorem close_of_inWindow {t x y : T} (first : InWindow w t x) (second : InWindow w t y) :
    Close w x y :=
  ⟨lt_of_le_of_lt first.1 second.2, lt_of_le_of_lt second.1 first.2⟩

/-- Each pair is an event and the time of what it starts. No more of these fall into a
window than events do, if those that happen close together were started close together. -/
theorem Sparse.delayed (sparse : Sparse w limit events) (positive : ∀ x : T, x < x + w)
    (started : (pairs.map Prod.fst).Subperm events)
    (spaced : pairs.Pairwise fun p q => Close w p.2 q.2 → Close w p.1 q.1) :
    Sparse w limit (pairs.map Prod.snd) := by
  intro t
  have close : ∀ p ∈ pairs, ∀ q ∈ pairs, Close w p.2 q.2 → Close w p.1 q.1 := by
    have symmetric : Std.Symm fun p q : T × T => Close w p.2 q.2 → Close w p.1 q.1 :=
      ⟨fun p q implied closer => (implied closer.symm).symm⟩
    intro p first q second
    exact spaced.forall_of_forall (fun p _ _ => ⟨positive p.1, positive p.1⟩) first second
  cases latest : (pairs.filter (InWindow w t ·.2)).argmax Prod.fst with
  | none =>
      have counted : windowCount w t (pairs.map Prod.snd) = 0 := by
        rw [windowCount, List.countP_map, List.countP_eq_length_filter]
        exact List.length_eq_zero_iff.mpr (List.argmax_eq_none.mp latest)
      rw [counted]
      exact Nat.zero_le _
  | some p =>
      have found := List.mem_filter.mp (List.argmax_mem latest)
      have inside : InWindow w t p.2 := of_decide_eq_true found.2
      calc windowCount w t (pairs.map Prod.snd)
          ≤ windowCount w p.1 (pairs.map Prod.fst) := by
            rw [windowCount, windowCount, List.countP_map, List.countP_map]
            apply List.countP_mono_left
            intro q member counted
            have inside' : InWindow w t q.2 := of_decide_eq_true counted
            refine decide_eq_true ⟨?_, ?_⟩
            · exact List.le_of_mem_argmax (List.mem_filter.mpr ⟨member, counted⟩) latest
            · exact (close p found.1 q member (close_of_inWindow inside inside')).1
        _ ≤ windowCount w p.1 events := started.countP_le _
        _ ≤ limit := sparse p.1

end Delayed

end Foundation
