import ArbBot.Foundation.Segments

/-!
# What a segmented cache keeps

`Disjoint` says that a key has one entry. Under it a cache is the map `find`, and the
rules `find_update`, `find_of_push`, `find_of_fetch` and `find_fillAll` say how each
operation changes that map. A lookup may also look at `hot` first and come back later
for the entry of `cold`: `promote` is the second half, and `promote_eq_fetch` makes it
a whole lookup of its own.

`Recent n` is the counting invariant of retention: an entry is in `hot`, or it is in
`cold` and `hot` has grown by at most `n` entries since. A `push` of another key raises
`n` by one (`Recent.push`), and nothing else changes it, so an entry outlives as many
pushes as a segment holds.
-/

namespace Foundation

namespace Segments

variable {κ ν : Type*} [BEq κ] [Hashable κ] {m : Segments κ ν} {cap n : Nat}
  {k k' : κ} {v v' : ν} {f : ν → ν}

/-- No key is in both segments. -/
def Disjoint (m : Segments κ ν) : Prop :=
  ∀ k, k ∈ m.hot → k ∉ m.cold

/-- The second half of a lookup that did not find the key in `hot`. -/
def promote (cap : Nat) (m : Segments κ ν) (k : κ) (f : ν → ν) : Option ν × Segments κ ν :=
  match m.cold[k]? with
  | some v => (some (f v), push cap ⟨m.hot, m.cold.erase k⟩ k (f v))
  | none => (m.hot[k]?, m)

/-- The key is in `hot`, or in `cold` below at most `n` newer entries. -/
def Recent (n : Nat) (m : Segments κ ν) (k : κ) : Prop :=
  k ∈ m.hot ∨ k ∈ m.cold ∧ m.hot.size ≤ n

theorem Recent.live (recent : m.Recent n k) : m.Live k := by
  rcases recent with inHot | ⟨inCold, -⟩
  · exact Or.inl inHot
  · exact Or.inr inCold

theorem Recent.mono {n' : Nat} (recent : m.Recent n k) (later : n ≤ n') : m.Recent n' k := by
  rcases recent with inHot | ⟨inCold, size⟩
  · exact Or.inl inHot
  · exact Or.inr ⟨inCold, size.trans later⟩

variable [LawfulBEq κ]

/-! ## The cache as a map -/

theorem find_eq_some_iff (disjoint : m.Disjoint) : m.find k = some v ↔ m.Holds k v := by
  refine ⟨holds_of_find, fun holds => ?_⟩
  unfold find
  rcases holds with inHot | inCold
  · rw [inHot]
  · cases inHot : m.hot[k]? with
    | none => exact inCold
    | some v' =>
        have apart := disjoint k (mem_of_getElem? inHot)
        exact (apart (mem_of_getElem? inCold)).elim

theorem getElem?_hot_push : (m.push cap k v).hot[k]? = some v := by
  unfold push
  split <;> exact Std.HashMap.getElem?_insert_self

theorem find_push_self : (m.push cap k v).find k = some v := by
  rw [find, getElem?_hot_push]

/-- A push keeps what it finds under another key, or drops it. -/
theorem find_of_push (other : k' ≠ k) (found : (m.push cap k v).find k' = some v') :
    m.find k' = some v' := by
  have apart : (k == k') = false := beq_eq_false_iff_ne.mpr (Ne.symm other)
  unfold find at found ⊢
  rcases Nat.lt_or_ge m.hot.size cap with room | full
  · rw [push_of_room room, Std.HashMap.getElem?_insert, apart] at found
    exact found
  · rw [push_of_full full, Std.HashMap.getElem?_insert, apart] at found
    have inHot : m.hot[k']? = some v' := by simpa using found
    rw [inHot]

/-- A push keeps the entries of `hot`. -/
theorem find_push_of_hot (other : k' ≠ k) (inHot : m.hot[k']? = some v') :
    (m.push cap k v).find k' = some v' := by
  have apart : (k == k') = false := beq_eq_false_iff_ne.mpr (Ne.symm other)
  unfold find
  rcases Nat.lt_or_ge m.hot.size cap with room | full
  · rw [push_of_room room, Std.HashMap.getElem?_insert, apart]
    simp [inHot]
  · rw [push_of_full full, Std.HashMap.getElem?_insert, apart]
    simp [inHot]

theorem find_update :
    (m.update k f).find k' = if k == k' then (m.find k).map f else m.find k' := by
  unfold find update
  cases inHot : m.hot[k]? with
  | some v =>
      dsimp only
      rw [Std.HashMap.getElem?_insert]
      by_cases same : k = k'
      · simp [same]
      · simp [same]
  | none =>
      cases inCold : m.cold[k]? with
      | none =>
          by_cases same : k = k'
          · subst same
            simp [inHot, inCold]
          · simp [same]
      | some v =>
          dsimp only
          rw [Std.HashMap.getElem?_insert]
          by_cases same : k = k'
          · subst same
            simp [inHot]
          · simp [same]

theorem update_of_cold (notHot : k ∉ m.hot) (inCold : m.cold[k]? = some v) :
    m.update k f = ⟨m.hot, m.cold.insert k (f v)⟩ := by
  rw [update, Std.HashMap.getElem?_eq_none notHot, inCold]

/-- What a lookup leaves under a key is what it found there, changed or not. -/
theorem find_of_fetch (found : (m.fetch cap k f).2.find k' = some v') :
    m.find k' = some v' ∨ k' = k ∧ ∃ v, m.find k = some v ∧ v' = f v := by
  unfold fetch at found
  cases inHot : m.hot[k]? with
  | some v =>
      rw [inHot] at found
      exact Or.inl found
  | none =>
      rw [inHot] at found
      cases inCold : m.cold[k]? with
      | none =>
          rw [inCold] at found
          exact Or.inl found
      | some v =>
          rw [inCold] at found
          dsimp only at found
          by_cases same : k' = k
          · subst same
            rw [find_push_self] at found
            exact Or.inr ⟨rfl, v, by rw [find, inHot]; exact inCold, (Option.some.inj found).symm⟩
          · have apart : (k == k') = false := beq_eq_false_iff_ne.mpr (Ne.symm same)
            have before := find_of_push same found
            unfold find at before ⊢
            rw [Std.HashMap.getElem?_erase, apart] at before
            exact Or.inl before

/-- A lookup answers what it leaves under its key. -/
theorem find_fetch_self : (m.fetch cap k f).2.find k = (m.fetch cap k f).1 := by
  unfold fetch
  cases inHot : m.hot[k]? with
  | some v =>
      show m.find k = some v
      rw [find, inHot]
  | none =>
      cases inCold : m.cold[k]? with
      | none =>
          show m.find k = none
          rw [find, inHot]
          exact inCold
      | some v => exact find_push_self

/-- A lookup changes nothing when its key is not in `cold`. -/
theorem fetch_of_notMem_cold (notCold : k ∉ m.cold) : m.fetch cap k f = (m.hot[k]?, m) := by
  unfold fetch
  cases inHot : m.hot[k]? with
  | some v => rfl
  | none => rw [Std.HashMap.getElem?_eq_none notCold]

/-- A lookup moves an entry of `cold` to `hot`. -/
theorem getElem?_hot_fetch_of_cold (notHot : k ∉ m.hot) (inCold : m.cold[k]? = some v) :
    (m.fetch cap k f).2.hot[k]? = some (f v) := by
  unfold fetch
  rw [Std.HashMap.getElem?_eq_none notHot, inCold]
  exact getElem?_hot_push

/-- No lookup changes or drops an entry of `hot`. -/
theorem find_fetch_of_hot (inHot : m.hot[k]? = some v) :
    (m.fetch cap k' f).2.find k = some v := by
  have before : m.find k = some v := by rw [find, inHot]
  unfold fetch
  cases other : m.hot[k']? with
  | some v' => exact before
  | none =>
      cases inCold : m.cold[k']? with
      | none => exact before
      | some v' =>
          refine find_push_of_hot ?_ inHot
          rintro rfl
          rw [inHot] at other
          cases other

omit [LawfulBEq κ] in
/-- A lookup finds what is there, changed or not. -/
theorem fetch_of_find (found : m.find k = some v) :
    (m.fetch cap k f).1 = some v ∨ (m.fetch cap k f).1 = some (f v) := by
  unfold find at found
  unfold fetch
  cases inHot : m.hot[k]? with
  | some v' =>
      rw [inHot] at found
      exact Or.inl found
  | none =>
      rw [inHot] at found
      have inCold : m.cold[k]? = some v := found
      rw [inCold]
      exact Or.inr rfl

theorem find_fill :
    (m.fill k v).find k' =
      match m.find k' with
      | some v' => some v'
      | none => if k == k' then some v else none := by
  unfold fill
  cases found : m.find k with
  | some v₀ =>
      by_cases same : k = k'
      · subst same
        simp [found]
      · cases m.find k' <;> simp [same]
  | none =>
      by_cases same : k = k'
      · subst same
        rw [found]
        simp [find]
      · unfold find
        rw [Std.HashMap.getElem?_insert]
        cases m.hot[k']? <;> cases m.cold[k']? <;> simp [same]

theorem find_fillAll {entries : List (κ × ν)} :
    (m.fillAll entries).find k =
      match m.find k with
      | some v => some v
      | none => entries.lookup k := by
  induction entries generalizing m with
  | nil =>
      show m.find k = _
      cases m.find k <;> rfl
  | cons entry rest ih =>
      rcases entry with ⟨k₀, v₀⟩
      show ((m.fill k₀ v₀).fillAll rest).find k = _
      rw [ih, find_fill]
      by_cases same : k₀ = k
      · subst same
        rw [lookup_cons_self]
        cases found : m.find k₀ with
        | some v => simp
        | none => simp
      · rw [lookup_cons_of_ne (Ne.symm same)]
        cases m.find k <;> simp [same]

theorem getElem?_hot_fill (inHot : m.hot[k]? = some v) : (m.fill k' v').hot[k]? = some v := by
  unfold fill
  cases found : m.find k' with
  | some v₀ => exact inHot
  | none =>
      have fresh : ¬ m.Live k' := find_eq_none_iff.mp found
      have apart : (k' == k) = false := by
        rw [beq_eq_false_iff_ne]
        rintro rfl
        exact fresh (Or.inl (mem_of_getElem? inHot))
      rw [Std.HashMap.getElem?_insert, apart]
      exact inHot

theorem getElem?_hot_fillAll {entries : List (κ × ν)} (inHot : m.hot[k]? = some v) :
    (m.fillAll entries).hot[k]? = some v := by
  induction entries generalizing m with
  | nil => exact inHot
  | cons entry rest ih => exact ih (getElem?_hot_fill inHot)

/-- Entries whose keys are live are not filled in. -/
theorem fillAll_of_live {entries : List (κ × ν)} (live : ∀ entry ∈ entries, m.Live entry.1) :
    m.fillAll entries = m := by
  induction entries with
  | nil => rfl
  | cons entry rest ih =>
      rcases find_eq_some_of_live (live entry List.mem_cons_self) with ⟨v, found⟩
      have same : m.fill entry.1 entry.2 = m := by rw [fill, found]
      show (m.fill entry.1 entry.2).fillAll rest = m
      rw [same]
      exact ih fun later member => live later (List.mem_cons_of_mem _ member)

/-! ## One entry a key -/

omit [LawfulBEq κ] in
theorem disjoint_new : (⟨∅, ∅⟩ : Segments κ ν).Disjoint := by
  intro k inHot
  simp at inHot

theorem Disjoint.push (disjoint : m.Disjoint) (fresh : ¬ m.Live k) :
    (m.push cap k v).Disjoint := by
  intro k' inHot inCold
  rcases Nat.lt_or_ge m.hot.size cap with room | full
  · rw [push_of_room room] at inHot inCold
    rcases Std.HashMap.mem_insert.mp inHot with same | old
    · rw [eq_of_beq same] at fresh
      exact fresh (Or.inr inCold)
    · exact disjoint k' old inCold
  · rw [push_of_full full] at inHot inCold
    rcases Std.HashMap.mem_insert.mp inHot with same | inEmpty
    · rw [eq_of_beq same] at fresh
      exact fresh (Or.inl inCold)
    · simp at inEmpty

theorem Disjoint.update (disjoint : m.Disjoint) : (m.update k f).Disjoint := by
  unfold Segments.update
  cases inHot : m.hot[k]? with
  | some v =>
      have member : k ∈ m.hot := mem_of_getElem? inHot
      intro k' hot
      exact disjoint k' ((live_insert_of_mem member).mp hot)
  | none =>
      cases inCold : m.cold[k]? with
      | none => exact disjoint
      | some v =>
          have member : k ∈ m.cold := mem_of_getElem? inCold
          intro k' hot cold
          exact disjoint k' hot ((live_insert_of_mem member).mp cold)

theorem Disjoint.erase (disjoint : m.Disjoint) :
    (⟨m.hot, m.cold.erase k⟩ : Segments κ ν).Disjoint :=
  fun k' inHot inCold => disjoint k' inHot (Std.HashMap.mem_of_mem_erase inCold)

theorem Disjoint.fetch (disjoint : m.Disjoint) : (m.fetch cap k f).2.Disjoint := by
  unfold Segments.fetch
  cases inHot : m.hot[k]? with
  | some v => exact disjoint
  | none =>
      cases inCold : m.cold[k]? with
      | none => exact disjoint
      | some v =>
          apply disjoint.erase.push
          intro given
          rcases given with hot | cold
          · exact notMem_of_getElem? inHot hot
          · simp at cold

theorem Disjoint.fill (disjoint : m.Disjoint) : (m.fill k v).Disjoint := by
  unfold Segments.fill
  cases found : m.find k with
  | some v₀ => exact disjoint
  | none =>
      have fresh : ¬ m.Live k := find_eq_none_iff.mp found
      intro k' hot cold
      rcases Std.HashMap.mem_insert.mp hot with same | old
      · rw [eq_of_beq same] at fresh
        exact fresh (Or.inr cold)
      · exact disjoint k' old cold

theorem Disjoint.fillAll {entries : List (κ × ν)} (disjoint : m.Disjoint) :
    (m.fillAll entries).Disjoint := by
  induction entries generalizing m with
  | nil => exact disjoint
  | cons entry rest ih => exact ih disjoint.fill

/-- The second half of a lookup is a whole lookup at its own time. -/
theorem promote_eq_fetch (disjoint : m.Disjoint) : m.promote cap k f = m.fetch cap k f := by
  unfold promote fetch
  cases inHot : m.hot[k]? with
  | some v =>
      have apart := disjoint k (mem_of_getElem? inHot)
      simp [apart]
  | none => cases m.cold[k]? <;> rfl

/-! ## Retention -/

/-- A push takes one of the pushes an entry outlives. -/
theorem Recent.push (recent : m.Recent n k) (room : n < cap) :
    (m.push cap k' v).Recent (n + 1) k := by
  unfold Segments.push
  rcases recent with inHot | ⟨inCold, size⟩
  · split
    · have one := Std.HashMap.size_insert_le (m := (∅ : Std.HashMap κ ν)) (k := k') (v := v)
      rw [Std.HashMap.size_empty] at one
      exact Or.inr ⟨inHot, one.trans (Nat.le_add_left 1 n)⟩
    · exact Or.inl (Std.HashMap.mem_insert.mpr (Or.inr inHot))
  · have notFull : ¬ cap ≤ m.hot.size := by omega
    rw [if_neg notFull]
    have grown := Std.HashMap.size_insert_le (m := m.hot) (k := k') (v := v)
    exact Or.inr ⟨inCold, grown.trans (by omega)⟩

theorem Recent.update (recent : m.Recent n k) : (m.update k' f).Recent n k := by
  unfold Segments.update
  cases inHot : m.hot[k']? with
  | some v =>
      have member : k' ∈ m.hot := mem_of_getElem? inHot
      unfold Recent
      rwa [live_insert_of_mem member, size_insert_of_mem member]
  | none =>
      cases inCold : m.cold[k']? with
      | none => exact recent
      | some v =>
          have member : k' ∈ m.cold := mem_of_getElem? inCold
          unfold Recent
          rwa [live_insert_of_mem member]

theorem mem_hot_push : k ∈ (m.push cap k v).hot := mem_of_getElem? getElem?_hot_push

/-- Taking another key out of `cold` takes no push. -/
theorem Recent.erase (recent : m.Recent n k) (other : k' ≠ k) :
    (⟨m.hot, m.cold.erase k'⟩ : Segments κ ν).Recent n k := by
  rcases recent with inHot | ⟨inCold, size⟩
  · exact Or.inl inHot
  · refine Or.inr ⟨Std.HashMap.mem_erase.mpr ⟨?_, inCold⟩, size⟩
    exact beq_eq_false_iff_ne.mpr other

/-! ## The hot segment comes first -/

/-- Nothing is in `cold` while `hot` is empty. -/
def Fronted (m : Segments κ ν) : Prop :=
  ∀ k, k ∈ m.cold → 0 < m.hot.size

theorem size_pos_of_mem {s : Std.HashMap κ ν} (member : k ∈ s) : 0 < s.size := by
  have nonempty : s.isEmpty = false :=
    Std.HashMap.isEmpty_eq_false_iff_exists_mem.mpr ⟨k, member⟩
  rw [Std.HashMap.isEmpty_eq_size_eq_zero, beq_eq_false_iff_ne] at nonempty
  exact Nat.pos_of_ne_zero nonempty

omit [LawfulBEq κ] in
theorem fronted_new : (⟨∅, ∅⟩ : Segments κ ν).Fronted := by
  intro k inCold
  simp at inCold

theorem fronted_push : (m.push cap k v).Fronted :=
  fun _ _ => size_pos_of_mem mem_hot_push

theorem Fronted.update (fronted : m.Fronted) : (m.update k f).Fronted := by
  unfold Segments.update
  cases inHot : m.hot[k]? with
  | some v =>
      have member : k ∈ m.hot.insert k (f v) := Std.HashMap.mem_insert_self
      exact fun _ _ => size_pos_of_mem member
  | none =>
      cases inCold : m.cold[k]? with
      | none => exact fronted
      | some v => exact fun _ _ => fronted k (mem_of_getElem? inCold)

theorem Fronted.fetch (fronted : m.Fronted) : (m.fetch cap k f).2.Fronted := by
  unfold Segments.fetch
  cases m.hot[k]? with
  | some v => exact fronted
  | none =>
      cases m.cold[k]? with
      | none => exact fronted
      | some v => exact fronted_push

theorem Fronted.fillAll {entries : List (κ × ν)} (fronted : m.Fronted) :
    (m.fillAll entries).Fronted := by
  intro k inCold
  rw [cold_fillAll] at inCold
  have size : (m.fillAll entries).hot.size = m.hot.size + (m.freshKeys entries).card :=
    size_hot_fillAll
  have before := fronted k inCold
  omega

end Segments

end Foundation
