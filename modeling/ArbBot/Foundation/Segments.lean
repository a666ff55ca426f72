import Mathlib.Data.Finset.Card
import Mathlib.Tactic.Tauto
import Std.Data.HashMap.Lemmas

/-!
# A cache in two segments

`Segments` is a bounded cache without a clock: entries go into `hot`, and when `hot`
is full it becomes `cold` and the old `cold` is dropped. An entry found in `cold` is
brought back to `hot`.

For each operation there is one rule on what all entries satisfy (`All.push`,
`All.update`, `All.fetch`, `All.fill`) and one on which keys are held.
`Survives` names the keys a `push` does not drop.
-/

namespace Foundation

/-- The two segments. -/
structure Segments (κ ν : Type*) [BEq κ] [Hashable κ] where
  hot : Std.HashMap κ ν
  cold : Std.HashMap κ ν

namespace Segments

section Operations

variable {κ ν : Type*} [BEq κ] [Hashable κ]

/-- The value under a key, looked up in `hot` first. -/
def find (m : Segments κ ν) (k : κ) : Option ν :=
  match m.hot[k]? with
  | some v => some v
  | none => m.cold[k]?

/-- Insert into `hot`, after a rotation when `hot` is full. -/
def push (cap : Nat) (m : Segments κ ν) (k : κ) (v : ν) : Segments κ ν :=
  if cap ≤ m.hot.size then ⟨(∅ : Std.HashMap κ ν).insert k v, m.hot⟩
  else ⟨m.hot.insert k v, m.cold⟩

/-- Change a value where it is found. -/
def update (m : Segments κ ν) (k : κ) (f : ν → ν) : Segments κ ν :=
  match m.hot[k]? with
  | some v => ⟨m.hot.insert k (f v), m.cold⟩
  | none =>
      match m.cold[k]? with
      | some v => ⟨m.hot, m.cold.insert k (f v)⟩
      | none => m

/-- Look a key up; an entry of `cold` is changed by `f` and moved to `hot`. -/
def fetch (cap : Nat) (m : Segments κ ν) (k : κ) (f : ν → ν) : Option ν × Segments κ ν :=
  match m.hot[k]? with
  | some v => (some v, m)
  | none =>
      match m.cold[k]? with
      | some v => (some (f v), push cap ⟨m.hot, m.cold.erase k⟩ k (f v))
      | none => (none, m)

/-- Insert into `hot` a key that neither segment holds, without a rotation. -/
def fill (m : Segments κ ν) (k : κ) (v : ν) : Segments κ ν :=
  match m.find k with
  | some _ => m
  | none => ⟨m.hot.insert k v, m.cold⟩

/-- Fill in a list of entries. -/
def fillAll (m : Segments κ ν) (entries : List (κ × ν)) : Segments κ ν :=
  entries.foldl (fun m entry => m.fill entry.1 entry.2) m

/-- One of the segments binds the key to the value. -/
def Holds (m : Segments κ ν) (k : κ) (v : ν) : Prop :=
  m.hot[k]? = some v ∨ m.cold[k]? = some v

/-- Every entry of both segments satisfies the property. -/
def All (m : Segments κ ν) (P : κ → ν → Prop) : Prop :=
  ∀ k v, m.Holds k v → P k v

/-- The key is held by one of the segments. -/
def Live (m : Segments κ ν) (k : κ) : Prop :=
  k ∈ m.hot ∨ k ∈ m.cold

/-- The key is not dropped by a `push`. -/
def Survives (cap : Nat) (m : Segments κ ν) (k : κ) : Prop :=
  k ∈ m.hot ∨ m.hot.size < cap ∧ k ∈ m.cold

/-- Neither segment is larger than the capacity. -/
def Bounded (cap : Nat) (m : Segments κ ν) : Prop :=
  m.hot.size ≤ cap ∧ m.cold.size ≤ cap

end Operations

variable {κ ν : Type*} [BEq κ] [Hashable κ] {m : Segments κ ν} {cap : Nat}
  {k k' : κ} {v v' : ν} {f : ν → ν} {P : κ → ν → Prop}

/-! ## Reading an operation back -/

theorem holds_of_find (found : m.find k = some v) : m.Holds k v := by
  unfold find at found
  split at found
  · rename_i v' inHot
    exact Or.inl (inHot.trans found)
  · exact Or.inr found

theorem All.mono {Q : κ → ν → Prop} (all : m.All P) (weaker : ∀ k v, P k v → Q k v) :
    m.All Q :=
  fun k v holds => weaker k v (all k v holds)

/-- Two segments whose keys and values come from an old cache or are one new entry. -/
theorem All.of_entry {m' : Segments κ ν} (all : m.All P) (new : P k v)
    (entries : ∀ k' v', m'.Holds k' v' → k' = k ∧ v' = v ∨ m.Holds k' v') : m'.All P := by
  intro k' v' holds
  rcases entries k' v' holds with ⟨rfl, rfl⟩ | old
  · exact new
  · exact all k' v' old

theorem Survives.live (survives : m.Survives cap k) : m.Live k := by
  rcases survives with inHot | ⟨-, inCold⟩
  · exact Or.inl inHot
  · exact Or.inr inCold

/-- What a lookup returns is a held value, changed or not. -/
theorem fetch_fst (found : (m.fetch cap k f).1 = some v) :
    m.Holds k v ∨ ∃ v₀, m.Holds k v₀ ∧ v = f v₀ := by
  unfold fetch at found
  cases inHot : m.hot[k]? with
  | some v' =>
      rw [inHot] at found
      obtain rfl := Option.some.inj found
      exact Or.inl (Or.inl inHot)
  | none =>
      rw [inHot] at found
      cases inCold : m.cold[k]? with
      | none => simp [inCold] at found
      | some v' =>
          simp only [inCold, Option.some.injEq] at found
          exact Or.inr ⟨v', Or.inr inCold, found.symm⟩

theorem push_of_room (room : m.hot.size < cap) :
    m.push cap k v = ⟨m.hot.insert k v, m.cold⟩ := if_neg (Nat.not_le.mpr room)

theorem push_of_full (full : cap ≤ m.hot.size) :
    m.push cap k v = ⟨(∅ : Std.HashMap κ ν).insert k v, m.hot⟩ := if_pos full

@[simp] theorem cold_fill : (m.fill k v).cold = m.cold := by
  unfold fill
  cases m.find k <;> rfl

@[simp] theorem cold_fillAll {entries : List (κ × ν)} :
    (m.fillAll entries).cold = m.cold := by
  induction entries generalizing m with
  | nil => rfl
  | cons entry rest ih =>
      show ((m.fill entry.1 entry.2).fillAll rest).cold = _
      rw [ih, cold_fill]

variable [LawfulBEq κ]

/-! ## Entries and keys -/

theorem mem_of_getElem? {s : Std.HashMap κ ν} (found : s[k]? = some v) : k ∈ s :=
  Std.HashMap.mem_iff_isSome_getElem?.mpr (by rw [found]; rfl)

theorem notMem_of_getElem? {s : Std.HashMap κ ν} (absent : s[k]? = none) : k ∉ s := by
  intro member
  rw [Std.HashMap.mem_iff_isSome_getElem?, absent] at member
  cases member

theorem Holds.live (holds : m.Holds k v) : m.Live k := by
  rcases holds with inHot | inCold
  · exact Or.inl (mem_of_getElem? inHot)
  · exact Or.inr (mem_of_getElem? inCold)

theorem Live.holds (live : m.Live k) : ∃ v, m.Holds k v := by
  rcases live with inHot | inCold
  · obtain ⟨v, found⟩ := Option.isSome_iff_exists.mp (Std.HashMap.mem_iff_isSome_getElem?.mp inHot)
    exact ⟨v, Or.inl found⟩
  · obtain ⟨v, found⟩ :=
      Option.isSome_iff_exists.mp (Std.HashMap.mem_iff_isSome_getElem?.mp inCold)
    exact ⟨v, Or.inr found⟩

theorem find_eq_none_iff : m.find k = none ↔ ¬ m.Live k := by
  unfold find Live
  cases inHot : m.hot[k]? with
  | some v =>
      have member : k ∈ m.hot := mem_of_getElem? inHot
      simp [member]
  | none =>
      have absent : k ∉ m.hot := notMem_of_getElem? inHot
      simp [absent]

theorem find_eq_some_of_live (live : m.Live k) : ∃ v, m.find k = some v := by
  cases found : m.find k with
  | some v => exact ⟨v, rfl⟩
  | none => exact (find_eq_none_iff.mp found live).elim

/-! ## push -/

theorem holds_push_self : (m.push cap k v).Holds k v := by
  unfold push
  split <;> exact Or.inl Std.HashMap.getElem?_insert_self

theorem holds_of_push (holds : (m.push cap k v).Holds k' v') :
    k' = k ∧ v' = v ∨ m.Holds k' v' := by
  unfold push at holds
  split at holds
  · rcases holds with inHot | inCold
    · rw [Std.HashMap.getElem?_insert] at inHot
      split at inHot
      · rename_i same
        exact Or.inl ⟨(eq_of_beq same).symm, (Option.some.inj inHot).symm⟩
      · simp at inHot
    · exact Or.inr (Or.inl inCold)
  · rcases holds with inHot | inCold
    · rw [Std.HashMap.getElem?_insert] at inHot
      split at inHot
      · rename_i same
        exact Or.inl ⟨(eq_of_beq same).symm, (Option.some.inj inHot).symm⟩
      · exact Or.inr (Or.inl inHot)
    · exact Or.inr (Or.inr inCold)

theorem All.push (all : m.All P) (new : P k v) : (m.push cap k v).All P :=
  all.of_entry new fun _ _ => holds_of_push

theorem live_push : (m.push cap k v).Live k' ↔ k' = k ∨ m.Survives cap k' := by
  unfold Segments.push Live Survives
  split
  · rename_i full
    simp only [Std.HashMap.mem_insert, Std.HashMap.not_mem_empty, or_false, beq_iff_eq,
      Nat.not_lt.mpr full, false_and]
    exact or_congr_left eq_comm
  · rename_i room
    simp only [Std.HashMap.mem_insert, beq_iff_eq, Nat.lt_of_not_le room, true_and, or_assoc]
    exact or_congr_left eq_comm

theorem Bounded.push (bounded : m.Bounded cap) (positive : 0 < cap) :
    (m.push cap k v).Bounded cap := by
  obtain ⟨hot, cold⟩ := bounded
  unfold Segments.push
  split
  · refine ⟨?_, hot⟩
    have size := Std.HashMap.size_insert_le (m := (∅ : Std.HashMap κ ν)) (k := k) (v := v)
    rw [Std.HashMap.size_empty] at size
    exact Nat.le_trans size positive
  · rename_i room
    refine ⟨?_, cold⟩
    have size := Std.HashMap.size_insert_le (m := m.hot) (k := k) (v := v)
    show (m.hot.insert k v).size ≤ cap
    omega

/-! ## update -/

theorem All.update (all : m.All P) (new : ∀ v, m.find k = some v → P k (f v)) :
    (m.update k f).All P := by
  unfold Segments.update
  cases inHot : m.hot[k]? with
  | some v =>
      apply all.of_entry (new v (by rw [find, inHot]))
      intro k' v' holds
      rcases holds with holds | holds
      · rw [Std.HashMap.getElem?_insert] at holds
        split at holds
        · rename_i same
          exact Or.inl ⟨(eq_of_beq same).symm, (Option.some.inj holds).symm⟩
        · exact Or.inr (Or.inl holds)
      · exact Or.inr (Or.inr holds)
  | none =>
      cases inCold : m.cold[k]? with
      | none => exact all
      | some v =>
          apply all.of_entry (new v (by rw [find, inHot]; exact inCold))
          intro k' v' holds
          rcases holds with holds | holds
          · exact Or.inr (Or.inl holds)
          · rw [Std.HashMap.getElem?_insert] at holds
            split at holds
            · rename_i same
              exact Or.inl ⟨(eq_of_beq same).symm, (Option.some.inj holds).symm⟩
            · exact Or.inr (Or.inr holds)

/-- The changed value is held, so the rule for `update` loses nothing. -/
theorem holds_update (found : m.find k = some v) : (m.update k f).Holds k (f v) := by
  unfold find at found
  unfold update
  cases inHot : m.hot[k]? with
  | some v' =>
      rw [inHot] at found
      obtain rfl := Option.some.inj found
      exact Or.inl Std.HashMap.getElem?_insert_self
  | none =>
      rw [inHot] at found
      simp only at found
      simp only [found]
      exact Or.inr Std.HashMap.getElem?_insert_self

theorem live_insert_of_mem {s : Std.HashMap κ ν} (member : k ∈ s) :
    k' ∈ s.insert k v ↔ k' ∈ s := by
  rw [Std.HashMap.mem_insert, beq_iff_eq]
  constructor
  · intro given
    rcases given with rfl | old
    · exact member
    · exact old
  · exact Or.inr

theorem live_update : (m.update k f).Live k' ↔ m.Live k' := by
  unfold update
  cases inHot : m.hot[k]? with
  | some v =>
      have member : k ∈ m.hot := mem_of_getElem? inHot
      exact or_congr_left (live_insert_of_mem member)
  | none =>
      cases inCold : m.cold[k]? with
      | none => exact Iff.rfl
      | some v =>
          have member : k ∈ m.cold := mem_of_getElem? inCold
          exact or_congr_right (live_insert_of_mem member)

theorem size_insert_of_mem {s : Std.HashMap κ ν} (member : k ∈ s) :
    (s.insert k v).size = s.size := by
  rw [Std.HashMap.size_insert, if_pos member]

theorem bounded_update : (m.update k f).Bounded cap ↔ m.Bounded cap := by
  unfold update Bounded
  cases inHot : m.hot[k]? with
  | some v =>
      have member : k ∈ m.hot := mem_of_getElem? inHot
      simp only [size_insert_of_mem member]
  | none =>
      cases inCold : m.cold[k]? with
      | none => exact Iff.rfl
      | some v =>
          have member : k ∈ m.cold := mem_of_getElem? inCold
          simp only [size_insert_of_mem member]

/-! ## fetch -/

/-- A lookup answers just for the live keys. -/
theorem isSome_fetch : (m.fetch cap k f).1.isSome ↔ m.Live k := by
  unfold fetch Live
  cases inHot : m.hot[k]? with
  | some v =>
      have member : k ∈ m.hot := mem_of_getElem? inHot
      simp [member]
  | none =>
      have absent : k ∉ m.hot := notMem_of_getElem? inHot
      cases inCold : m.cold[k]? with
      | none =>
          have absentToo : k ∉ m.cold := notMem_of_getElem? inCold
          simp [absent, absentToo]
      | some v =>
          have member : k ∈ m.cold := mem_of_getElem? inCold
          simp [member]

/-- What was just pushed is found, unchanged. -/
theorem fetch_push_self : ((m.push cap k v).fetch cap k f).1 = some v := by
  have inHot : (m.push cap k v).hot[k]? = some v := by
    unfold push
    split <;> exact Std.HashMap.getElem?_insert_self
  simp only [fetch, inHot]

theorem holds_of_erase (holds : (⟨m.hot, m.cold.erase k⟩ : Segments κ ν).Holds k' v') :
    m.Holds k' v' := by
  rcases holds with inHot | inCold
  · exact Or.inl inHot
  · rw [Std.HashMap.getElem?_erase] at inCold
    split at inCold
    · cases inCold
    · exact Or.inr inCold

theorem All.fetch (all : m.All P) (changed : ∀ v, P k v → P k (f v)) :
    (m.fetch cap k f).2.All P := by
  unfold Segments.fetch
  cases inHot : m.hot[k]? with
  | some v => exact all
  | none =>
      cases inCold : m.cold[k]? with
      | none => exact all
      | some v =>
          have erased : (⟨m.hot, m.cold.erase k⟩ : Segments κ ν).All P :=
            fun k' v' holds => all k' v' (holds_of_erase holds)
          exact erased.push (changed v (all k v (Or.inr inCold)))

/-- A lookup in `cold` drops what the rotation drops. -/
theorem live_fetch : (m.fetch cap k f).2.Live k' ↔
    if k ∈ m.cold ∧ k ∉ m.hot then k' = k ∨ m.Survives cap k' else m.Live k' := by
  unfold fetch
  cases inHot : m.hot[k]? with
  | some v =>
      have member : k ∈ m.hot := mem_of_getElem? inHot
      simp [member]
  | none =>
      have absent : k ∉ m.hot := notMem_of_getElem? inHot
      cases inCold : m.cold[k]? with
      | none =>
          have absentToo : k ∉ m.cold := notMem_of_getElem? inCold
          simp [absentToo]
      | some v =>
          have member : k ∈ m.cold := mem_of_getElem? inCold
          simp only [live_push, member, absent, not_false_eq_true, and_self, if_true]
          unfold Survives
          by_cases same : k' = k
          · simp [same]
          · have other : (k == k') = false := by simpa [beq_eq_false_iff_ne] using Ne.symm same
            simp [same, other, Std.HashMap.mem_erase]

theorem live_of_fetch (live : (m.fetch cap k f).2.Live k') : m.Live k' := by
  rw [live_fetch] at live
  split at live
  · rename_i inCold
    rcases live with rfl | survives
    · exact Or.inr inCold.1
    · exact survives.live
  · exact live

theorem Bounded.fetch (bounded : m.Bounded cap) (positive : 0 < cap) :
    (m.fetch cap k f).2.Bounded cap := by
  unfold Segments.fetch
  cases m.hot[k]? with
  | some v => exact bounded
  | none =>
      cases m.cold[k]? with
      | none => exact bounded
      | some v =>
          have erased : (⟨m.hot, m.cold.erase k⟩ : Segments κ ν).Bounded cap :=
            ⟨bounded.1, Nat.le_trans Std.HashMap.size_erase_le bounded.2⟩
          exact erased.push positive

/-! ## fill -/

theorem holds_of_fill (holds : (m.fill k v).Holds k' v') :
    k' = k ∧ v' = v ∧ m.find k = none ∨ m.Holds k' v' := by
  unfold fill at holds
  cases found : m.find k with
  | some v₀ => rw [found] at holds; exact Or.inr holds
  | none =>
      rw [found] at holds
      rcases holds with inHot | inCold
      · rw [Std.HashMap.getElem?_insert] at inHot
        split at inHot
        · rename_i same
          exact Or.inl ⟨(eq_of_beq same).symm, (Option.some.inj inHot).symm, rfl⟩
        · exact Or.inr (Or.inl inHot)
      · exact Or.inr (Or.inr inCold)

theorem All.fill (all : m.All P) (new : m.find k = none → P k v) : (m.fill k v).All P := by
  intro k' v' holds
  rcases holds_of_fill holds with ⟨rfl, rfl, absent⟩ | old
  · exact new absent
  · exact all k' v' old

theorem holds_fill (holds : m.Holds k' v') : (m.fill k v).Holds k' v' := by
  unfold fill
  cases found : m.find k with
  | some v₀ => exact holds
  | none =>
      have fresh : ¬ m.Live k := find_eq_none_iff.mp found
      have other : (k == k') = false := by
        rw [beq_eq_false_iff_ne]
        rintro rfl
        exact fresh holds.live
      rcases holds with inHot | inCold
      · left
        show (m.hot.insert k v)[k']? = some v'
        rw [Std.HashMap.getElem?_insert, other]
        exact inHot
      · exact Or.inr inCold

theorem holds_fill_self (absent : m.find k = none) : (m.fill k v).Holds k v := by
  rw [fill, absent]
  exact Or.inl Std.HashMap.getElem?_insert_self

theorem live_fill : (m.fill k v).Live k' ↔ k' = k ∨ m.Live k' := by
  unfold fill
  cases found : m.find k with
  | some v₀ =>
      have live : m.Live k := (holds_of_find found).live
      constructor
      · exact Or.inr
      · intro given
        rcases given with rfl | old
        · exact live
        · exact old
  | none =>
      show k' ∈ m.hot.insert k v ∨ k' ∈ m.cold ↔ _
      rw [Std.HashMap.mem_insert, beq_iff_eq, or_assoc]
      exact or_congr_left eq_comm

theorem size_hot_fill [DecidablePred m.Live] :
    (m.fill k v).hot.size = m.hot.size + if m.Live k then 0 else 1 := by
  unfold fill
  cases found : m.find k with
  | some v₀ => rw [if_pos (holds_of_find found).live]; rfl
  | none =>
      have fresh : ¬ m.Live k := find_eq_none_iff.mp found
      have absent : k ∉ m.hot := fun member => fresh (Or.inl member)
      rw [if_neg fresh]
      show (m.hot.insert k v).size = _
      rw [Std.HashMap.size_insert, if_neg absent]

/-! ## fillAll -/

omit [Hashable κ] in
theorem lookup_cons_self {entries : List (κ × ν)} :
    ((k, v) :: entries).lookup k = some v := by
  simp

omit [Hashable κ] in
theorem lookup_cons_of_ne {entries : List (κ × ν)} (other : k' ≠ k) :
    ((k, v) :: entries).lookup k' = entries.lookup k' := by
  rw [List.lookup_cons, beq_eq_false_iff_ne.mpr other]

omit [Hashable κ] in
theorem mem_of_lookup {entries : List (κ × ν)} (first : entries.lookup k = some v) :
    (k, v) ∈ entries := by
  obtain ⟨before, after, split, -⟩ := List.lookup_eq_some_iff.mp first
  rw [split]
  simp

theorem live_fillAll {entries : List (κ × ν)} :
    (m.fillAll entries).Live k ↔ m.Live k ∨ k ∈ entries.map Prod.fst := by
  induction entries generalizing m with
  | nil => simp [fillAll]
  | cons entry rest ih =>
      show ((m.fill entry.1 entry.2).fillAll rest).Live k ↔ _
      rw [ih, live_fill, List.map_cons, List.mem_cons]
      tauto

/-- A filled cache holds the old entries and, under every fresh key, the first of
the new ones. -/
theorem holds_fillAll {entries : List (κ × ν)} :
    (m.fillAll entries).Holds k v ↔
      m.Holds k v ∨ ¬ m.Live k ∧ entries.lookup k = some v := by
  induction entries generalizing m with
  | nil => simp [fillAll]
  | cons entry rest ih =>
      rcases entry with ⟨k₀, v₀⟩
      show ((m.fill k₀ v₀).fillAll rest).Holds k v ↔ _
      rw [ih, live_fill]
      by_cases same : k = k₀
      · subst same
        rw [lookup_cons_self]
        cases found : m.find k with
        | some v' =>
            have live : m.Live k := (holds_of_find found).live
            simp only [fill, found, live, not_true_eq_false, false_and, or_false, or_true]
        | none =>
            have fresh : ¬ m.Live k := find_eq_none_iff.mp found
            have absent : ¬ m.Holds k v := fun holds => fresh holds.live
            simp only [not_true_eq_false, false_and, or_false, fresh, absent,
              not_false_eq_true, true_and, false_or, Option.some.injEq]
            constructor
            · intro holds
              rcases holds_of_fill holds with ⟨-, value, -⟩ | old
              · exact value.symm
              · exact (absent old).elim
            · intro value
              subst value
              exact holds_fill_self found
      · rw [lookup_cons_of_ne same]
        have frame : (m.fill k₀ v₀).Holds k v ↔ m.Holds k v := by
          constructor
          · intro holds
            rcases holds_of_fill holds with ⟨key, -, -⟩ | old
            · exact (same key).elim
            · exact old
          · exact holds_fill
        simp only [frame, same, false_or]

theorem all_fillAll {entries : List (κ × ν)} :
    (m.fillAll entries).All P ↔
      m.All P ∧ ∀ k v, ¬ m.Live k → entries.lookup k = some v → P k v := by
  simp only [All, holds_fillAll, or_imp, forall_and, and_imp]

section Count

open Classical

/-- The keys a fill adds. -/
noncomputable def freshKeys (m : Segments κ ν) (entries : List (κ × ν)) : Finset κ :=
  (entries.map Prod.fst).toFinset.filter fun k => ¬ m.Live k

theorem freshKeys_cons_of_live {entries : List (κ × ν)} (live : m.Live k) :
    m.freshKeys ((k, v) :: entries) = (m.fill k v).freshKeys entries := by
  ext k'
  simp only [freshKeys, List.map_cons, List.toFinset_cons, Finset.mem_filter, Finset.mem_insert,
    live_fill]
  constructor
  · intro fresh
    rcases fresh with ⟨rfl | member, notLive⟩
    · exact (notLive live).elim
    · refine ⟨member, fun held => ?_⟩
      rcases held with rfl | held
      · exact notLive live
      · exact notLive held
  · intro fresh
    exact ⟨Or.inr fresh.1, fun held => fresh.2 (Or.inr held)⟩

theorem freshKeys_cons_of_fresh {entries : List (κ × ν)} (fresh : ¬ m.Live k) :
    m.freshKeys ((k, v) :: entries) = insert k ((m.fill k v).freshKeys entries) := by
  ext k'
  simp only [freshKeys, List.map_cons, List.toFinset_cons, Finset.mem_filter, Finset.mem_insert,
    live_fill]
  constructor
  · intro key
    by_cases same : k' = k
    · exact Or.inl same
    · rcases key with ⟨here | member, notLive⟩
      · exact (same here).elim
      · exact Or.inr ⟨member, not_or.mpr ⟨same, notLive⟩⟩
  · intro key
    rcases key with rfl | ⟨member, notLive⟩
    · exact ⟨Or.inl rfl, fresh⟩
    · exact ⟨Or.inr member, fun held => notLive (Or.inr held)⟩

/-- A fill adds to `hot` one entry for every fresh key. -/
theorem size_hot_fillAll {entries : List (κ × ν)} :
    (m.fillAll entries).hot.size = m.hot.size + (m.freshKeys entries).card := by
  induction entries generalizing m with
  | nil => simp [fillAll, freshKeys]
  | cons entry rest ih =>
      rcases entry with ⟨k, v⟩
      show ((m.fill k v).fillAll rest).hot.size = _
      rw [ih, size_hot_fill]
      by_cases live : m.Live k
      · rw [if_pos live, freshKeys_cons_of_live live, Nat.add_zero]
      · have notMember : k ∉ (m.fill k v).freshKeys rest := by
          simp [freshKeys, live_fill]
        rw [if_neg live, freshKeys_cons_of_fresh live, Finset.card_insert_of_notMem notMember]
        omega

omit [LawfulBEq κ] in
theorem card_freshKeys_le {entries : List (κ × ν)} :
    (m.freshKeys entries).card ≤ entries.length := by
  apply le_trans (Finset.card_filter_le _ _)
  have bound := List.toFinset_card_le (entries.map Prod.fst)
  rwa [List.length_map] at bound

omit [LawfulBEq κ] in
/-- Distinct fresh keys are counted. -/
theorem length_le_card_freshKeys {entries : List (κ × ν)} {keys : List κ} (distinct : keys.Nodup)
    (fresh : ∀ k ∈ keys, k ∈ entries.map Prod.fst ∧ ¬ m.Live k) :
    keys.length ≤ (m.freshKeys entries).card := by
  rw [← List.toFinset_card_of_nodup distinct]
  apply Finset.card_le_card
  intro k member
  rcases fresh k (List.mem_toFinset.mp member) with ⟨key, notLive⟩
  simp only [freshKeys, Finset.mem_filter, List.mem_toFinset]
  exact ⟨key, notLive⟩

end Count

/-! ## Filling a map -/

/-- First-wins insertion of a list of entries. -/
theorem getElem?_foldl_insertIfNew {s : Std.HashMap κ ν} {entries : List (κ × ν)} :
    (entries.foldl (fun s entry => s.insertIfNew entry.1 entry.2) s)[k]? =
      match s[k]? with
      | some v => some v
      | none => entries.lookup k := by
  induction entries generalizing s with
  | nil =>
      show s[k]? = _
      cases s[k]? <;> rfl
  | cons entry rest ih =>
      rcases entry with ⟨k₀, v₀⟩
      rw [List.foldl_cons, ih, Std.HashMap.getElem?_insertIfNew]
      by_cases same : k₀ = k
      · subst same
        rw [lookup_cons_self]
        cases found : s[k₀]? with
        | some v =>
            have member : k₀ ∈ s := mem_of_getElem? found
            simp [member]
        | none =>
            have absent : k₀ ∉ s := notMem_of_getElem? found
            simp [absent]
      · rw [lookup_cons_of_ne (Ne.symm same)]
        simp [same]

theorem lookup_toList {s : Std.HashMap κ ν} : s.toList.lookup k = s[k]? := by
  cases found : s.toList.lookup k with
  | none =>
      cases bound : s[k]? with
      | none => rfl
      | some v =>
          have member := Std.HashMap.mem_toList_iff_getElem?_eq_some.mpr bound
          have absent := List.lookup_eq_none_iff.mp found _ member
          simp at absent
  | some v =>
      exact (Std.HashMap.mem_toList_iff_getElem?_eq_some.mp (mem_of_lookup found)).symm

/-- Read the values of a list of entries, leaving out those that do not read. -/
def mapValues {ξ : Type*} (read : ξ → Option ν) (entries : List (κ × ξ)) : List (κ × ν) :=
  entries.filterMap fun entry => (read entry.2).map (entry.1, ·)

omit [Hashable κ] in
theorem lookup_mapValues {ξ : Type*} {read : ξ → Option ν} {entries : List (κ × ξ)}
    (distinct : entries.Pairwise fun a b => (a.1 == b.1) = false) :
    (mapValues read entries).lookup k = (entries.lookup k).bind read := by
  induction entries with
  | nil => rfl
  | cons entry rest ih =>
      rcases entry with ⟨k₀, x⟩
      rw [List.pairwise_cons] at distinct
      have later := ih distinct.2
      unfold mapValues at later ⊢
      by_cases same : k = k₀
      · subst same
        have absent : rest.lookup k = none := by
          rw [List.lookup_eq_none_iff]
          intro other member
          have apart := distinct.1 other member
          rw [beq_eq_false_iff_ne] at apart
          rw [bne_iff_ne]
          exact apart
        rw [lookup_cons_self]
        cases value : read x with
        | none =>
            rw [List.filterMap_cons_none (by rw [value]; rfl), later, absent]
            exact value.symm
        | some v =>
            rw [List.filterMap_cons_some (b := (k, v)) (by rw [value]; rfl), lookup_cons_self]
            exact value.symm
      · rw [lookup_cons_of_ne same, ← later]
        cases value : read x with
        | none => rw [List.filterMap_cons_none (by rw [value]; rfl)]
        | some v =>
            rw [List.filterMap_cons_some (b := (k₀, v)) (by rw [value]; rfl),
              lookup_cons_of_ne same]

theorem lookup_mapValues_toList {ξ : Type*} {read : ξ → Option ν} {s : Std.HashMap κ ξ} :
    (mapValues read s.toList).lookup k = s[k]?.bind read := by
  rw [lookup_mapValues Std.HashMap.distinct_keys_toList, lookup_toList]

end Segments

end Foundation
