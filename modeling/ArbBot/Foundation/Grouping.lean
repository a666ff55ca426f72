import ArbBot.Foundation.Segments
import Mathlib.Data.List.Forall2

/-!
# A table split into groups

`Grouping.put` files a row under a group and a name, and makes the group when it is
not there yet. A row is overwritten only by a later one with both its group and its
name, so a table whose entries go to pairwise different places can be read back from
its groups (`row_foldl_put`).

`lookup_eq_some_iff` reads a merged list back: where no key has two values, the order
of the list does not matter.
-/

namespace Foundation

namespace Grouping

variable {σ δ ι ν : Type*} [BEq σ] [Hashable σ] [BEq ι] [Hashable ι]

/-- Set a row of a group; a new group takes the tag. -/
def put (groups : Std.HashMap σ (δ × Std.HashMap ι ν)) (group : σ) (tag : δ) (name : ι)
    (v : ν) : Std.HashMap σ (δ × Std.HashMap ι ν) :=
  let (tag, rows) := groups[group]?.getD (tag, ∅)
  groups.insert group (tag, rows.insert name v)

/-- The row under a group and a name. -/
def row (groups : Std.HashMap σ (δ × Std.HashMap ι ν)) (group : σ) (name : ι) : Option ν :=
  groups[group]?.bind fun table => table.2[name]?

variable {groups : Std.HashMap σ (δ × Std.HashMap ι ν)} {group group' : σ} {name name' : ι}
  {tag : δ} {v : ν}

@[simp] theorem row_empty :
    row (∅ : Std.HashMap σ (δ × Std.HashMap ι ν)) group name = none := by
  rw [row, Std.HashMap.getElem?_empty]
  rfl

section Rows

variable [LawfulBEq σ] [LawfulBEq ι]

theorem row_put_self : row (put groups group tag name v) group name = some v := by
  unfold row put
  rw [Std.HashMap.getElem?_insert_self]
  exact Std.HashMap.getElem?_insert_self

theorem row_put_of_ne (apart : ¬ (group = group' ∧ name = name')) :
    row (put groups group tag name v) group' name' = row groups group' name' := by
  unfold row put
  by_cases sameGroup : group = group'
  · subst sameGroup
    have otherName : (name == name') = false :=
      beq_eq_false_iff_ne.mpr fun same => apart ⟨rfl, same⟩
    rw [Std.HashMap.getElem?_insert_self, Option.bind_some, Std.HashMap.getElem?_insert,
      otherName]
    cases groups[group]? with
    | none => exact Std.HashMap.getElem?_empty
    | some table => rfl
  · have otherGroup : (group == group') = false := beq_eq_false_iff_ne.mpr sameGroup
    rw [Std.HashMap.getElem?_insert, otherGroup]
    rfl

/-- The tables of all groups hold just the rows. -/
theorem exists_table_iff :
    (∃ table ∈ groups.toList, ∃ entry ∈ table.2.2.toList, entry.2 = v) ↔
      ∃ group name, row groups group name = some v := by
  constructor
  · intro given
    rcases given with ⟨⟨group, table⟩, tableMember, ⟨name, v'⟩, entryMember, rfl⟩
    rw [Std.HashMap.mem_toList_iff_getElem?_eq_some] at tableMember entryMember
    exact ⟨group, name, by rw [row, tableMember]; exact entryMember⟩
  · intro given
    rcases given with ⟨group, name, found⟩
    obtain ⟨table, tableFound, entryFound⟩ := Option.bind_eq_some_iff.mp found
    exact ⟨(group, table), Std.HashMap.mem_toList_iff_getElem?_eq_some.mpr tableFound,
      (name, v), Std.HashMap.mem_toList_iff_getElem?_eq_some.mpr entryFound, rfl⟩

variable {α : Type*} {groupOf : α → σ} {tagOf : α → δ} {nameOf : α → ι} {valueOf : α → ν}

/-- A table whose entries go to different places is read back row by row. -/
theorem row_foldl_put {entries : List α}
    (distinct : entries.Pairwise fun a b => ¬ (groupOf a = groupOf b ∧ nameOf a = nameOf b)) :
    row (entries.foldl
        (fun groups a => put groups (groupOf a) (tagOf a) (nameOf a) (valueOf a)) groups)
      group name = some v ↔
      (∃ a ∈ entries, groupOf a = group ∧ nameOf a = name ∧ valueOf a = v) ∨
        (∀ a ∈ entries, ¬ (groupOf a = group ∧ nameOf a = name)) ∧
          row groups group name = some v := by
  induction entries generalizing groups with
  | nil => simp
  | cons a rest ih =>
      rw [List.pairwise_cons] at distinct
      rw [List.foldl_cons, ih distinct.2]
      by_cases here : groupOf a = group ∧ nameOf a = name
      · obtain ⟨rfl, rfl⟩ := here
        -- No later entry goes to this place, so the row stays as it is put now.
        have later : ∀ b ∈ rest, ¬ (groupOf b = groupOf a ∧ nameOf b = nameOf a) :=
          fun b member same => distinct.1 b member ⟨same.1.symm, same.2.symm⟩
        rw [row_put_self]
        constructor
        · intro given
          rcases given with ⟨b, member, sameGroup, sameName, -⟩ | ⟨-, same⟩
          · exact (later b member ⟨sameGroup, sameName⟩).elim
          · exact Or.inl ⟨a, List.mem_cons_self, rfl, rfl, Option.some.inj same⟩
        · intro given
          rcases given with ⟨b, member, sameGroup, sameName, same⟩ | ⟨none, -⟩
          · rcases List.mem_cons.mp member with rfl | member
            · exact Or.inr ⟨later, congrArg some same⟩
            · exact (later b member ⟨sameGroup, sameName⟩).elim
          · exact (none a List.mem_cons_self ⟨rfl, rfl⟩).elim
      · rw [row_put_of_ne here]
        have elsewhere : ¬ (groupOf a = group ∧ nameOf a = name ∧ valueOf a = v) :=
          fun same => here ⟨same.1, same.2.1⟩
        simp only [List.mem_cons, exists_eq_or_imp, forall_eq_or_imp, elsewhere, here, false_or,
          not_false_eq_true, true_and]

/-- A row that is put is one of the entries, whichever of them share a place. -/
theorem of_row_foldl_put {entries : List α}
    (found : row (entries.foldl
        (fun groups a => put groups (groupOf a) (tagOf a) (nameOf a) (valueOf a)) groups)
      group name = some v) :
    (∃ a ∈ entries, valueOf a = v) ∨ row groups group name = some v := by
  induction entries generalizing groups with
  | nil => exact Or.inr found
  | cons a rest ih =>
      rw [List.foldl_cons] at found
      rcases ih found with ⟨b, member, same⟩ | earlier
      · exact Or.inl ⟨b, List.mem_cons_of_mem _ member, same⟩
      · by_cases here : groupOf a = group ∧ nameOf a = name
        · obtain ⟨rfl, rfl⟩ := here
          rw [row_put_self] at earlier
          exact Or.inl ⟨a, List.mem_cons_self, Option.some.inj earlier⟩
        · rw [row_put_of_ne here] at earlier
          exact Or.inr earlier

end Rows

/-! ## Merging -/

/-- Where a key has one value, a lookup finds it wherever it stands. -/
theorem lookup_eq_some_iff {κ : Type*} [BEq κ] [Hashable κ] [LawfulBEq κ]
    {entries : List (κ × ν)} {k : κ}
    (functional : ∀ v v', (k, v) ∈ entries → (k, v') ∈ entries → v = v') {v : ν} :
    entries.lookup k = some v ↔ (k, v) ∈ entries := by
  constructor
  · exact Segments.mem_of_lookup
  · intro member
    cases found : entries.lookup k with
    | some v' => rw [functional v v' member (Segments.mem_of_lookup found)]
    | none =>
        rw [List.lookup_eq_none_iff] at found
        have apart := found (k, v) member
        simp at apart

/-- Related lists hold alike what related elements satisfy alike. -/
theorem exists_mem_iff_of_forall₂ {α β : Type*} {R : α → β → Prop} {P : α → Prop}
    {Q : β → Prop} {as : List α} {bs : List β} (related : List.Forall₂ R as bs)
    (alike : ∀ a ∈ as, ∀ b, R a b → (P a ↔ Q b)) : (∃ a ∈ as, P a) ↔ ∃ b ∈ bs, Q b := by
  induction related with
  | nil => simp
  | @cons a b as bs here _ ih =>
      have later := ih fun a member b => alike a (List.mem_cons_of_mem _ member) b
      rw [List.exists_mem_cons_iff, List.exists_mem_cons_iff,
        alike a List.mem_cons_self b here, later]

end Grouping

end Foundation
