import ArbBot.Foundation.Retention
import Mathlib.Data.Set.Card
import Std.Data.DHashMap.Internal.WF

/-!
# How many entries a segmented cache has

A count over the values of both segments is the number of keys with such a value, if no key is
in both (`countP_values`).
-/

namespace Foundation

/-- Keys that differ count the entries of a list. -/
theorem ncard_of_nodup_keys {κ ν : Type*} {entries : List (κ × ν)} (p : ν → Bool)
    (distinct : (entries.map Prod.fst).Nodup) :
    {k | ∃ v, (k, v) ∈ entries ∧ p v = true}.ncard = (entries.map Prod.snd).countP p := by
  classical
  have kept : ((entries.filter fun entry => p entry.2).map Prod.fst).Nodup :=
    distinct.sublist ((List.filter_sublist).map _)
  have same : {k | ∃ v, (k, v) ∈ entries ∧ p v = true} =
      ↑((entries.filter fun entry => p entry.2).map Prod.fst).toFinset := by
    ext k
    simp
  rw [same, Set.ncard_coe_finset, List.toFinset_card_of_nodup kept, List.length_map,
    List.countP_map, List.countP_eq_length_filter]
  rfl

variable {κ ν : Type*} [BEq κ] [Hashable κ]

theorem values_eq_map_snd (s : Std.HashMap κ ν) : s.values = s.toList.map Prod.snd := by
  show Std.DHashMap.Raw.values s.inner.1 = (Std.DHashMap.Raw.Const.toList s.inner.1).map Prod.snd
  unfold Std.DHashMap.Raw.values Std.DHashMap.Raw.Const.toList
  rw [Std.DHashMap.Internal.Raw.foldRev_cons_mk,
    Std.DHashMap.Internal.Raw.foldRev_cons_apply fun _ v => v, List.map_append, List.map_map]
  rfl

namespace Segments

variable [LawfulBEq κ] {m : Segments κ ν}

theorem mem_toList {s : Std.HashMap κ ν} {k : κ} {v : ν} :
    (k, v) ∈ s.toList ↔ s[k]? = some v := Std.HashMap.mem_toList_iff_getElem?_eq_some

theorem nodup_keys (disjoint : m.Disjoint) :
    ((m.hot.toList ++ m.cold.toList).map Prod.fst).Nodup := by
  rw [List.map_append, Std.HashMap.map_fst_toList_eq_keys, Std.HashMap.map_fst_toList_eq_keys]
  apply List.Nodup.append Std.HashMap.nodup_keys Std.HashMap.nodup_keys
  intro k inHot inCold
  exact disjoint k (Std.HashMap.mem_keys.mp inHot) (Std.HashMap.mem_keys.mp inCold)

/-- A count over the values is a count of the keys. -/
theorem countP_values (disjoint : m.Disjoint) (p : ν → Bool) :
    (m.hot.values ++ m.cold.values).countP p =
      {k | ∃ v, m.Holds k v ∧ p v = true}.ncard := by
  rw [values_eq_map_snd, values_eq_map_snd, ← List.map_append,
    ← ncard_of_nodup_keys p (nodup_keys disjoint)]
  congr
  ext k
  simp only [List.mem_append, mem_toList, Holds]

theorem length_values (m : Segments κ ν) :
    (m.hot.values ++ m.cold.values).length = m.hot.size + m.cold.size := by
  rw [List.length_append, values_eq_map_snd, values_eq_map_snd, List.length_map,
    List.length_map, Std.HashMap.length_toList, Std.HashMap.length_toList]

/-- The sizes count the keys. -/
theorem size_add_size (disjoint : m.Disjoint) :
    m.hot.size + m.cold.size = {k | m.Live k}.ncard := by
  have counted := countP_values disjoint fun _ => true
  rw [List.countP_true, length_values] at counted
  rw [counted]
  congr
  ext k
  simp only [and_true]
  exact ⟨fun ⟨_, holds⟩ => holds.live, Live.holds⟩

end Segments

end Foundation
