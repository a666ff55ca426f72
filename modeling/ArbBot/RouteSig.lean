import ArbBot.Json

/-!
# The route signature

`route_sig` feeds the amount-free `swapInfo` fields of a route plan, hop by hop and
in key order, to two FNV-1a passes. `fnv1a64_eq` separates the hash from the
encoding: a pass is the fold of one byte step over `routeBytes`. `routeBytes_inj`
says what equal byte streams have in common: on plans whose hops carry a plain
`swapInfo` with an `ammKey`, the list of rendered fields of every hop.
-/

namespace ArbBot

open Foundation

/-! ## The two passes of the source -/

/-- The `swapInfo` fields that carry amounts. -/
def amountKeys : List String := ["inAmount", "outAmount", "feeAmount"]

/-- One FNV-1a step. -/
def fnvStep (h : UInt64) (byte : UInt8) : UInt64 :=
  (h ^^^ byte.toUInt64) * 0x00000001000001b3

/-- The `feed!` macro. -/
def feed (h : UInt64) (bytes : List UInt8) : UInt64 :=
  bytes.foldl fnvStep h

/-- The value part of a field; null, arrays and objects are not fed. -/
def feedValue (h : UInt64) : Json → UInt64
  | .string s => feed h (asBytes s)
  | .bool b => feed h (if b then [84] else [70])
  | .number n => feed h (asBytes n.text)
  | _ => h

def feedField (fields : JsonFields) (h : UInt64) (key : String) : UInt64 :=
  if key ∈ amountKeys then h
  else
    let h := feed h (asBytes key)
    let h := feed h [61]
    let h := match fields.lookup key with
      | some value => feedValue h value
      | none => h
    feed h [59]

def feedHop (h : UInt64) (hop : Json) : UInt64 :=
  match swapInfo hop with
  | some fields => (sortedKeys fields).foldl (feedField fields) h
  | none => h

/-- `fnv1a_64`: one pass over the route plan. -/
def fnv1a64 (routePlan : Json) (seed : UInt64) : UInt64 :=
  match routePlan.asArray with
  | some hops => hops.foldl feedHop seed
  | none => seed

/-- Rust's `u128`. -/
abbrev U128 := BitVec 128

/-- `route_sig`: the two passes side by side. -/
def routeSig (routePlan : Json) : U128 :=
  let h1 := fnv1a64 routePlan 0xcbf29ce484222325
  let h2 := fnv1a64 routePlan 0x517cc1b727220a95
  (h1.toBitVec.setWidth 128 <<< 64) ||| h2.toBitVec.setWidth 128

/-! ## The byte stream of a plan -/

/-- The bytes a field value contributes. -/
def renderValue : Option Json → List UInt8
  | some (.string s) => asBytes s
  | some (.bool b) => if b then [84] else [70]
  | some (.number n) => asBytes n.text
  | _ => []

/-- The fields of a hop that are signed, in key order, with their rendered values. -/
def hopItems (hop : Json) : List (String × List UInt8) :=
  match swapInfo hop with
  | some fields =>
      ((sortedKeys fields).filter (· ∉ amountKeys)).map fun key =>
        (key, renderValue (fields.lookup key))
  | none => []

/-- One signed field: key, `=`, value, `;`. -/
def itemBytes (item : String × List UInt8) : List UInt8 :=
  asBytes item.1 ++ 61 :: (item.2 ++ [59])

def hopBytes (hop : Json) : List UInt8 :=
  (hopItems hop).flatMap itemBytes

/-- What a pass of `fnv1a_64` is fed. -/
def routeBytes (routePlan : Json) : List UInt8 :=
  match routePlan.asArray with
  | some hops => hops.flatMap hopBytes
  | none => []

theorem feed_append (h : UInt64) (xs ys : List UInt8) :
    feed h (xs ++ ys) = feed (feed h xs) ys :=
  List.foldl_append

theorem feedField_eq (fields : JsonFields) (h : UInt64) (key : String) :
    feedField fields h key =
      if key ∈ amountKeys then h
      else feed h (itemBytes (key, renderValue (fields.lookup key))) := by
  unfold feedField
  split
  · rfl
  · have value : ∀ h' : UInt64, (match fields.lookup key with
        | some value => feedValue h' value
        | none => h') = feed h' (renderValue (fields.lookup key)) := by
      intro h'
      cases fields.lookup key with
      | none => rfl
      | some v => cases v <;> rfl
    have colon : (61 : UInt8) :: (renderValue (fields.lookup key) ++ [59]) =
        [61] ++ (renderValue (fields.lookup key) ++ [59]) := rfl
    rw [itemBytes, colon, feed_append, feed_append, feed_append]
    simp only [value]

theorem foldl_feedField (fields : JsonFields) (keys : List String) (h : UInt64) :
    keys.foldl (feedField fields) h =
      feed h (((keys.filter (· ∉ amountKeys)).map fun key =>
        (key, renderValue (fields.lookup key))).flatMap itemBytes) := by
  induction keys generalizing h with
  | nil => rfl
  | cons key keys ih =>
      rw [List.foldl_cons, ih, feedField_eq]
      by_cases amount : key ∈ amountKeys
      · rw [if_pos amount, List.filter_cons_of_neg (by simpa using amount)]
      · rw [if_neg amount, List.filter_cons_of_pos (by simpa using amount), List.map_cons,
          List.flatMap_cons, feed_append]

theorem feedHop_eq (h : UInt64) (hop : Json) : feedHop h hop = feed h (hopBytes hop) := by
  unfold feedHop hopBytes hopItems
  cases swapInfo hop with
  | none => rfl
  | some fields => exact foldl_feedField fields _ h

/-- A pass is the fold of one FNV-1a step over the byte stream of the plan. -/
theorem fnv1a64_eq (routePlan : Json) (seed : UInt64) :
    fnv1a64 routePlan seed = feed seed (routeBytes routePlan) := by
  unfold fnv1a64 routeBytes
  cases routePlan.asArray with
  | none => rfl
  | some hops =>
      simp only
      induction hops generalizing seed with
      | nil => rfl
      | cons hop hops ih =>
          rw [List.foldl_cons, ih, List.flatMap_cons, feed_append, feedHop_eq]

/-- The stream of a plan is that of the signed fields of its hops. -/
theorem routeBytes_array (hops : List Json) :
    routeBytes (.array hops) = (hops.map hopItems).flatten.flatMap itemBytes := by
  simp only [routeBytes, Json.asArray, ← List.flatMap_def, List.flatMap_assoc]
  rfl

/-- The signature only depends on the byte stream. -/
theorem routeSig_congr {p q : Json} (same : routeBytes p = routeBytes q) :
    routeSig p = routeSig q := by
  simp only [routeSig, fnv1a64_eq, same]

/-- The signed fields of a hop depend neither on its amounts nor on the order of its fields,
nor on what stands beside its `swapInfo`. -/
theorem hopItems_congr {hop hop' : Json} {fields fields' : JsonFields}
    (info : swapInfo hop = some fields) (info' : swapInfo hop' = some fields')
    (values : ∀ key, key ∉ amountKeys → fields.lookup key = fields'.lookup key) :
    hopItems hop = hopItems hop' := by
  have keys : (sortedKeys fields).filter (· ∉ amountKeys) =
      (sortedKeys fields').filter (· ∉ amountKeys) := by
    apply ((sortedKeys_pairwise fields).filter _).eq_of_mem_iff
      ((sortedKeys_pairwise fields').filter _)
    intro key
    rw [List.mem_filter, List.mem_filter, mem_sortedKeys, mem_sortedKeys, decide_eq_true_eq]
    refine and_congr_left fun signed => ?_
    rw [← not_iff_not, ← lookup_eq_none_iff, ← lookup_eq_none_iff, values key signed]
  simp only [hopItems, info, info', keys]
  apply List.map_congr_left
  intro key member
  have signed : key ∉ amountKeys := by simpa using (List.mem_filter.mp member).2
  rw [values key signed]

/-! ## States of a pass -/

/-- The FNV prime is odd, so a step never merges two states. -/
theorem fnvStep_injective (byte : UInt8) : Function.Injective fun h => fnvStep h byte := by
  intro h h' same
  have inverse : ∀ x : UInt64, x * 0x00000001000001b3 * 12777556837020374395 = x := by
    intro x
    have unit : (0x00000001000001b3 : UInt64) * 12777556837020374395 = 1 := by decide
    rw [UInt64.mul_assoc, unit, UInt64.mul_one]
  have states := congrArg (· * 12777556837020374395) same
  simp only [fnvStep, inverse] at states
  exact (UInt64.xor_left_inj _).mp states

/-- The first pass can be read off the signature. -/
theorem fnv1a64_eq_of_routeSig_eq {p q : Json} (same : routeSig p = routeSig q) :
    fnv1a64 p 0xcbf29ce484222325 = fnv1a64 q 0xcbf29ce484222325 := by
  have high : ∀ x y : BitVec 64,
      (((x.setWidth 128 <<< 64) ||| y.setWidth 128) >>> 64).setWidth 64 = x := by
    intro x y
    ext i inside
    have below : 64 + i < 128 := by omega
    have below' : i < 128 := by omega
    simp [BitVec.getElem_setWidth, below, below', BitVec.getLsbD_eq_getElem inside]
  have halves := congrArg (fun sig : U128 => (sig >>> 64).setWidth 64) same
  simp only [routeSig, high] at halves
  exact UInt64.toBitVec_inj.mp halves

/-! ## Reading the stream back -/

/-- A signed field whose key and value hold no separator of their own. -/
structure PlainItem (item : String × List UInt8) : Prop where
  key : (61 : UInt8) ∉ asBytes item.1
  value : (59 : UInt8) ∉ item.2

theorem items_inj {items items' : List (String × List UInt8)}
    (plain : ∀ item ∈ items, PlainItem item) (plain' : ∀ item ∈ items', PlainItem item)
    (same : items.flatMap itemBytes = items'.flatMap itemBytes) : items = items' := by
  induction items generalizing items' with
  | nil =>
      cases items' with
      | nil => rfl
      | cons item rest => simp [itemBytes] at same
  | cons item rest ih =>
      cases items' with
      | nil => simp [itemBytes] at same
      | cons item' rest' =>
          have here := plain item List.mem_cons_self
          have here' := plain' item' List.mem_cons_self
          simp only [List.flatMap_cons, itemBytes, List.append_assoc, List.cons_append] at same
          obtain ⟨keys, values⟩ := append_cons_inj_left here.key here'.key same
          obtain ⟨valueEq, tails⟩ := append_cons_inj_left here.value here'.value values
          have itemEq : item = item' := Prod.ext (asBytes_inj keys) valueEq
          rw [itemEq, ih (fun i member => plain i (List.mem_cons_of_mem _ member))
            (fun i member => plain' i (List.mem_cons_of_mem _ member)) tails]

/-- The signed fields of a hop can be told from those of its neighbours: it has an
`ammKey`, and none of its fields holds a separator. -/
structure PlainHop (hop : Json) : Prop where
  ammKey : "ammKey" ∈ (hopItems hop).map Prod.fst
  items : ∀ item ∈ hopItems hop, PlainItem item

theorem hopItems_pairwise (hop : Json) :
    (hopItems hop).Pairwise fun x y => x.1 < y.1 := by
  unfold hopItems
  cases swapInfo hop with
  | none => exact List.Pairwise.nil
  | some fields => exact List.pairwise_map.mpr ((sortedKeys_pairwise fields).filter _)

theorem PlainHop.sortedBlock {hop : Json} (plain : PlainHop hop) :
    SortedBlock Prod.fst "ammKey" (hopItems hop) :=
  ⟨hopItems_pairwise hop, plain.ammKey⟩

/-- On plans of plain hops the stream determines the signed fields of every hop,
and with them the number of hops, although no hop separator is fed. -/
theorem routeBytes_inj {hops hops' : List Json}
    (plain : ∀ hop ∈ hops, PlainHop hop) (plain' : ∀ hop ∈ hops', PlainHop hop)
    (same : routeBytes (.array hops) = routeBytes (.array hops')) :
    hops.map hopItems = hops'.map hopItems := by
  have plainItems : ∀ {hs : List Json}, (∀ hop ∈ hs, PlainHop hop) →
      ∀ item ∈ (hs.map hopItems).flatten, PlainItem item := by
    intro hs each item member
    rw [← List.flatMap_def, List.mem_flatMap] at member
    obtain ⟨hop, hopMember, itemMember⟩ := member
    exact (each hop hopMember).items item itemMember
  have blocks : ∀ {hs : List Json}, (∀ hop ∈ hs, PlainHop hop) →
      ∀ block ∈ hs.map hopItems, SortedBlock Prod.fst "ammKey" block := by
    intro hs each block member
    obtain ⟨hop, hopMember, rfl⟩ := List.mem_map.mp member
    exact (each hop hopMember).sortedBlock
  rw [routeBytes_array, routeBytes_array] at same
  exact flatten_sortedBlocks_inj (blocks plain) (blocks plain')
    (items_inj (plainItems plain) (plainItems plain') same)

end ArbBot
