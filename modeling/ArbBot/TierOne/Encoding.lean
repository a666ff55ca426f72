import ArbBot.TierOne.Identity

/-!
# The byte stream of a signature as an encoding

`route_sig` writes no border between hops. On plans whose hops all carry an `ammKey` the
stream is an encoding of the signed fields, hop by hop, all the same
(`routeBytes_eq_iff`), and it leaves out the amounts and the order of the fields.
-/

namespace ArbBot

open Foundation

/-- A string without `;`, a boolean or a number. -/
def PlainScalar : Json → Prop
  | .string s => (59 : UInt8) ∉ asBytes s
  | .bool _ => True
  | .number _ => True
  | _ => False

/-- The hop carries a `swapInfo` with an `ammKey`, keys without separators and scalar
values. -/
structure ScalarHop (hop : Json) (fields : JsonFields) : Prop where
  info : swapInfo hop = some fields
  ammKey : "ammKey" ∈ fields.map Prod.fst
  keys : ∀ key ∈ fields.map Prod.fst, (61 : UInt8) ∉ asBytes key ∧ (59 : UInt8) ∉ asBytes key
  values : ∀ key value, fields.lookup key = some value → PlainScalar value

/-- The hops carry the same `swapInfo`, but for the amounts and the order of the fields. -/
def SameButAmounts (hop hop' : Json) : Prop :=
  ∃ fields fields', swapInfo hop = some fields ∧ swapInfo hop' = some fields' ∧
    ∀ key, key ∉ amountKeys → fields.lookup key = fields'.lookup key

theorem PlainScalar.semicolon_notMem {value : Json} (plain : PlainScalar value) :
    (59 : UInt8) ∉ renderValue (some value) := by
  cases value with
  | string s => exact plain
  | bool b => cases b <;> decide
  | number n => exact semicolon_notMem_number n
  | null => exact plain.elim
  | array items => exact plain.elim
  | object fields => exact plain.elim

theorem ScalarHop.plainHop {hop : Json} {fields : JsonFields} (shape : ScalarHop hop fields) :
    PlainHop hop :=
  HopSchema.plainHop_of_fields shape.info shape.ammKey (fun key member => (shape.keys key member).1)
    fun key value _ found => (shape.values key value found).semicolon_notMem

/-- Hops that differ in amounts and the order of fields only are signed alike. -/
theorem map_hopItems_of_sameButAmounts {hops hops' : List Json}
    (same : List.Forall₂ SameButAmounts hops hops') : hops.map hopItems = hops'.map hopItems := by
  induction same with
  | nil => rfl
  | cons heads tails ih =>
      rcases heads with ⟨fields, fields', info, info', values⟩
      rw [List.map_cons, List.map_cons, hopItems_congr info info' values, ih]

/-- **The encoding.** What the two passes are fed with is the same for two plans of the shape
just when the signed fields of their hops are the same, hop by hop and in key order. Plans
that differ in amounts and the order of fields only have one signature. -/
theorem routeBytes_eq_iff {hops hops' : List Json}
    (shape : ∀ hop ∈ hops, ∃ fields, ScalarHop hop fields)
    (shape' : ∀ hop ∈ hops', ∃ fields, ScalarHop hop fields) :
    (∀ seed, fnv1a64 (.array hops) seed = feed seed (routeBytes (.array hops))) ∧
      (routeBytes (.array hops) = routeBytes (.array hops') ↔
        hops.map hopItems = hops'.map hopItems) ∧
      (List.Forall₂ SameButAmounts hops hops' →
        routeSig (.array hops) = routeSig (.array hops')) := by
  have plain : ∀ {hs : List Json}, (∀ hop ∈ hs, ∃ fields, ScalarHop hop fields) →
      ∀ hop ∈ hs, PlainHop hop := by
    intro hs shaped hop member
    rcases shaped hop member with ⟨fields, scalar⟩
    exact scalar.plainHop
  have encoded : hops.map hopItems = hops'.map hopItems →
      routeBytes (.array hops) = routeBytes (.array hops') := by
    intro items
    rw [routeBytes_array, routeBytes_array, items]
  refine ⟨fnv1a64_eq _, ⟨routeBytes_inj (plain shape) (plain shape'), encoded⟩, fun same => ?_⟩
  exact routeSig_congr (encoded (map_hopItems_of_sameButAmounts same))

/-- The pool hop has the shape. -/
theorem scalarHop_shareHop (share : JsonNumber) (inAmount : String)
    (plain : (59 : UInt8) ∉ asBytes inAmount) :
    ScalarHop (shareHop share inAmount) (poolFields inAmount) := by
  refine ⟨rfl, by simp [poolFields], keys_poolFields inAmount, ?_⟩
  intro key value found
  rcases lookup_poolFields found with ⟨-, rfl⟩ | ⟨s, rfl, free⟩
  · exact plain
  · exact free

/-- One hop and two of them are told apart, for all the amounts. -/
theorem routeBytes_shareHops :
    routeBytes (.array [shareHop sixty "5"]) ≠
      routeBytes (.array [shareHop sixty "5", shareHop sixty "7"]) := by
  have shape : ∀ amount : String, (59 : UInt8) ∉ asBytes amount →
      ∃ fields, ScalarHop (shareHop sixty amount) fields :=
    fun amount plain => ⟨_, scalarHop_shareHop sixty amount plain⟩
  intro same
  have items := (routeBytes_eq_iff
    (fun hop member => by
      rw [List.mem_singleton.mp member]
      exact shape "5" (by decide))
    (fun hop member => by
      rcases List.mem_pair.mp member with rfl | rfl
      · exact shape "5" (by decide)
      · exact shape "7" (by decide))).2.1.mp same
  have lengths := congrArg List.length items
  cases lengths

end ArbBot
