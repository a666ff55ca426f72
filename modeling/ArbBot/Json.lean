import ArbBot.Foundation.Text
import Mathlib.Data.List.Dedup
import Mathlib.Data.List.Sort
import Mathlib.Data.String.Basic

/-!
# JSON values as the bot reads them

`Json` is `serde_json::Value`. An object is a list of fields read through
`List.lookup`; its keys are read through `sortedKeys`, which neither repeats a key
nor depends on the order of the fields, so a list stands for the map it looks up.
A number is kept as the text `serde_json` prints for it: the bot never computes
with a number inside a route plan, it only prints it.
-/

namespace ArbBot

open Foundation

/-- The bytes a printed JSON number consists of: digits, signs, point, exponent. -/
def isNumberByte (b : UInt8) : Bool :=
  (48 ≤ b && b ≤ 57) || b == 45 || b == 43 || b == 46 || b == 101

/-- A JSON number, as its printed text. -/
structure JsonNumber where
  text : String
  plain : (asBytes text).all isNumberByte = true

/-- `serde_json::Value`. -/
inductive Json where
  | null
  | bool (b : Bool)
  | number (n : JsonNumber)
  | string (s : String)
  | array (items : List Json)
  | object (fields : List (String × Json))

/-- The fields of a JSON object. -/
abbrev JsonFields := List (String × Json)

namespace Json

def asArray : Json → Option (List Json)
  | .array items => some items
  | _ => none

def asObject : Json → Option JsonFields
  | .object fields => some fields
  | _ => none

def asStr : Json → Option String
  | .string s => some s
  | _ => none

/-- `Value::get` with a string index. -/
def get (v : Json) (key : String) : Option Json :=
  v.asObject.bind (·.lookup key)

end Json

/-- The `swapInfo` object of a hop of a route plan. -/
def swapInfo (hop : Json) : Option JsonFields :=
  (hop.get "swapInfo").bind Json.asObject

/-- The keys of an object in sorted order. -/
def sortedKeys (fields : JsonFields) : List String :=
  (fields.map Prod.fst).dedup.insertionSort (· ≤ ·)

theorem mem_sortedKeys {fields : JsonFields} {key : String} :
    key ∈ sortedKeys fields ↔ key ∈ fields.map Prod.fst := by
  rw [sortedKeys, List.mem_insertionSort, List.mem_dedup]

theorem sortedKeys_pairwise (fields : JsonFields) :
    (sortedKeys fields).Pairwise (· < ·) := by
  have nodup : (sortedKeys fields).Nodup :=
    (List.perm_insertionSort _ _).nodup_iff.mpr (List.nodup_dedup _)
  have sorted : (sortedKeys fields).Pairwise (· ≤ ·) := List.pairwise_insertionSort _ _
  exact (sorted.and nodup).imp fun both => lt_of_le_of_ne both.1 both.2

theorem lookup_eq_none_iff {fields : JsonFields} {key : String} :
    fields.lookup key = none ↔ key ∉ fields.map Prod.fst := by
  rw [List.lookup_eq_none_iff, List.mem_map]
  constructor
  · intro absent given
    rcases given with ⟨field, member, rfl⟩
    simpa using absent field member
  · intro absent field member
    rw [bne_iff_ne]
    rintro rfl
    exact absent ⟨field, member, rfl⟩

end ArbBot
