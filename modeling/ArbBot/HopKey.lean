import ArbBot.Json
import Mathlib.Data.List.Infix

/-!
# Hop identity

`HopKey` is what the store knows about one DEX hop, and `template_id` is its text
form. `ColonFree.pair_eq` says what the text keeps: on keys whose pool and mints hold
no `:`, everything but the `DexKind`. `pairKey_inj` carries this over the `|` of the
hop-pair index.
-/

namespace ArbBot

open Foundation

/-! ## Labels -/

/-- The lowercase form of a character, as far as ASCII patterns can tell: besides
the ASCII capitals, only the Kelvin sign and the dotted capital I have a lowercase
form with an ASCII letter in it. -/
def lowerChar (c : Char) : List Char :=
  if c = '\u212A' then ['k']
  else if c = '\u0130' then ['i', '\u0307']
  else [c.toLower]

/-- `str::to_lowercase`. -/
def toLowercase (s : String) : String := String.ofList (s.toList.flatMap lowerChar)

/-- `str::contains` with a string pattern. -/
def strContains (s pattern : String) : Bool := decide (pattern.toList <:+: s.toList)

inductive DexKind where
  | whirlpool
  | whirlpoolSwapV2
  | raydiumClmm
  | raydiumV2
  | meteoraDlmm
  | meteoraPools
  | alphaQ
  | aquifer
  | aldrinV2
  | other
  deriving DecidableEq, Hashable, Repr

namespace DexKind

def fromLabel (label : String) : DexKind :=
  let l := toLowercase label
  if strContains l "whirlpool" then
    if strContains l "v2" || strContains l "swap_v2" || strContains l "swapv2" then
      .whirlpoolSwapV2
    else .whirlpool
  else if strContains l "raydium" && strContains l "clmm" then .raydiumClmm
  else if strContains l "raydium" then .raydiumV2
  else if strContains l "meteora" && strContains l "dlmm" then .meteoraDlmm
  else if strContains l "meteora" then .meteoraPools
  else if strContains l "alphaq" || strContains l "alpha_q" then .alphaQ
  else if strContains l "aquifer" then .aquifer
  else if strContains l "aldrin" then .aldrinV2
  else .other

end DexKind

/-- The amount-independent directional parameter of a hop. -/
inductive DirectionParams where
  | none
  | aToB (b : Bool)
  | sideBid
  | sideAsk
  deriving DecidableEq, Hashable, Repr

/-- The first of the field's spellings that holds a boolean. -/
def firstBool (si : JsonFields) : List String → Option Bool
  | [] => .none
  | field :: fields =>
      match si.lookup field with
      | some (.bool b) => some b
      | _ => firstBool si fields

def extractDirection (dex : DexKind) (si : JsonFields) : DirectionParams :=
  match dex with
  | .whirlpool | .whirlpoolSwapV2 | .alphaQ =>
      match firstBool si ["a_to_b", "aToB", "atob", "a2b"] with
      | some b => .aToB b
      | Option.none => .none
  | .aldrinV2 =>
      match si.lookup "side" with
      | some (.string s) =>
          if toLowercase s = "bid" then .sideBid
          else if toLowercase s = "ask" then .sideAsk
          else .none
      | _ => .none
  | _ => .none

/-! ## Hop keys -/

structure HopKey where
  dex : DexKind
  poolOrAmmKey : String
  inputMint : String
  outputMint : String
  direction : DirectionParams
  remainingAccountsHash : UInt64
  deriving DecidableEq, Hashable, Repr

namespace HopKey

def fromSwapInfo (si : JsonFields) : Option HopKey := do
  let pool ← (si.lookup "ammKey").bind Json.asStr
  let input ← (si.lookup "inputMint").bind Json.asStr
  let output ← (si.lookup "outputMint").bind Json.asStr
  let label := ((si.lookup "label").bind Json.asStr).getD ""
  let dex := DexKind.fromLabel label
  some {
    dex := dex
    poolOrAmmKey := pool
    inputMint := input
    outputMint := output
    direction := extractDirection dex si
    remainingAccountsHash := 0 }

end HopKey

def DirectionParams.text : DirectionParams → String
  | .none => "none"
  | .aToB b => "a2b:" ++ toString b
  | .sideBid => "bid"
  | .sideAsk => "ask"

namespace HopKey

def templateId (key : HopKey) : String :=
  key.poolOrAmmKey ++ ":" ++ key.inputMint ++ ":" ++ key.outputMint ++ ":" ++
    key.direction.text ++ ":" ++ toString key.remainingAccountsHash

/-- What `template_id` keeps of a key: all but the DEX. -/
def pair (key : HopKey) : String × String × String × DirectionParams × UInt64 :=
  (key.poolOrAmmKey, key.inputMint, key.outputMint, key.direction, key.remainingAccountsHash)

/-- No `:` occurs in the pool or the mints, as in base58. -/
structure ColonFree (key : HopKey) : Prop where
  pool : ':' ∉ key.poolOrAmmKey.toList
  input : ':' ∉ key.inputMint.toList
  output : ':' ∉ key.outputMint.toList

/-- Neither separator of the text forms occurs in the pool or the mints. -/
structure Plain (key : HopKey) : Prop where
  pool : ':' ∉ key.poolOrAmmKey.toList ∧ '|' ∉ key.poolOrAmmKey.toList
  input : ':' ∉ key.inputMint.toList ∧ '|' ∉ key.inputMint.toList
  output : ':' ∉ key.outputMint.toList ∧ '|' ∉ key.outputMint.toList

theorem Plain.colonFree {key : HopKey} (plain : key.Plain) : key.ColonFree :=
  ⟨plain.pool.1, plain.input.1, plain.output.1⟩

end HopKey

/-! ## Reading the text forms back -/

theorem toList_toString_u64 (n : UInt64) : (toString n).toList = Nat.toDigits 10 n.toNat := by
  show (toString n.toNat).toList = _
  rw [Nat.toString_eq_ofList_toDigits, String.toList_ofList]

theorem not_digit_notMem {c : Char} (notDigit : c.isDigit = false) (n : UInt64) :
    c ∉ (toString n).toList := by
  rw [toList_toString_u64]
  intro member
  have digit := Nat.isDigit_of_mem_toDigits (by decide) (by decide) member
  rw [notDigit] at digit
  cases digit

theorem toString_u64_inj {m n : UInt64} (same : (toString m).toList = (toString n).toList) :
    m = n := by
  rw [toList_toString_u64, toList_toString_u64] at same
  have digits := congrArg (Nat.ofDigitChars 10 · 0) same
  simp only [Nat.ofDigitChars_ten_toDigits] at digits
  exact UInt64.toNat_inj.mp digits

namespace DirectionParams

/-- Reads the text form of a direction back. -/
def ofText (text : String) : DirectionParams :=
  if text = "a2b:true" then .aToB true
  else if text = "a2b:false" then .aToB false
  else if text = "bid" then .sideBid
  else if text = "ask" then .sideAsk
  else .none

theorem ofText_text (d : DirectionParams) : ofText d.text = d := by
  rcases d with _ | b | _ | _
  · decide
  · cases b <;> decide
  · decide
  · decide

theorem text_inj {d d' : DirectionParams} (same : d.text = d'.text) : d = d' := by
  rw [← ofText_text d, ← ofText_text d', same]

theorem pipe_notMem_text (d : DirectionParams) : '|' ∉ d.text.toList := by
  rcases d with _ | b | _ | _
  · decide
  · cases b <;> decide
  · decide
  · decide

/-- The direction and the hash after it are determined, although the direction text
may hold a `:` itself. -/
theorem text_append_inj {d d' : DirectionParams} {m n : UInt64}
    (same : d.text.toList ++ ':' :: (toString m).toList =
      d'.text.toList ++ ':' :: (toString n).toList) : d = d' ∧ m = n := by
  have colon : ∀ k : UInt64, ':' ∉ (toString k).toList := not_digit_notMem (by decide)
  -- The hash holds no separator, so the last `:` splits the text.
  have reversed := congrArg List.reverse same
  simp only [List.reverse_append, List.reverse_cons, List.append_assoc, List.singleton_append]
    at reversed
  obtain ⟨hashes, texts⟩ := append_cons_inj_left (by simpa using colon m)
    (by simpa using colon n) reversed
  exact ⟨text_inj (String.toList_inj.mp (List.reverse_inj.mp texts)),
    toString_u64_inj (List.reverse_inj.mp hashes)⟩

end DirectionParams

namespace HopKey

theorem toList_templateId (key : HopKey) :
    key.templateId.toList = key.poolOrAmmKey.toList ++ ':' :: (key.inputMint.toList ++
      ':' :: (key.outputMint.toList ++ ':' :: (key.direction.text.toList ++
        ':' :: (toString key.remainingAccountsHash).toList))) := by
  simp [templateId, String.toList_append]

/-- `template_id` tells apart all keys that differ in anything but the DEX. -/
theorem ColonFree.pair_eq {key key' : HopKey} (free : key.ColonFree) (free' : key'.ColonFree)
    (same : key.templateId = key'.templateId) : key.pair = key'.pair := by
  have chars := congrArg String.toList same
  rw [toList_templateId, toList_templateId] at chars
  obtain ⟨pool, chars⟩ := append_cons_inj_left free.pool free'.pool chars
  obtain ⟨input, chars⟩ := append_cons_inj_left free.input free'.input chars
  obtain ⟨output, chars⟩ := append_cons_inj_left free.output free'.output chars
  obtain ⟨direction, hash⟩ := DirectionParams.text_append_inj chars
  simp only [pair, String.toList_inj.mp pool, String.toList_inj.mp input,
    String.toList_inj.mp output, direction, hash]

theorem templateId_inj {key key' : HopKey} (plain : key.Plain) (plain' : key'.Plain)
    (same : key.templateId = key'.templateId) : key.pair = key'.pair :=
  plain.colonFree.pair_eq plain'.colonFree same

theorem pipe_notMem_templateId {key : HopKey} (plain : key.Plain) :
    '|' ∉ key.templateId.toList := by
  have hash : '|' ∉ (toString key.remainingAccountsHash).toList :=
    not_digit_notMem (by decide) _
  rw [toList_templateId]
  simp only [List.mem_append, List.mem_cons, not_or]
  exact ⟨plain.pool.2, by decide, plain.input.2, by decide, plain.output.2, by decide,
    key.direction.pipe_notMem_text, by decide, hash⟩

end HopKey

/-! ## Hop pairs -/

/-- The key of a hop in a route plan. -/
def hopKey (hop : Json) : Option HopKey :=
  (swapInfo hop).bind HopKey.fromSwapInfo

/-- The key of the hop-pair index: `"hop1_id|hop2_id"`, for plans of two hops that
both parse. -/
def pairKey (routePlan : Json) : Option String := do
  let hops ← routePlan.asArray
  match hops with
  | [hop0, hop1] =>
      let id0 ← (hopKey hop0).map HopKey.templateId
      let id1 ← (hopKey hop1).map HopKey.templateId
      some (id0 ++ "|" ++ id1)
  | _ => none

theorem pairKey_eq_some {routePlan : Json} {key : String}
    (found : pairKey routePlan = some key) :
    ∃ hop0 hop1 key0 key1, routePlan = .array [hop0, hop1] ∧ hopKey hop0 = some key0 ∧
      hopKey hop1 = some key1 ∧ key = key0.templateId ++ "|" ++ key1.templateId := by
  unfold pairKey at found
  cases routePlan with
  | array hops =>
      rcases hops with _ | ⟨hop0, _ | ⟨hop1, _ | ⟨hop2, rest⟩⟩⟩ <;>
        simp [Json.asArray, Option.bind_eq_some_iff] at found
      obtain ⟨key0, found0, key1, found1, rfl⟩ := found
      exact ⟨hop0, hop1, key0, key1, rfl, found0, found1, rfl⟩
  | _ => simp [Json.asArray] at found

/-- Equal index keys come from equal pairs of `template_id`s, hop by hop. -/
theorem pairKey_inj {key0 key1 key0' key1' : HopKey} (plain : key0.Plain)
    (plain' : key0'.Plain)
    (same : key0.templateId ++ "|" ++ key1.templateId =
      key0'.templateId ++ "|" ++ key1'.templateId) :
    key0.templateId = key0'.templateId ∧ key1.templateId = key1'.templateId := by
  have chars := congrArg String.toList same
  have pipe : ("|" : String).toList = ['|'] := rfl
  simp only [String.toList_append, pipe, List.append_assoc, List.singleton_append] at chars
  obtain ⟨first, second⟩ := append_cons_inj_left (HopKey.pipe_notMem_templateId plain)
    (HopKey.pipe_notMem_templateId plain') chars
  exact ⟨String.toList_inj.mp first, String.toList_inj.mp second⟩

end ArbBot
