import ArbBot.TemplateStore

/-!
# Routes on disk

`routes.json` keeps the base instruction of every route and the hop-pair index, with
signatures as decimal strings. Loading fills in the routes that are not live and the
pairs that are not indexed.

* `segments_loadRoutesFromDisk` makes a load one `fillAll` of the loadable records.
* `hopPairIndex_loadRoutesFromDisk` says which entry the index holds afterwards.
* `Snapshot.mem_entries` and `Snapshot.pairSig` say what a flushed file gives back.
-/

namespace ArbBot

open Foundation

/-! ## The disk format -/

structure RouteRecord where
  sig : String
  swapIxs : SwapInstructionsResponse
  templateInAmount : UInt64
  templateQuotedOut : UInt64
  inAmountOffset : Option Nat
  quotedOutOffset : Option Nat
  seenCount : UInt64
  hitCount : UInt64
  deriving DecidableEq

structure RouteFile where
  schemaVersion : UInt32
  routes : List RouteRecord
  hopPairs : Std.HashMap String String

/-- `u128::to_string`. -/
def sigText (sig : U128) : String := toString sig.toNat

/-- `str::parse::<u128>`. -/
def parseSig (text : String) : Option U128 :=
  (parseUnsigned (2 ^ 128) text).map (BitVec.ofNat 128)

theorem parseSig_sigText (sig : U128) : parseSig (sigText sig) = some sig := by
  rw [parseSig, sigText, parseUnsigned_toString sig.isLt, Option.map_some, BitVec.ofNat_toNat,
    BitVec.setWidth_eq]

namespace RouteRecord

def fromTemplate (t : RouteTemplate) : RouteRecord where
  sig := sigText t.routeSignature
  swapIxs := t.swapIxs
  templateInAmount := t.templateInAmount
  templateQuotedOut := t.templateQuotedOut
  inAmountOffset := t.inAmountOffset
  quotedOutOffset := t.quotedOutOffset
  seenCount := t.seenCount
  hitCount := t.hitCount

/-- The template `load_routes_from_disk` builds from a record. -/
def toTemplate (rec : RouteRecord) (sig : U128) : RouteTemplate where
  routeSignature := sig
  swapIxs := rec.swapIxs
  templateInAmount := rec.templateInAmount
  templateQuotedOut := rec.templateQuotedOut
  inAmountOffset := rec.inAmountOffset
  quotedOutOffset := rec.quotedOutOffset
  amountVariants := ∅
  seenCount := rec.seenCount
  hitCount := rec.hitCount

/-- The route of a record whose signature parses. -/
def entry (rec : RouteRecord) : Option (U128 × RouteTemplate) :=
  (parseSig rec.sig).map fun sig => (sig, rec.toTemplate sig)

end RouteRecord

/-- A template without its per-amount cache, which is not persisted. -/
def RouteTemplate.cold (t : RouteTemplate) : RouteTemplate :=
  { t with amountVariants := ∅ }

theorem RouteRecord.entry_fromTemplate (t : RouteTemplate) :
    (RouteRecord.fromTemplate t).entry = some (t.routeSignature, t.cold) := by
  rw [entry, show (fromTemplate t).sig = sigText t.routeSignature from rfl, parseSig_sigText]
  rfl

/-- The loadable routes of a file, in file order. -/
def RouteFile.entries (file : RouteFile) : List (U128 × RouteTemplate) :=
  file.routes.filterMap RouteRecord.entry

/-! ## Loading -/

/-- One record: skipped when its signature does not parse or is already live. -/
def loadRecord (state : StoreInner × Nat) (rec : RouteRecord) : StoreInner × Nat :=
  let (g, count) := state
  match parseSig rec.sig with
  | none => (g, count)
  | some sig =>
      if g.routesHot.contains sig || g.routesCold.contains sig then (g, count)
      else ({ g with routesHot := g.routesHot.insert sig (rec.toTemplate sig) }, count + 1)

/-- One entry of the persisted hop-pair index. -/
def loadPair (index : Std.HashMap String U128) (pair : String × String) :
    Std.HashMap String U128 :=
  match parseSig pair.2 with
  | some sig => index.insertIfNew pair.1 sig
  | none => index

/-- `load_routes_from_disk` on a file that reads and parses: the number of loaded
routes and the store. -/
def loadRoutesFromDisk (g : StoreInner) (file : RouteFile) : Nat × StoreInner :=
  let (g, count) := file.routes.foldl loadRecord (g, 0)
  (count, { g with hopPairIndex := file.hopPairs.toList.foldl loadPair g.hopPairIndex })

/-! ## Flushing -/

/-- The content `flush_routes_to_disk` writes. -/
def flushRoutes (g : StoreInner) : RouteFile where
  schemaVersion := 1
  routes :=
    (g.routesHot.toList ++ g.routesCold.toList).map fun route =>
      RouteRecord.fromTemplate route.2
  hopPairs := g.hopPairIndex.map fun _ sig => sigText sig

/-- A file a flush may write: the iteration order of the maps is not specified. -/
structure Snapshot (g : StoreInner) (file : RouteFile) : Prop where
  routes : file.routes.Perm (flushRoutes g).routes
  hopPairs : ∀ key : String, file.hopPairs[key]? = (flushRoutes g).hopPairs[key]?

theorem snapshot_flushRoutes (g : StoreInner) : Snapshot g (flushRoutes g) where
  routes := List.Perm.refl _
  hopPairs _ := rfl

/-! ## What a load does -/

theorem loadRecord_eq (g : StoreInner) (count : Nat) (rec : RouteRecord) :
    (loadRecord (g, count) rec).1 =
      match rec.entry with
      | some (sig, tmpl) => g.withSegments (g.segments.fill sig tmpl)
      | none => g := by
  unfold loadRecord RouteRecord.entry
  cases parsed : parseSig rec.sig with
  | none => rfl
  | some sig =>
      simp only [Option.map_some]
      unfold Segments.fill
      cases found : g.segments.find sig with
      | some t =>
          have live := (Segments.holds_of_find found).live
          have known : (g.routesHot.contains sig || g.routesCold.contains sig) = true := by
            rw [Bool.or_eq_true, ← Std.HashMap.mem_iff_contains, ← Std.HashMap.mem_iff_contains]
            exact live
          rw [if_pos known]
          rfl
      | none =>
          have fresh := Segments.find_eq_none_iff.mp found
          have unknown : ¬ (g.routesHot.contains sig || g.routesCold.contains sig) = true := by
            rw [Bool.or_eq_true, ← Std.HashMap.mem_iff_contains, ← Std.HashMap.mem_iff_contains]
            exact fresh
          rw [if_neg unknown]
          rfl

theorem foldl_loadRecord (routes : List RouteRecord) (g : StoreInner) (count : Nat) :
    (routes.foldl loadRecord (g, count)).1 =
      g.withSegments (g.segments.fillAll (routes.filterMap RouteRecord.entry)) := by
  induction routes generalizing g count with
  | nil => rfl
  | cons rec rest ih =>
      rcases next : loadRecord (g, count) rec with ⟨g', count'⟩
      have step : g' = (loadRecord (g, count) rec).1 := by rw [next]
      rw [List.foldl_cons, next, ih, step, loadRecord_eq]
      cases found : rec.entry with
      | none => rw [List.filterMap_cons_none found]
      | some entry => rw [List.filterMap_cons_some found]; rfl

/-- A load fills in the loadable routes of the file. -/
theorem segments_loadRoutesFromDisk (g : StoreInner) (file : RouteFile) :
    (loadRoutesFromDisk g file).2.segments = g.segments.fillAll file.entries := by
  have filled := congrArg StoreInner.segments (foldl_loadRecord file.routes g 0)
  exact filled

/-- The index entry a file holds for a pair. -/
def RouteFile.pairSig (file : RouteFile) (key : String) : Option U128 :=
  file.hopPairs[key]?.bind parseSig

theorem foldl_loadPair (pairs : List (String × String)) (index : Std.HashMap String U128) :
    pairs.foldl loadPair index =
      (Segments.mapValues parseSig pairs).foldl
        (fun index entry => index.insertIfNew entry.1 entry.2) index := by
  induction pairs generalizing index with
  | nil => rfl
  | cons pair rest ih =>
      rw [List.foldl_cons, ih]
      unfold loadPair Segments.mapValues
      cases parsed : parseSig pair.2 with
      | none => rw [List.filterMap_cons_none (by rw [parsed]; rfl)]
      | some sig =>
          rw [List.filterMap_cons_some (b := (pair.1, sig)) (by rw [parsed]; rfl),
            List.foldl_cons]

/-- After a load the index holds its old entry of a pair or, if there was none, that
of the file. -/
theorem hopPairIndex_loadRoutesFromDisk (g : StoreInner) (file : RouteFile) (key : String) :
    (loadRoutesFromDisk g file).2.hopPairIndex[key]? =
      match g.hopPairIndex[key]? with
      | some sig => some sig
      | none => file.pairSig key := by
  have index : (loadRoutesFromDisk g file).2.hopPairIndex =
      file.hopPairs.toList.foldl loadPair g.hopPairIndex := by
    have kept := congrArg StoreInner.hopPairIndex (foldl_loadRecord file.routes g 0)
    exact congrArg (file.hopPairs.toList.foldl loadPair ·) kept
  rw [index, foldl_loadPair, Segments.getElem?_foldl_insertIfNew,
    Segments.lookup_mapValues_toList, RouteFile.pairSig]
  cases g.hopPairIndex[key]? <;> rfl

/-! ## What a flushed file gives back -/

/-- The loadable routes of a flushed file are the held templates without their
per-amount cache, under the signature they carry. -/
theorem Snapshot.mem_entries {g : StoreInner} {file : RouteFile} (snapshot : Snapshot g file)
    {sig : U128} {tmpl : RouteTemplate} :
    (sig, tmpl) ∈ file.entries ↔
      ∃ key t, g.segments.Holds key t ∧ t.routeSignature = sig ∧ t.cold = tmpl := by
  have held : ∀ route : U128 × RouteTemplate,
      route ∈ g.routesHot.toList ++ g.routesCold.toList ↔ g.segments.Holds route.1 route.2 := by
    intro route
    rw [List.mem_append, Std.HashMap.mem_toList_iff_getElem?_eq_some,
      Std.HashMap.mem_toList_iff_getElem?_eq_some]
    rfl
  have records : (sig, tmpl) ∈ file.entries ↔
      ∃ rec ∈ (flushRoutes g).routes, rec.entry = some (sig, tmpl) := by
    rw [RouteFile.entries, List.mem_filterMap]
    simp only [snapshot.routes.mem_iff]
  rw [records]
  constructor
  · intro found
    rcases found with ⟨rec, member, entry⟩
    rcases List.mem_map.mp member with ⟨route, routeMember, same⟩
    rw [← same, RouteRecord.entry_fromTemplate, Option.some.injEq, Prod.mk.injEq] at entry
    exact ⟨route.1, route.2, (held route).mp routeMember, entry⟩
  · intro found
    rcases found with ⟨key, t, holds, rfl, rfl⟩
    exact ⟨_, List.mem_map.mpr ⟨(key, t), (held (key, t)).mpr holds, rfl⟩,
      RouteRecord.entry_fromTemplate t⟩

/-- The persisted hop-pair index reads back as it was. -/
theorem Snapshot.pairSig {g : StoreInner} {file : RouteFile} (snapshot : Snapshot g file)
    (key : String) : file.pairSig key = g.hopPairIndex[key]? := by
  rw [RouteFile.pairSig, snapshot.hopPairs, flushRoutes, Std.HashMap.getElem?_map]
  cases g.hopPairIndex[key]? with
  | none => rfl
  | some sig => exact parseSig_sigText sig

end ArbBot
