import ArbBot.Persistence.HopFiles

/-!
# The sightings of a hop

Metis tasks call `record_hops` in the order in which they finish, each under the write lock
of the store. `HopWorld` keeps beside the hops and their files the slots of all sightings of
a hop, in that order: `seen` for the store, `saved` for the files.

* `hop_sightings`: a template counts its sightings and has the slots of the first and the
  last of them, through any flushes, restarts and loads.
* `extreme_iff`: these slots are the least and the greatest known ones just when no call
  carries an older slot than a sighting before it.
-/

namespace ArbBot

open Foundation

/-! ## Templates of sightings -/

/-- How often a plan goes through a hop. -/
def occurrences (routePlan : Json) (key : HopKey) : Nat := (hopKeys routePlan).count (some key)

/-- The template of a hop after the given sightings, oldest first. -/
def sighted (key : HopKey) : List (Option UInt64) → Option HopTemplate
  | [] => none
  | first :: later => some {
      dex := key.dex
      poolOrAmmKey := key.poolOrAmmKey
      inputMint := key.inputMint
      outputMint := key.outputMint
      direction := key.direction
      remainingAccountsHash := key.remainingAccountsHash
      seenCount := UInt64.ofNat (later.length + 1)
      firstSeenSlot := first
      lastSeenSlot := later.getLastD first }

/-- Every hop of the map is the template of its sightings. -/
def AllSighted (hops : Std.HashMap HopKey HopTemplate) (seen : HopKey → List (Option UInt64)) :
    Prop :=
  ∀ key : HopKey, hops[key]? = sighted key (seen key)

section Sighted

variable {hops : Std.HashMap HopKey HopTemplate} {seen : HopKey → List (Option UInt64)}
  {key : HopKey} {tmpl : HopTemplate} {slots : List (Option UInt64)}

theorem sighted_cases (found : sighted key slots = some tmpl) :
    tmpl.key = key ∧ tmpl.seenCount = UInt64.ofNat slots.length ∧
      slots.head? = some tmpl.firstSeenSlot ∧ slots.getLast? = some tmpl.lastSeenSlot := by
  cases slots with
  | nil => cases found
  | cons first later =>
      cases found
      refine ⟨rfl, rfl, rfl, ?_⟩
      rw [List.getLast?_cons, List.getLastD_eq_getLast?]

theorem sighted_eq_none_iff : sighted key slots = none ↔ slots = [] := by
  cases slots <;> simp [sighted]

theorem AllSighted.keyed (all : AllSighted hops seen) : Keyed hops := by
  intro key tmpl found
  rw [all key] at found
  exact (sighted_cases found).1

/-- The entry `record_hops` makes for a new hop. -/
def unseen (key : HopKey) (contextSlot : Option UInt64) : HopTemplate where
  dex := key.dex
  poolOrAmmKey := key.poolOrAmmKey
  inputMint := key.inputMint
  outputMint := key.outputMint
  direction := key.direction
  remainingAccountsHash := key.remainingAccountsHash
  seenCount := 0
  firstSeenSlot := contextSlot
  lastSeenSlot := contextSlot

/-- One more sighting counts and leaves its slot. -/
theorem sighted_snoc (key : HopKey) (slots : List (Option UInt64)) (slot : Option UInt64) :
    sighted key (slots ++ [slot]) =
      let ent := (sighted key slots).getD (unseen key slot)
      some { ent with seenCount := ent.seenCount + 1, lastSeenSlot := slot } := by
  cases slots with
  | nil => rfl
  | cons first later =>
      simp only [List.cons_append, sighted, Option.getD_some, List.length_append,
        List.length_singleton, List.getLastD_concat]
      rw [UInt64.ofNat_add]
      rfl

theorem AllSighted.recordHop (all : AllSighted hops seen) (contextSlot : Option UInt64)
    (hop : Json) : AllSighted (recordHop contextSlot hops hop)
      fun key => seen key ++ if hopKey hop = some key then [contextSlot] else [] := by
  intro key
  unfold ArbBot.recordHop
  cases parsed : hopKey hop with
  | none => simpa using all key
  | some key' =>
      dsimp only
      rw [Std.HashMap.getElem?_insert]
      by_cases same : key' = key
      · subst same
        rw [if_pos BEq.rfl, if_pos rfl, sighted_snoc, ← all key', Std.HashMap.getD_eq_getD_getElem?]
        rfl
      · rw [if_neg (by simpa using same), if_neg (by simpa using same), List.append_nil]
        exact all key

theorem AllSighted.foldl_recordHop (all : AllSighted hops seen) (contextSlot : Option UInt64)
    (plan : List Json) : AllSighted (plan.foldl (ArbBot.recordHop contextSlot) hops)
      fun key => seen key ++ List.replicate ((plan.map hopKey).count (some key)) contextSlot := by
  induction plan generalizing hops seen with
  | nil =>
      intro key
      simpa using all key
  | cons hop rest ih =>
      intro key
      rw [List.foldl_cons, ih (all.recordHop contextSlot hop) key]
      dsimp only
      rw [List.append_assoc, List.map_cons, List.count_cons]
      by_cases here : hopKey hop = some key
      · simp [here, List.replicate_succ]
      · simp [here]

/-- A call sees each hop as often as its plan goes through it. -/
theorem AllSighted.recordHops {g : StoreInner} (all : AllSighted g.hops seen) (routePlan : Json)
    (contextSlot : Option UInt64) : AllSighted (recordHops g routePlan contextSlot).hops
      fun key => seen key ++ List.replicate (occurrences routePlan key) contextSlot := by
  unfold ArbBot.recordHops occurrences hopKeys
  cases routePlan.asArray with
  | none =>
      intro key
      simpa using all key
  | some plan => exact all.foldl_recordHop contextSlot plan

end Sighted

/-! ## Runs -/

/-- The hops, their files and the slots of their sightings. -/
structure HopWorld where
  store : StoreInner
  disk : List HopEntry
  seen : HopKey → List (Option UInt64)
  saved : HopKey → List (Option UInt64)

inductive HopCall where
  /-- A Metis task completes its call. -/
  | recordHops (routePlan : Json) (contextSlot : Option UInt64)
  | flush (entries : List HopEntry)
  | restart
  | load

namespace HopWorld

/-- A first process that finds no file. -/
def initial : HopWorld where
  store := .new
  disk := []
  seen _ := []
  saved _ := []

def recordHops (w : HopWorld) (routePlan : Json) (contextSlot : Option UInt64) : HopWorld :=
  { w with
    store := ArbBot.recordHops w.store routePlan contextSlot
    seen := fun key => w.seen key ++ List.replicate (occurrences routePlan key) contextSlot }

/-- `load_from_disk`; a hop that is read has the sightings of its row. -/
def load (w : HopWorld) : HopWorld :=
  { w with
    store := (loadFromDisk w.store w.disk).2
    seen := fun key =>
      match w.store.hops[key]?, (readHops w.disk).lookup key with
      | none, some _ => w.saved key
      | _, _ => w.seen key }

/-- The hops are the templates of their sightings, and so are the rows of the files. -/
structure Sound (w : HopWorld) : Prop where
  store : AllSighted w.store.hops w.seen
  disk : ∀ key tmpl, (key, tmpl) ∈ readHops w.disk → sighted key (w.saved key) = some tmpl

end HopWorld

def hopCallStep (w : HopWorld) : HopCall → HopWorld → Prop
  | .recordHops routePlan contextSlot, w' => w' = w.recordHops routePlan contextSlot
  | .flush entries, w' =>
      HopSnapshot w.store entries ∧ w' = { w with disk := entries, saved := w.seen }
  | .restart, w' => w' = { w with store := .new, seen := fun _ => [] }
  | .load, w' => w' = w.load

/-- Any calls, from the first process on. -/
def hopCalls : Machine HopWorld HopCall where
  start w := w = .initial
  step := hopCallStep

section Step

variable {w w' : HopWorld} {call : HopCall} {key : HopKey}

theorem allSighted_new : AllSighted StoreInner.new.hops fun _ => [] :=
  fun _ => Std.HashMap.getElem?_empty

theorem HopWorld.Sound.load (sound : w.Sound) : w.load.Sound where
  store key := by
    show (loadFromDisk w.store w.disk).2.hops[key]? = sighted key _
    rw [hops_loadFromDisk]
    cases old : w.store.hops[key]? with
    | some tmpl =>
        simp only [HopWorld.load, old]
        exact old.symm.trans (sound.store key)
    | none =>
        cases row : (readHops w.disk).lookup key with
        | some tmpl =>
            simp only [HopWorld.load, old, row]
            exact (sound.disk key tmpl (Segments.mem_of_lookup row)).symm
        | none =>
            simp only [HopWorld.load, old, row]
            exact old.symm.trans (sound.store key)
  disk := sound.disk

theorem HopWorld.Sound.step (sound : w.Sound) (taken : hopCallStep w call w') : w'.Sound := by
  cases call with
  | recordHops routePlan contextSlot =>
      subst taken
      exact ⟨sound.store.recordHops routePlan contextSlot, sound.disk⟩
  | flush entries =>
      rcases taken with ⟨snapshot, rfl⟩
      refine ⟨sound.store, fun key tmpl member => ?_⟩
      exact (sound.store key).symm.trans (snapshot.of_mem_readHops sound.store.keyed member)
  | restart =>
      subst taken
      exact ⟨allSighted_new, sound.disk⟩
  | load =>
      subst taken
      exact sound.load

theorem sound_of_reach (reached : hopCalls.Reach Machine.anyStep w) : w.Sound := by
  refine reached.invariant HopWorld.Sound ?_ ?_
  · intro w started
    obtain rfl := started
    exact ⟨allSighted_new, fun _ _ member => (List.not_mem_nil member).elim⟩
  · exact fun _ _ _ sound _ taken => sound.step taken

end Step

/-- The hops after a call, whatever calls came before. -/
theorem sighted_recordHops {w : HopWorld} (reached : hopCalls.Reach Machine.anyStep w)
    (routePlan : Json) (contextSlot : Option UInt64) (key : HopKey) :
    (recordHops w.store routePlan contextSlot).hops[key]? =
      sighted key (w.seen key ++ List.replicate (occurrences routePlan key) contextSlot) :=
  (sound_of_reach reached).store.recordHops routePlan contextSlot key

/-- **What the slots of a hop are.** Whatever the calls carry and in whatever order they
complete, a template counts its sightings and has the slots of the first and the last of
them; the next call that sees the hop replaces the last one. -/
theorem hop_sightings {w : HopWorld} (reached : hopCalls.Reach Machine.anyStep w) (key : HopKey) :
    ((w.store.hops[key]? = none ∧ w.seen key = []) ∨
      ∃ tmpl, w.store.hops[key]? = some tmpl ∧
        tmpl.seenCount = UInt64.ofNat (w.seen key).length ∧
          (w.seen key).head? = some tmpl.firstSeenSlot ∧
            (w.seen key).getLast? = some tmpl.lastSeenSlot) ∧
    ∀ routePlan contextSlot, 0 < occurrences routePlan key →
      ∃ tmpl, (recordHops w.store routePlan contextSlot).hops[key]? = some tmpl ∧
        tmpl.lastSeenSlot = contextSlot := by
  constructor
  · have sound := (sound_of_reach reached).store key
    cases found : w.store.hops[key]? with
    | none =>
        rw [found] at sound
        exact Or.inl ⟨rfl, sighted_eq_none_iff.mp sound.symm⟩
    | some tmpl =>
        rw [found] at sound
        exact Or.inr ⟨tmpl, rfl, (sighted_cases sound.symm).2⟩
  · intro routePlan contextSlot positive
    have after := sighted_recordHops reached routePlan contextSlot key
    cases found : (recordHops w.store routePlan contextSlot).hops[key]? with
    | none =>
        rw [found] at after
        have empty := (List.append_eq_nil_iff.mp (sighted_eq_none_iff.mp after.symm)).2
        rw [List.replicate_eq_nil_iff] at empty
        omega
    | some tmpl =>
        rw [found] at after
        rcases sighted_cases after.symm with ⟨-, -, -, tail⟩
        rw [List.getLast?_append, List.getLast?_replicate, if_neg (by omega),
          Option.some_or] at tail
        exact ⟨tmpl, rfl, (Option.some.inj tail).symm⟩

/-! ### Calls that complete out of the order of their slots -/

/-- The first hop of the plan labelled Raydium. -/
def raydiumHop : HopKey := ⟨.raydiumV2, "Alpha", "Wsol", "Token", .none, 0⟩

theorem occurrences_raydiumHop : occurrences (circularPlan "Raydium") raydiumHop = 1 := by
  rw [occurrences, hopKeys_raydium]
  decide

theorem reach_recordHops {w : HopWorld} (reached : hopCalls.Reach Machine.anyStep w)
    (routePlan : Json) (contextSlot : Option UInt64) :
    hopCalls.Reach Machine.anyStep (w.recordHops routePlan contextSlot) :=
  reached.step (i := .recordHops routePlan contextSlot) trivial rfl

theorem seen_raydiumHop (w : HopWorld) (contextSlot : Option UInt64) :
    (w.recordHops (circularPlan "Raydium") contextSlot).seen raydiumHop =
      w.seen raydiumHop ++ [contextSlot] := by
  show _ ++ List.replicate (occurrences (circularPlan "Raydium") raydiumHop) contextSlot = _
  rw [occurrences_raydiumHop]
  rfl

/-- Two calls from the first process on. -/
theorem seen_twice (slot slot' : Option UInt64) :
    ((HopWorld.initial.recordHops (circularPlan "Raydium") slot).recordHops
      (circularPlan "Raydium") slot').seen raydiumHop = [slot, slot'] := by
  rw [seen_raydiumHop, seen_raydiumHop]
  rfl

theorem reach_twice (slot slot' : Option UInt64) : hopCalls.Reach Machine.anyStep
    ((HopWorld.initial.recordHops (circularPlan "Raydium") slot).recordHops
      (circularPlan "Raydium") slot') :=
  reach_recordHops (reach_recordHops (.ofStart rfl) _ slot) _ slot'

/-- A call without a slot, then one with a slot. -/
theorem hop_sightings_raydium :
    ∃ w tmpl, hopCalls.Reach Machine.anyStep w ∧ w.store.hops[raydiumHop]? = some tmpl ∧
      tmpl.seenCount = 2 ∧ tmpl.firstSeenSlot = none ∧ tmpl.lastSeenSlot = some 7 := by
  have slots := seen_twice none (some 7)
  rcases (hop_sightings (reach_twice none (some 7)) raydiumHop).1 with
    ⟨-, empty⟩ | ⟨tmpl, found, count, head, tail⟩
  · rw [slots] at empty
    cases empty
  · rw [slots] at count head tail
    exact ⟨_, tmpl, reach_twice none (some 7), found, count, (Option.some.inj head).symm,
      (Option.some.inj tail).symm⟩

/-- A call for slot 5 completes after one for slot 10, and then one without a slot. -/
theorem slots_of_completion :
    ∃ w tmpl, hopCalls.Reach Machine.anyStep w ∧ w.seen raydiumHop = [some 10, some 5] ∧
      w.store.hops[raydiumHop]? = some tmpl ∧
      tmpl.firstSeenSlot = some 10 ∧ tmpl.lastSeenSlot = some 5 ∧
      ∃ tmpl', (recordHops w.store (circularPlan "Raydium") none).hops[raydiumHop]? =
        some tmpl' ∧ tmpl'.lastSeenSlot = none := by
  have reached := reach_twice (some 10) (some 5)
  have slots := seen_twice (some 10) (some 5)
  have found := (sound_of_reach reached).store raydiumHop
  have after := sighted_recordHops reached (circularPlan "Raydium") none raydiumHop
  rw [slots] at found after
  rw [occurrences_raydiumHop] at after
  exact ⟨_, _, reached, slots, found, rfl, rfl, _, after, rfl⟩

/-! ## Least and greatest slots -/

/-- The least known slot of the sightings, if any is known. -/
def LeastKnown (slots : List (Option UInt64)) : Option UInt64 → Prop
  | none => ∀ slot ∈ slots, slot = none
  | some n => some n ∈ slots ∧ ∀ m, some m ∈ slots → n ≤ m

/-- The greatest known slot of the sightings, if any is known. -/
def GreatestKnown (slots : List (Option UInt64)) : Option UInt64 → Prop
  | none => ∀ slot ∈ slots, slot = none
  | some n => some n ∈ slots ∧ ∀ m, some m ∈ slots → m ≤ n

/-- The first and the last slot are the least and the greatest known one. -/
def Extreme (slots : List (Option UInt64)) : Prop :=
  ∀ first last, slots.head? = some first → slots.getLast? = some last →
    LeastKnown slots first ∧ GreatestKnown slots last

/-- A call is not older than the sighting before it: known slots do not decrease, and
either both slots are known or none is. -/
def Follows : Option UInt64 → Option UInt64 → Prop
  | none, none => True
  | some a, some b => a ≤ b
  | _, _ => False

section Extreme

variable {slots : List (Option UInt64)} {last slot : Option UInt64} {n : Nat}

theorem extreme_nil : Extreme [] := by
  intro first last head
  cases head

theorem extreme_iff {first : Option UInt64} (head : slots.head? = some first)
    (tail : slots.getLast? = some last) :
    Extreme slots ↔ LeastKnown slots first ∧ GreatestKnown slots last := by
  constructor
  · intro extreme
    exact extreme first last head tail
  · intro both first' last' head' tail'
    obtain rfl := Option.some.inj (head.symm.trans head')
    obtain rfl := Option.some.inj (tail.symm.trans tail')
    exact both

/-- Sightings with one slot. -/
theorem extreme_replicate : Extreme (List.replicate n slot) := by
  intro first last head tail
  have one : ∀ {other}, other ∈ List.replicate n slot → other = slot :=
    fun member => List.eq_of_mem_replicate member
  obtain rfl := one (List.mem_of_head? head)
  obtain rfl := one (List.mem_of_getLast? tail)
  cases last with
  | none => exact ⟨fun _ => one, fun _ => one⟩
  | some a =>
      have member := List.mem_of_head? head
      refine ⟨⟨member, fun m known => ?_⟩, member, fun m known => ?_⟩
      · rw [Option.some.inj (one known)]
        exact UInt64.le_refl a
      · rw [Option.some.inj (one known)]
        exact UInt64.le_refl a

/-- Further sightings keep the ends extreme just when their slot follows the last one. -/
theorem extreme_append_iff (positive : 0 < n) (before : Extreme slots)
    (tail : slots.getLast? = some last) :
    Extreme (slots ++ List.replicate n slot) ↔ Follows last slot := by
  have nonempty : slots ≠ [] := List.ne_nil_of_mem (List.mem_of_getLast? tail)
  obtain ⟨first, head⟩ : ∃ first, slots.head? = some first :=
    ⟨_, List.head?_eq_some_head nonempty⟩
  have head' : (slots ++ List.replicate n slot).head? = some first := by
    rw [List.head?_append, head, Option.some_or]
  have tail' : (slots ++ List.replicate n slot).getLast? = some slot := by
    rw [List.getLast?_append, List.getLast?_replicate, if_neg (by omega), Option.some_or]
  have mem : ∀ other, other ∈ slots ++ List.replicate n slot ↔ other ∈ slots ∨ other = slot := by
    intro other
    rw [List.mem_append, List.mem_replicate]
    exact or_congr_right ⟨fun given => given.2, fun same => ⟨by omega, same⟩⟩
  rcases before first last head tail with ⟨least, greatest⟩
  rw [extreme_iff head' tail']
  cases first with
  | none =>
      -- No slot has been known so far.
      obtain rfl := least last (List.mem_of_getLast? tail)
      cases slot with
      | none =>
          refine iff_of_true ⟨?_, ?_⟩ trivial
          · exact fun other member => ((mem other).mp member).elim (least other) id
          · exact fun other member => ((mem other).mp member).elim (least other) id
      | some b =>
          refine iff_of_false (fun both => ?_) id
          cases both.1 (some b) ((mem _).mpr (Or.inr rfl))
  | some a =>
      cases last with
      | none => cases greatest (some a) (List.mem_of_head? head)
      | some b =>
          cases slot with
          | none =>
              refine iff_of_false (fun both => ?_) id
              cases both.2 (some a) ((mem _).mpr (Or.inl least.1))
          | some c =>
              constructor
              · intro both
                exact both.2.2 b ((mem _).mpr (Or.inl greatest.1))
              · intro later
                have least' := least.2 b greatest.1
                refine ⟨⟨(mem _).mpr (Or.inl least.1), fun m known => ?_⟩,
                  (mem _).mpr (Or.inr rfl), fun m known => ?_⟩
                · rcases (mem _).mp known with old | new
                  · exact least.2 m old
                  · obtain rfl := Option.some.inj new
                    exact UInt64.le_trans least' later
                · rcases (mem _).mp known with old | new
                  · exact UInt64.le_trans (greatest.2 m old) later
                  · obtain rfl := Option.some.inj new
                    exact UInt64.le_refl m

end Extreme

/-- The slots of every template are the least and the greatest known ones, in the store and
in the files. -/
structure HopWorld.SlotsExtreme (w : HopWorld) : Prop where
  store : ∀ key : HopKey, ∀ tmpl, w.store.hops[key]? = some tmpl →
    LeastKnown (w.seen key) tmpl.firstSeenSlot ∧ GreatestKnown (w.seen key) tmpl.lastSeenSlot
  disk : ∀ key tmpl, (key, tmpl) ∈ readHops w.disk →
    LeastKnown (w.saved key) tmpl.firstSeenSlot ∧ GreatestKnown (w.saved key) tmpl.lastSeenSlot

/-- The call follows the last sighting of each known hop of its plan. -/
def CallsFollow (w : HopWorld) : HopCall → Prop
  | .recordHops routePlan contextSlot =>
      ∀ key : HopKey, 0 < occurrences routePlan key → ∀ tmpl, w.store.hops[key]? = some tmpl →
        Follows tmpl.lastSeenSlot contextSlot
  | _ => True

section Slots

variable {w w' : HopWorld} {call : HopCall} {key : HopKey}

/-- The ends of the sightings stand in the template. -/
theorem extreme_iff_of_sighted {slots : List (Option UInt64)} {tmpl : HopTemplate}
    (found : sighted key slots = some tmpl) :
    Extreme slots ↔
      LeastKnown slots tmpl.firstSeenSlot ∧ GreatestKnown slots tmpl.lastSeenSlot := by
  rcases sighted_cases found with ⟨-, -, head, tail⟩
  exact extreme_iff head tail

theorem HopWorld.Sound.extreme (sound : w.Sound) (extreme : w.SlotsExtreme) (key : HopKey) :
    Extreme (w.seen key) := by
  have store := sound.store key
  cases found : w.store.hops[key]? with
  | none =>
      rw [found] at store
      rw [sighted_eq_none_iff.mp store.symm]
      exact extreme_nil
  | some tmpl =>
      rw [found] at store
      exact (extreme_iff_of_sighted store.symm).mpr (extreme.store key tmpl found)

/-- One call keeps the slots extreme just when it follows the last sightings. -/
theorem slotsExtreme_step_iff (sound : w.Sound) (before : w.SlotsExtreme)
    (taken : hopCallStep w call w') : w'.SlotsExtreme ↔ CallsFollow w call := by
  have sound' := sound.step taken
  have kept : (∀ key, Extreme (w'.seen key)) → w'.disk = w.disk → w'.saved = w.saved →
      w'.SlotsExtreme := by
    intro extreme disk saved
    constructor
    · intro key tmpl found
      have store := sound'.store key
      rw [found] at store
      exact (extreme_iff_of_sighted store.symm).mp (extreme key)
    · rw [disk, saved]
      exact before.disk
  cases call with
  | recordHops routePlan contextSlot =>
      subst taken
      constructor
      · intro after key positive tmpl found
        have store := sound.store key
        rw [found] at store
        rcases sighted_cases store.symm with ⟨-, -, -, tail⟩
        exact (extreme_append_iff positive (sound.extreme before key) tail).mp
          (sound'.extreme after key)
      · intro follows
        refine kept (fun key => ?_) rfl rfl
        show Extreme (w.seen key ++ List.replicate (occurrences routePlan key) contextSlot)
        have store := sound.store key
        rcases Nat.eq_zero_or_pos (occurrences routePlan key) with none | positive
        · rw [none, List.replicate_zero, List.append_nil]
          exact sound.extreme before key
        · cases found : w.store.hops[key]? with
          | none =>
              rw [found] at store
              rw [sighted_eq_none_iff.mp store.symm, List.nil_append]
              exact extreme_replicate
          | some tmpl =>
              rw [found] at store
              rcases sighted_cases store.symm with ⟨-, -, -, tail⟩
              exact (extreme_append_iff positive (sound.extreme before key) tail).mpr
                (follows key positive tmpl found)
  | flush entries =>
      rcases taken with ⟨snapshot, rfl⟩
      refine iff_of_true ⟨before.store, fun key tmpl member => ?_⟩ trivial
      exact before.store key tmpl (snapshot.of_mem_readHops sound.store.keyed member)
  | restart =>
      subst taken
      exact iff_of_true (kept (fun _ => extreme_nil) rfl rfl) trivial
  | load =>
      subst taken
      refine iff_of_true (kept (fun key => ?_) rfl rfl) trivial
      simp only [HopWorld.load]
      split
      · rename_i row
        have member := Segments.mem_of_lookup row
        exact (extreme_iff_of_sighted (sound.disk key _ member)).mpr (before.disk key _ member)
      · exact sound.extreme before key

end Slots

/-- **When the slots are extreme.** In a run from the first process on, every template has
the least and the greatest known slot of its sightings just when every call follows the last
sighting of each hop it sees again. -/
theorem slotsExtreme_iff {w : HopWorld} {steps : List (Machine.Entry _ _)}
    (trace : hopCalls.Trace HopWorld.initial steps w) :
    (∀ entry ∈ steps, entry.after.SlotsExtreme) ↔
      ∀ entry ∈ steps, CallsFollow entry.before entry.label := by
  refine Machine.Trace.all_iff HopWorld.Sound HopWorld.SlotsExtreme
    (fun _ _ _ sound taken => sound.step taken)
    (fun _ _ _ sound before taken => slotsExtreme_step_iff sound before taken) trace
    (sound_of_reach (.ofStart rfl)) ⟨fun key tmpl found => ?_, fun key tmpl member => ?_⟩
  · rw [show HopWorld.initial.store.hops[key]? = none from allSighted_new key] at found
    cases found
  · exact (List.not_mem_nil member).elim

theorem callsFollow_twice (slot slot' : Option UInt64) :
    CallsFollow (HopWorld.initial.recordHops (circularPlan "Raydium") slot)
      (.recordHops (circularPlan "Raydium") slot') ↔ Follows slot slot' := by
  have sound := sound_of_reach (reach_recordHops (.ofStart rfl) (circularPlan "Raydium") slot)
  constructor
  · intro follows
    have found := sound.store raydiumHop
    rw [seen_raydiumHop] at found
    exact follows raydiumHop (by rw [occurrences_raydiumHop]; exact Nat.one_pos) _ found
  · intro follows key positive tmpl found
    have store := sound.store key
    rw [found] at store
    rcases sighted_cases store.symm with ⟨-, -, -, tail⟩
    have seen : (HopWorld.initial.recordHops (circularPlan "Raydium") slot).seen key =
        List.replicate (occurrences (circularPlan "Raydium") key) slot := List.nil_append _
    rw [seen, List.getLast?_replicate, if_neg (by omega)] at tail
    rw [← Option.some.inj tail]
    exact follows

/-- Slot 7 after slot 5 keeps the slots extreme, and slot 5 after slot 10 does not. -/
theorem slotsExtreme_iff_twice :
    let once := HopWorld.initial.recordHops (circularPlan "Raydium")
    let twice := fun slot => (once slot).recordHops (circularPlan "Raydium")
    ((once (some 5)).SlotsExtreme ∧ (twice (some 5) (some 7)).SlotsExtreme) ∧
      ¬ ((once (some 10)).SlotsExtreme ∧ (twice (some 10) (some 5)).SlotsExtreme) := by
  intro once twice
  have extreme : ∀ slot slot', (once slot).SlotsExtreme ∧ (twice slot slot').SlotsExtreme ↔
      Follows slot slot' := by
    intro slot slot'
    have trace : hopCalls.Trace HopWorld.initial
        (([] ++ [⟨_, .recordHops (circularPlan "Raydium") slot, once slot⟩]) ++
          [⟨once slot, .recordHops (circularPlan "Raydium") slot', twice slot slot'⟩])
        (twice slot slot') := ((Machine.Trace.nil _).snoc rfl).snoc rfl
    have whole := slotsExtreme_iff trace
    simp only [List.nil_append, List.cons_append, List.forall_mem_cons, List.not_mem_nil,
      false_implies, implies_true, and_true] at whole
    rw [whole]
    constructor
    · exact fun both => (callsFollow_twice slot slot').mp both.2
    · intro follows
      refine ⟨fun key _ tmpl found => ?_, (callsFollow_twice slot slot').mpr follows⟩
      rw [show HopWorld.initial.store.hops[key]? = none from allSighted_new key] at found
      cases found
  have later : (5 : UInt64) ≤ 7 := by decide
  have earlier : ¬ (10 : UInt64) ≤ 5 := by decide
  exact ⟨(extreme _ _).mpr later, fun both => earlier ((extreme _ _).mp both)⟩

end ArbBot
