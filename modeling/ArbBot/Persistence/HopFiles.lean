import ArbBot.Foundation.Grouping
import ArbBot.Foundation.Runs
import ArbBot.TierTwo.Soundness

/-!
# Hops on disk

A flush splits the known hops over one file per DEX, under the file stem of the DEX
and the `template_id` of the key, which leaves the DEX out. A load rebuilds every key
from the fields of its row.

* `place_inj`: stem and id together determine a key without `:` in its texts.
* `exists_row_hopFiles`: the files of a flush hold just the templates of the known hops.
* `hops_loadFromDisk`: a load fills in the rows it reads.
* `hops_roundTrip`: a reachable hop map is the same after a restart, and so is every
  answer of `check_hops`.
-/

namespace ArbBot

open Foundation

/-! ## File names -/

/-- `Path::extension` of a file name: what follows the last point, unless the point is
missing or nothing stands before it. -/
def fileExtension (name : String) : Option String :=
  if name = ".." then none
  else
    let reversed := name.toList.reverse
    match reversed.dropWhile (· ≠ '.') with
    | [] | [_] => none
    | _ :: _ :: _ => some (String.ofList (reversed.takeWhile (· ≠ '.')).reverse)

/-- A name made by appending an extension to a nonempty stem has that extension. -/
theorem fileExtension_append {stem ext : String} (named : stem ≠ "") (long : ext ≠ "")
    (plain : '.' ∉ ext.toList) : fileExtension (stem ++ "." ++ ext) = some ext := by
  have reversed : (stem ++ "." ++ ext).toList.reverse =
      ext.toList.reverse ++ '.' :: stem.toList.reverse := by
    simp [String.toList_append]
  have others : ∀ c ∈ ext.toList.reverse, decide (c ≠ '.') = true := by
    intro c member
    rw [decide_eq_true_eq]
    rintro rfl
    exact plain (List.mem_reverse.mp member)
  have notDots : stem ++ "." ++ ext ≠ ".." := by
    intro same
    have dots : "..".toList.reverse = ['.', '.'] := by decide
    rw [same, dots] at reversed
    cases shape : ext.toList.reverse with
    | nil => exact long (String.toList_eq_nil_iff.mp (List.reverse_eq_nil_iff.mp shape))
    | cons c rest =>
        rw [shape] at reversed others
        obtain ⟨rfl, -⟩ := List.cons.inj reversed
        have other := others _ List.mem_cons_self
        simp at other
  have stemChars : stem.toList.reverse ≠ [] := by
    intro none
    exact named (String.toList_eq_nil_iff.mp (List.reverse_eq_nil_iff.mp none))
  obtain ⟨c, rest, shape⟩ := List.exists_cons_of_ne_nil stemChars
  unfold fileExtension
  rw [if_neg notDots]
  simp only [reversed, shape]
  rw [List.dropWhile_append_of_pos others, List.takeWhile_append_of_pos others]
  simp

namespace DexKind

def fileStem : DexKind → String
  | .whirlpool => "whirlpool"
  | .whirlpoolSwapV2 => "whirlpool_swap_v2"
  | .raydiumClmm => "raydium_clmm"
  | .raydiumV2 => "raydium_v2"
  | .meteoraDlmm => "meteora_dlmm"
  | .meteoraPools => "meteora_pools"
  | .alphaQ => "alphaq"
  | .aquifer => "aquifer"
  | .aldrinV2 => "aldrin_v2"
  | .other => "other"

theorem fileStem_inj {dex dex' : DexKind} (same : dex.fileStem = dex'.fileStem) :
    dex = dex' := by
  cases dex <;> cases dex' <;> first | rfl | (simp [fileStem] at same)

/-- The name of the file of a DEX, inside the directory of the hops. -/
def fileName (dex : DexKind) : String := dex.fileStem ++ ".json"

theorem fileExtension_fileName (dex : DexKind) : fileExtension dex.fileName = some "json" := by
  have named : dex.fileStem ≠ "" := by cases dex <;> decide
  have shape : dex.fileName = dex.fileStem ++ "." ++ "json" := by
    rw [String.append_assoc]
    rfl
  rw [shape]
  exact fileExtension_append named (by decide) (by decide)

end DexKind

/-! ## The disk format -/

/-- The table of templates is the list of its rows, in the order a loop visits them. -/
structure DexHopFile where
  schemaVersion : UInt32
  dex : DexKind
  templates : List (String × HopTemplate)

/-- A directory entry: its name and, if it reads and parses, its content. -/
structure HopEntry where
  name : String
  file : Option DexHopFile

/-- The key a load rebuilds from the fields of a row. -/
def HopTemplate.key (tmpl : HopTemplate) : HopKey where
  dex := tmpl.dex
  poolOrAmmKey := tmpl.poolOrAmmKey
  inputMint := tmpl.inputMint
  outputMint := tmpl.outputMint
  direction := tmpl.direction
  remainingAccountsHash := tmpl.remainingAccountsHash

/-! ## Loading -/

/-- The file a load takes from an entry: only a `.json` one. -/
def HopEntry.read (entry : HopEntry) : Option DexHopFile :=
  if fileExtension entry.name = some "json" then entry.file else none

/-- One row: it never replaces a known hop, but counts all the same. -/
def loadRow (state : Std.HashMap HopKey HopTemplate × Nat) (row : String × HopTemplate) :
    Std.HashMap HopKey HopTemplate × Nat :=
  (state.1.insertIfNew row.2.key row.2, state.2 + 1)

def loadEntry (state : Std.HashMap HopKey HopTemplate × Nat) (entry : HopEntry) :
    Std.HashMap HopKey HopTemplate × Nat :=
  match entry.read with
  | some file => file.templates.foldl loadRow state
  | none => state

/-- `load_from_disk` on a directory that lists: the number of rows and the store. -/
def loadFromDisk (g : StoreInner) (entries : List HopEntry) : Nat × StoreInner :=
  let (hops, count) := entries.foldl loadEntry (g.hops, 0)
  (count, { g with hops := hops })

/-! ## Flushing -/

/-- One hop goes to the table of its DEX. -/
def addHop (byDex : Std.HashMap String (DexKind × Std.HashMap String HopTemplate))
    (hop : HopKey × HopTemplate) :
    Std.HashMap String (DexKind × Std.HashMap String HopTemplate) :=
  let stem := hop.1.dex.fileStem
  let (dex, map) := byDex[stem]?.getD (hop.1.dex, ∅)
  byDex.insert stem (dex, map.insert hop.1.templateId hop.2)

/-- The files `flush_to_disk` writes for hops visited in this order. -/
def hopFiles (hops : List (HopKey × HopTemplate)) : List (String × DexHopFile) :=
  (hops.foldl addHop ∅).toList.map fun (stem, dex, templates) =>
    (stem ++ ".json", { schemaVersion := 1, dex := dex, templates := templates.toList })

/-- The same file with its rows in another order. -/
structure SameRows (file file' : String × DexHopFile) : Prop where
  name : file.1 = file'.1
  schemaVersion : file.2.schemaVersion = file'.2.schemaVersion
  dex : file.2.dex = file'.2.dex
  templates : file.2.templates.Perm file'.2.templates

/-- Files a flush may write: the order of the hops, the files and the rows is not
specified. -/
structure HopFlush (g : StoreInner) (files : List (String × DexHopFile)) : Prop where
  ordered : ∃ hops files', hops.Perm g.hops.toList ∧
    List.Forall₂ SameRows (hopFiles hops) files' ∧ files.Perm files'

/-- The directory entry of a file. -/
def HopEntry.ofFile (file : String × DexHopFile) : HopEntry := ⟨file.1, some file.2⟩

/-- A directory after a flush: its files, beside others a load does not read. -/
structure HopSnapshot (g : StoreInner) (entries : List HopEntry) : Prop where
  flushed : ∃ files others, HopFlush g files ∧ (∀ entry ∈ others, entry.read = none) ∧
    entries.Perm (files.map HopEntry.ofFile ++ others)

/-! ## Reachable hop maps -/

inductive HopStep where
  | recordHops (routePlan : Json) (contextSlot : Option UInt64)
  | loadFromDisk (entries : List HopEntry)

def HopStep.apply (g : StoreInner) : HopStep → StoreInner
  | .recordHops routePlan contextSlot => ArbBot.recordHops g routePlan contextSlot
  | .loadFromDisk entries => (ArbBot.loadFromDisk g entries).2

/-- The store under the methods that write its hops. -/
def hopMachine : Machine StoreInner HopStep where
  start g := g = .new
  step g step g' := g' = step.apply g

/-- Every row holds the fields of its key. -/
def Keyed (hops : Std.HashMap HopKey HopTemplate) : Prop :=
  ∀ (key : HopKey) (tmpl : HopTemplate), hops[key]? = some tmpl → tmpl.key = key

/-! ## What a load does -/

/-- The hops a load finds in a directory, in reading order. -/
def readHops (entries : List HopEntry) : List (HopKey × HopTemplate) :=
  (entries.filterMap HopEntry.read).flatMap fun file =>
    file.templates.map fun row => (row.2.key, row.2)

theorem foldl_loadRow (rows : List (String × HopTemplate))
    (hops : Std.HashMap HopKey HopTemplate) (count : Nat) :
    rows.foldl loadRow (hops, count) =
      ((rows.map fun row => (row.2.key, row.2)).foldl
        (fun hops hop => hops.insertIfNew hop.1 hop.2) hops, count + rows.length) := by
  induction rows generalizing hops count with
  | nil => rfl
  | cons row rest ih =>
      rw [List.foldl_cons, loadRow, ih, List.length_cons, Nat.add_right_comm]
      rfl

theorem foldl_loadEntry (entries : List HopEntry) (hops : Std.HashMap HopKey HopTemplate)
    (count : Nat) :
    entries.foldl loadEntry (hops, count) =
      ((readHops entries).foldl (fun hops hop => hops.insertIfNew hop.1 hop.2) hops,
        count + (readHops entries).length) := by
  induction entries generalizing hops count with
  | nil => rfl
  | cons entry rest ih =>
      rw [List.foldl_cons, loadEntry]
      unfold readHops
      cases content : entry.read with
      | none =>
          rw [List.filterMap_cons_none content]
          exact ih hops count
      | some file =>
          rw [List.filterMap_cons_some content, List.flatMap_cons, List.foldl_append,
            List.length_append, List.length_map, ← Nat.add_assoc]
          dsimp only
          rw [foldl_loadRow]
          exact ih _ _

/-- After a load a key has its old template or, if there was none, the first one read. -/
theorem hops_loadFromDisk (g : StoreInner) (entries : List HopEntry) (key : HopKey) :
    (loadFromDisk g entries).2.hops[key]? =
      match g.hops[key]? with
      | some tmpl => some tmpl
      | none => (readHops entries).lookup key := by
  have hops : (loadFromDisk g entries).2.hops =
      (readHops entries).foldl (fun hops hop => hops.insertIfNew hop.1 hop.2) g.hops :=
    congrArg Prod.fst (foldl_loadEntry entries g.hops 0)
  rw [hops, Segments.getElem?_foldl_insertIfNew]
  cases g.hops[key]? <;> rfl

theorem mem_readHops {entries : List HopEntry} {key : HopKey} {tmpl : HopTemplate} :
    (key, tmpl) ∈ readHops entries ↔
      tmpl.key = key ∧ ∃ entry ∈ entries, ∃ file, entry.read = some file ∧
        ∃ row ∈ file.templates, row.2 = tmpl := by
  unfold readHops
  rw [List.mem_flatMap]
  constructor
  · intro given
    rcases given with ⟨file, fileRead, hopMember⟩
    obtain ⟨entry, member, content⟩ := List.mem_filterMap.mp fileRead
    obtain ⟨row, rowMember, same⟩ := List.mem_map.mp hopMember
    obtain ⟨rfl, rfl⟩ := Prod.mk.inj same
    exact ⟨rfl, entry, member, file, content, row, rowMember, rfl⟩
  · intro given
    rcases given with ⟨rfl, entry, member, file, content, row, rowMember, rfl⟩
    exact ⟨file, List.mem_filterMap.mpr ⟨entry, member, content⟩,
      List.mem_map.mpr ⟨row, rowMember, rfl⟩⟩

/-! ## Rows hold the fields of their key -/

theorem keyed_recordHop {hops : Std.HashMap HopKey HopTemplate} (keyed : Keyed hops)
    (contextSlot : Option UInt64) (hop : Json) : Keyed (recordHop contextSlot hops hop) := by
  unfold recordHop
  cases parsed : hopKey hop with
  | none => exact keyed
  | some key =>
      intro key' tmpl found
      rw [Std.HashMap.getElem?_insert] at found
      split at found
      · rename_i same
        obtain rfl := eq_of_beq same
        obtain rfl := Option.some.inj found
        -- A sighting changes only the counter and the last slot.
        rw [Std.HashMap.getD_eq_getD_getElem?]
        cases old : hops[key]? with
        | none => rfl
        | some tmpl => exact keyed key tmpl old
      · exact keyed key' tmpl found

theorem keyed_foldl_recordHop {hops : Std.HashMap HopKey HopTemplate} (keyed : Keyed hops)
    (contextSlot : Option UInt64) (plan : List Json) :
    Keyed (plan.foldl (recordHop contextSlot) hops) := by
  induction plan generalizing hops with
  | nil => exact keyed
  | cons hop rest ih => exact ih (keyed_recordHop keyed contextSlot hop)

theorem keyed_recordHops {g : StoreInner} (keyed : Keyed g.hops) (routePlan : Json)
    (contextSlot : Option UInt64) : Keyed (recordHops g routePlan contextSlot).hops := by
  unfold recordHops
  cases routePlan.asArray with
  | none => exact keyed
  | some plan => exact keyed_foldl_recordHop keyed contextSlot plan

theorem keyed_loadFromDisk {g : StoreInner} (keyed : Keyed g.hops)
    (entries : List HopEntry) : Keyed (loadFromDisk g entries).2.hops := by
  intro key tmpl found
  rw [hops_loadFromDisk] at found
  cases old : g.hops[key]? with
  | some tmpl' =>
      rw [old] at found
      obtain rfl := Option.some.inj found
      exact keyed key tmpl' old
  | none =>
      rw [old] at found
      exact (mem_readHops.mp (Segments.mem_of_lookup found)).1

theorem keyed_of_reach {g : StoreInner} (reached : hopMachine.Reach Machine.anyStep g) :
    Keyed g.hops := by
  refine reached.invariant (fun g => Keyed g.hops) ?_ ?_
  · rintro g rfl key tmpl found
    have nothing : StoreInner.new.hops[key]? = none := Std.HashMap.getElem?_empty
    rw [nothing] at found
    cases found
  · rintro g step g' keyed - rfl
    cases step with
    | recordHops routePlan contextSlot => exact keyed_recordHops keyed routePlan contextSlot
    | loadFromDisk entries => exact keyed_loadFromDisk keyed entries

/-- `check_hops` reads the keys of the hop map only. -/
theorem checkHops_congr {g g' : StoreInner}
    (same : ∀ key : HopKey, g.hops[key]? = g'.hops[key]?) (routePlan : Json) :
    checkHops g routePlan = checkHops g' routePlan := by
  have contains (key : HopKey) : g.hops.contains key = g'.hops.contains key := by
    rw [Std.HashMap.contains_eq_isSome_getElem?, Std.HashMap.contains_eq_isSome_getElem?, same]
  simp only [checkHops, contains]

/-! ## What a flush writes -/

/-- Stem and id determine the key: the stem has the DEX, the id all the rest. -/
theorem place_inj {key key' : HopKey} (free : key.ColonFree) (free' : key'.ColonFree)
    (sameStem : key.dex.fileStem = key'.dex.fileStem)
    (sameId : key.templateId = key'.templateId) : key = key' := by
  have sameDex := DexKind.fileStem_inj sameStem
  have samePair := free.pair_eq free' sameId
  cases key
  cases key'
  simp only [HopKey.pair, Prod.mk.injEq] at samePair
  simp only at sameDex
  simp only [sameDex, samePair]

/-- No two hops of the list go to one row. -/
def DistinctPlaces (hops : List (HopKey × HopTemplate)) : Prop :=
  hops.Pairwise fun a b =>
    ¬ (a.1.dex.fileStem = b.1.dex.fileStem ∧ a.1.templateId = b.1.templateId)

theorem distinctPlaces_of_perm {g : StoreInner} {hops : List (HopKey × HopTemplate)}
    (free : ∀ key ∈ g.hops, key.ColonFree) (visited : hops.Perm g.hops.toList) :
    DistinctPlaces hops := by
  have known : ∀ hop ∈ hops, hop.1.ColonFree := by
    intro hop member
    have found := Std.HashMap.mem_toList_iff_getElem?_eq_some.mp (visited.mem_iff.mp member)
    exact free hop.1 (Segments.mem_of_getElem? found)
  have apart : hops.Pairwise fun a b => (a.1 == b.1) = false :=
    (visited.pairwise_iff fun other => by rwa [BEq.comm]).mpr Std.HashMap.distinct_keys_toList
  refine apart.imp_of_mem fun memberA memberB other same => ?_
  have sameKey := place_inj (known _ memberA) (known _ memberB) same.1 same.2
  rw [beq_eq_false_iff_ne] at other
  exact other sameKey

theorem foldl_addHop (hops : List (HopKey × HopTemplate)) :
    hops.foldl addHop ∅ =
      hops.foldl (fun byDex hop =>
        Grouping.put byDex hop.1.dex.fileStem hop.1.dex hop.1.templateId hop.2) ∅ := rfl

theorem exists_row_hopFiles_iff_row {hops : List (HopKey × HopTemplate)} (tmpl : HopTemplate) :
    (∃ file ∈ hopFiles hops, ∃ row ∈ file.2.templates, row.2 = tmpl) ↔
      ∃ stem id, Grouping.row (hops.foldl addHop ∅) stem id = some tmpl := by
  rw [← Grouping.exists_table_iff]
  simp only [hopFiles, List.mem_map, exists_exists_and_eq_and]

/-- The files of a flush hold templates of the hops, whichever of them share a row. -/
theorem of_row_hopFiles {hops : List (HopKey × HopTemplate)} {tmpl : HopTemplate}
    (found : ∃ file ∈ hopFiles hops, ∃ row ∈ file.2.templates, row.2 = tmpl) :
    ∃ hop ∈ hops, hop.2 = tmpl := by
  rcases (exists_row_hopFiles_iff_row tmpl).mp found with ⟨stem, id, row⟩
  rw [foldl_addHop] at row
  rcases Grouping.of_row_foldl_put row with put | none
  · exact put
  · rw [Grouping.row_empty] at none
    cases none

/-- The files of a flush hold just the templates of the hops. -/
theorem exists_row_hopFiles {hops : List (HopKey × HopTemplate)}
    (distinct : DistinctPlaces hops) (tmpl : HopTemplate) :
    (∃ file ∈ hopFiles hops, ∃ row ∈ file.2.templates, row.2 = tmpl) ↔
      ∃ hop ∈ hops, hop.2 = tmpl := by
  have rows (stem id : String) :
      Grouping.row (hops.foldl addHop ∅) stem id = some tmpl ↔
        ∃ hop ∈ hops, hop.1.dex.fileStem = stem ∧ hop.1.templateId = id ∧ hop.2 = tmpl := by
    rw [foldl_addHop, Grouping.row_foldl_put distinct, Grouping.row_empty]
    simp only [reduceCtorEq, and_false, or_false]
  refine ⟨of_row_hopFiles, fun given => ?_⟩
  rcases given with ⟨hop, member, same⟩
  exact (exists_row_hopFiles_iff_row tmpl).mpr ⟨_, _, (rows _ _).mpr ⟨hop, member, rfl, rfl, same⟩⟩

/-- A flush names its files after the DEXes. -/
theorem name_of_mem_hopFiles {hops : List (HopKey × HopTemplate)} {file : String × DexHopFile}
    (member : file ∈ hopFiles hops) : ∃ dex : DexKind, file.1 = dex.fileName := by
  have stems : ∀ stem ∈ hops.foldl addHop ∅, ∃ dex : DexKind, stem = dex.fileStem := by
    refine List.foldlRecOn hops addHop (motive := fun byDex => ∀ stem ∈ byDex,
      ∃ dex : DexKind, stem = dex.fileStem) ?_ ?_
    · intro stem absent
      exact (Std.HashMap.not_mem_empty absent).elim
    · intro byDex earlier hop _ stem known
      rcases Std.HashMap.mem_insert.mp known with same | old
      · exact ⟨hop.1.dex, (eq_of_beq same).symm⟩
      · exact earlier stem old
  obtain ⟨⟨stem, table⟩, tableMember, rfl⟩ := List.mem_map.mp member
  have known := Segments.mem_of_getElem?
    (Std.HashMap.mem_toList_iff_getElem?_eq_some.mp tableMember)
  obtain ⟨dex, rfl⟩ := stems stem known
  exact ⟨dex, rfl⟩

/-- A load reads the file of a DEX. -/
theorem HopEntry.read_ofFile {file : String × DexHopFile} {dex : DexKind}
    (named : file.1 = dex.fileName) : (HopEntry.ofFile file).read = some file.2 := by
  rw [HopEntry.read, HopEntry.ofFile, named, if_pos dex.fileExtension_fileName]

/-- The order in which a flush visits the hops does not matter for what its files hold. -/
theorem HopFlush.exists_row {g : StoreInner} {files : List (String × DexHopFile)}
    (flush : HopFlush g files) :
    ∃ hops : List (HopKey × HopTemplate), hops.Perm g.hops.toList ∧ ∀ tmpl,
      (∃ file ∈ files, ∃ row ∈ file.2.templates, row.2 = tmpl) ↔
        ∃ file ∈ hopFiles hops, ∃ row ∈ file.2.templates, row.2 = tmpl := by
  obtain ⟨hops, files', visited, sameRows, reordered⟩ := flush.ordered
  refine ⟨hops, visited, fun tmpl => ?_⟩
  have rows := Grouping.exists_mem_iff_of_forall₂
    (P := fun file : String × DexHopFile => ∃ row ∈ file.2.templates, row.2 = tmpl)
    (Q := fun file => ∃ row ∈ file.2.templates, row.2 = tmpl)
    sameRows fun written _ read same => by simp only [same.templates.mem_iff]
  simp only [reordered.mem_iff]
  exact rows.symm

/-- A flush in any order writes files of the DEXes, which hold just the known hops. -/
theorem HopFlush.files_spec {g : StoreInner} {files : List (String × DexHopFile)}
    (flush : HopFlush g files) :
    (∀ file ∈ files, ∃ dex : DexKind, file.1 = dex.fileName) ∧
    ((∀ key ∈ g.hops, key.ColonFree) → ∀ tmpl,
      (∃ file ∈ files, ∃ row ∈ file.2.templates, row.2 = tmpl) ↔
        ∃ hop ∈ g.hops.toList, hop.2 = tmpl) := by
  constructor
  · obtain ⟨hops, files', -, sameRows, reordered⟩ := flush.ordered
    intro file member
    have named := (Grouping.exists_mem_iff_of_forall₂
      (P := fun written => written.1 = file.1) (Q := fun read => read.1 = file.1)
      sameRows fun written _ read same => by rw [same.name]).mpr
      ⟨file, reordered.mem_iff.mp member, rfl⟩
    obtain ⟨written, writtenMember, sameName⟩ := named
    rw [← sameName]
    exact name_of_mem_hopFiles writtenMember
  · intro free tmpl
    obtain ⟨hops, visited, rows⟩ := flush.exists_row
    rw [rows, exists_row_hopFiles (distinctPlaces_of_perm free visited)]
    simp only [visited.mem_iff]

/-- A load reads just the rows of a flush from its directory. -/
theorem HopSnapshot.exists_row {g : StoreInner} {entries : List HopEntry}
    (snapshot : HopSnapshot g entries) :
    ∃ files, HopFlush g files ∧ ∀ tmpl,
      (∃ entry ∈ entries, ∃ file, entry.read = some file ∧
          ∃ row ∈ file.templates, row.2 = tmpl) ↔
        ∃ file ∈ files, ∃ row ∈ file.2.templates, row.2 = tmpl := by
  obtain ⟨files, others, flush, unread, listed⟩ := snapshot.flushed
  refine ⟨files, flush, fun tmpl => ?_⟩
  constructor
  · intro given
    rcases given with ⟨entry, member, file, content, found⟩
    rcases List.mem_append.mp (listed.mem_iff.mp member) with isFile | other
    · obtain ⟨file', fileMember, rfl⟩ := List.mem_map.mp isFile
      obtain ⟨dex, named⟩ := flush.files_spec.1 file' fileMember
      rw [HopEntry.read_ofFile named, Option.some.injEq] at content
      subst content
      exact ⟨file', fileMember, found⟩
    · rw [unread entry other] at content
      cases content
  · intro given
    rcases given with ⟨file, fileMember, found⟩
    obtain ⟨dex, named⟩ := flush.files_spec.1 file fileMember
    have isFile : HopEntry.ofFile file ∈ files.map HopEntry.ofFile :=
      List.mem_map_of_mem fileMember
    exact ⟨_, listed.mem_iff.mpr (List.mem_append_left _ isFile), file.2,
      HopEntry.read_ofFile named, found⟩

theorem getElem?_of_mem_toList {g : StoreInner} (keyed : Keyed g.hops) {tmpl : HopTemplate}
    (known : ∃ hop ∈ g.hops.toList, hop.2 = tmpl) : g.hops[tmpl.key]? = some tmpl := by
  rcases known with ⟨⟨key, tmpl⟩, member, rfl⟩
  have found := Std.HashMap.mem_toList_iff_getElem?_eq_some.mp member
  rw [keyed key tmpl found]
  exact found

/-- Reading the files of a flush back finds known hops only. -/
theorem HopSnapshot.of_mem_readHops {g : StoreInner} {entries : List HopEntry}
    (snapshot : HopSnapshot g entries) (keyed : Keyed g.hops) {key : HopKey} {tmpl : HopTemplate}
    (member : (key, tmpl) ∈ readHops entries) : g.hops[key]? = some tmpl := by
  obtain ⟨files, flush, read⟩ := snapshot.exists_row
  obtain ⟨hops, visited, rows⟩ := flush.exists_row
  rcases mem_readHops.mp member with ⟨rfl, row⟩
  obtain ⟨hop, hopMember, same⟩ := of_row_hopFiles ((rows tmpl).mp ((read tmpl).mp row))
  exact getElem?_of_mem_toList keyed ⟨hop, visited.mem_iff.mp hopMember, same⟩

/-- Reading the files of a flush back finds just the known hops. -/
theorem mem_readHops_iff {g : StoreInner} {entries : List HopEntry} (keyed : Keyed g.hops)
    (free : ∀ key ∈ g.hops, key.ColonFree) (snapshot : HopSnapshot g entries)
    (key : HopKey) (tmpl : HopTemplate) :
    (key, tmpl) ∈ readHops entries ↔ g.hops[key]? = some tmpl := by
  refine ⟨snapshot.of_mem_readHops keyed, fun found => ?_⟩
  obtain ⟨files, flush, read⟩ := snapshot.exists_row
  have member := Std.HashMap.mem_toList_iff_getElem?_eq_some.mpr found
  refine mem_readHops.mpr ⟨keyed key tmpl found, ?_⟩
  rw [read, flush.files_spec.2 free]
  exact ⟨(key, tmpl), member, rfl⟩

/-- **Hops survive a restart.** What a load of the flushed files gives an empty store is
the hop map that was flushed, so `check_hops` answers as before; no two known hops share
a row of a file. -/
theorem hops_roundTrip {g : StoreInner} {entries : List HopEntry}
    (reached : hopMachine.Reach Machine.anyStep g)
    (free : ∀ key ∈ g.hops, key.ColonFree) (snapshot : HopSnapshot g entries) :
    (∀ key : HopKey, (loadFromDisk .new entries).2.hops[key]? = g.hops[key]?) ∧
    (∀ routePlan, checkHops (loadFromDisk .new entries).2 routePlan = checkHops g routePlan) ∧
    ∀ key ∈ g.hops, ∀ key' ∈ g.hops, key.dex.fileStem = key'.dex.fileStem →
      key.templateId = key'.templateId → key = key' := by
  have keyed := keyed_of_reach reached
  have read := mem_readHops_iff keyed free snapshot
  have restored (key : HopKey) :
      (loadFromDisk .new entries).2.hops[key]? = g.hops[key]? := by
    have absent : StoreInner.new.hops[key]? = none := Std.HashMap.getElem?_empty
    have functional : ∀ tmpl tmpl', (key, tmpl) ∈ readHops entries →
        (key, tmpl') ∈ readHops entries → tmpl = tmpl' := by
      intro tmpl tmpl' first second
      have same := ((read key tmpl).mp first).symm.trans ((read key tmpl').mp second)
      exact Option.some.inj same
    rw [hops_loadFromDisk, absent]
    ext tmpl
    exact (Grouping.lookup_eq_some_iff functional).trans (read key tmpl)
  refine ⟨restored, fun routePlan => ?_, fun key known key' known' => ?_⟩
  · exact checkHops_congr restored routePlan
  · exact place_inj (free key known) (free key' known')

/-! ## One pool under two labels -/

/-- The files a flush leaves in an empty directory. -/
def flushHops (g : StoreInner) : List HopEntry :=
  (hopFiles g.hops.toList).map HopEntry.ofFile

theorem hopFlush_hopFiles (g : StoreInner) : HopFlush g (hopFiles g.hops.toList) where
  ordered := by
    refine ⟨g.hops.toList, hopFiles g.hops.toList, List.Perm.refl _, ?_, List.Perm.refl _⟩
    rw [List.forall₂_same]
    exact fun _ _ => ⟨rfl, rfl, rfl, List.Perm.refl _⟩

theorem snapshot_flushHops (g : StoreInner) : HopSnapshot g (flushHops g) where
  flushed := by
    refine ⟨hopFiles g.hops.toList, [], hopFlush_hopFiles g, by simp, ?_⟩
    rw [List.append_nil]
    exact List.Perm.refl _

/-- A known hop was known before or is one of the plan. -/
theorem mem_recordHops {g : StoreInner} {routePlan : Json} {contextSlot : Option UInt64}
    {key : HopKey} (known : key ∈ (recordHops g routePlan contextSlot).hops) :
    key ∈ g.hops ∨ some key ∈ hopKeys routePlan := by
  unfold recordHops at known
  unfold hopKeys
  cases hops : routePlan.asArray with
  | none =>
      rw [hops] at known
      exact Or.inl known
  | some plan =>
      rw [hops] at known
      revert known
      refine List.foldlRecOn plan (recordHop contextSlot) (motive := fun hops => key ∈ hops →
        key ∈ g.hops ∨ some key ∈ plan.map hopKey) Or.inl ?_
      intro hops earlier hop member known
      unfold recordHop at known
      cases parsed : hopKey hop with
      | none =>
          rw [parsed] at known
          exact earlier known
      | some key' =>
          rw [parsed] at known
          rcases Std.HashMap.mem_insert.mp known with same | old
          · obtain rfl := eq_of_beq same
            exact Or.inr (List.mem_map.mpr ⟨hop, member, parsed⟩)
          · exact earlier old

/-- Both labels give one `template_id`, in the files of two DEXes. -/
theorem hops_roundTrip_labels :
    let g := recordHops (recordHops .new (circularPlan "Raydium") (some 7))
      (circularPlan "Meteora") none
    ∀ routePlan, checkHops (loadFromDisk .new (flushHops g)).2 routePlan =
      checkHops g routePlan := by
  intro g
  have reached : hopMachine.Reach Machine.anyStep g := by
    have first : hopMachine.Reach Machine.anyStep .new := .ofStart rfl
    have second := first.step (i := .recordHops (circularPlan "Raydium") (some 7)) trivial rfl
    exact second.step (i := .recordHops (circularPlan "Meteora") none) trivial rfl
  have free : ∀ key ∈ g.hops, key.ColonFree := by
    intro key known
    rcases mem_recordHops known with earlier | ofMeteora
    · rcases mem_recordHops earlier with none | ofRaydium
      · exact (Std.HashMap.not_mem_empty none).elim
      · exact (plainPlan_raydium key ofRaydium).colonFree
    · exact (plainPlan_meteora key ofMeteora).colonFree
  exact (hops_roundTrip reached free (snapshot_flushHops g)).2.1

end ArbBot
